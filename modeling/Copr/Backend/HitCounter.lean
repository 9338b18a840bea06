import Copr.Lib.Tallies
import Copr.Lib.Text

/-!
# Downloads in access logs

`copr_backend/hitcounter.py`: which records of an access log are downloads that are counted, and
the report about them for the frontend. A regular expression that ignores case is a list of
character classes here.
-/

namespace Copr.HitCounter

open Text Tallies

/-! ## Regular expressions -/

/-- What the letters of ASCII match besides themselves when case is ignored. -/
def extraCases : List (Char × Char) :=
  [('i', '\u0130'), ('i', '\u0131'), ('s', '\u017f'), ('k', '\u212a')]

/-- A character of the expression, ignoring case. -/
def letter (expected c : Char) : Bool :=
  decide (c.toLower = expected.toLower ∨ (expected.toLower, c) ∈ extraCases)

/-- `[a-z]`, ignoring case. -/
def anyLetter (c : Char) : Bool := c.isAlpha || extraCases.any fun pair => pair.2 == c

/-- A text of the expression, ignoring case. -/
def literal (text : String) : List (Char → Bool) := text.toList.map letter

/-- Match one character after another from the start; the result is what follows. -/
def eat : List (Char → Bool) → List Char → Option (List Char)
  | [], rest => some rest
  | _ :: _, [] => none
  | expected :: more, c :: rest => if expected c then eat more rest else none

/-- The expression is found somewhere. -/
def found (expression : List (Char → Bool)) (text : List Char) : Bool :=
  text.tails.any fun rest => (eat expression rest).isSome

/-- The groups of `base_regex`. -/
structure UrlGroups where
  /-- `owner`. -/
  owner : String
  /-- `project`. -/
  project : String
  /-- `chroot`. -/
  chroot : String
  deriving DecidableEq, Repr

/-- `base_regex`: the groups and what follows. Each group is what stands before the next slash. -/
def baseRegex (url : List Char) : Option (UrlGroups × List Char) := do
  let afterResults ← eat (literal "/results/") url
  let owner ← cut '/' afterResults
  let project ← cut '/' owner.2
  let chroot ← cut '/' project.2
  some (⟨.ofList owner.1, .ofList project.1, .ofList chroot.1⟩, chroot.2)

/-- `repomd_url_regex`; the last dot of the expression is any character. -/
def repomdUrlRegex (url : String) : Option UrlGroups :=
  (baseRegex url.toList).bind fun base =>
    if (eat (literal "repodata/repomd" ++ (· != '\n') :: literal "xml") base.2).isSome then
      some base.1
    else none

/-- `[^/]*\.rpm`. -/
def rpmName (text : List Char) : Bool := found (literal ".rpm") (text.takeWhile (· ≠ '/'))

/-- `rpm_url_regex`. -/
def rpmUrlRegex (url : String) : Option UrlGroups :=
  (baseRegex url.toList).bind fun base =>
    if (cut '/' base.2).any (fun buildDir => rpmName buildDir.2) ||
        (eat (literal "Packages/" ++ anyLetter :: literal "/") base.2).any rpmName then
      some base.1
    else none

/-- The alternatives of `spider_regex`. -/
def spiders : List (List (Char → Bool)) :=
  literal "ahrefs" :: (literal "bot/" ++ [Char.isDigit]) ::
    ["bingbot", "borg", "google", "googlebot", "yahoo", "slurp", "msnbot", "openbot", "archiver",
      "netresearch", "lycos", "scooter", "altavista", "teoma", "gigabot", "blitzbot", "oegp",
      "charlotte", "furlbot", "http://client", "polybot", "htdig", "ichiro", "larbin", "pompos",
      "scrubby", "searchsight", "seekbot", "semanticdiscovery", "silk", "snappy", "spider",
      "voila", "vortex", "voyager", "zao", "zeal", "fast-webcrawler", "converacrawler", "msrbot",
      "baiduspider", "mogimogi", "speedy", "dataparksearch", "findlinks", "crawler", "yandex",
      "blexbot", "semrushbot"].map literal

/-- `spider_regex`; the dots in front match no newline. -/
def spiderRegex (userAgent : String) : Bool :=
  spiders.any fun name => found name (userAgent.toList.takeWhile (· ≠ '\n'))

/-! ## The report -/

/-- A record of an access log. -/
structure Access where
  /-- `date`. -/
  date : String
  /-- `time`. -/
  time : String
  /-- `cs-uri-stem`. -/
  uriStem : String
  /-- `sc-status`. -/
  status : String
  /-- `cs(User-Agent)`. -/
  userAgent : String
  deriving DecidableEq, Repr

/-- What is used of libraries. -/
structure Library where
  /-- `requests.utils.unquote`. -/
  unquote : String → String
  /-- `datetime.strptime(_, "%Y-%m-%d %H:%M:%S")` as a timestamp; `none` is a `ValueError`. -/
  timestamp : String → Option Int

/-- The body of the request. -/
structure HitData where
  /-- `ts_from`. -/
  tsFrom : Int
  /-- `ts_to`. -/
  tsTo : Int
  /-- `hits`. -/
  hits : List (String × Nat)
  deriving DecidableEq, Repr

/-- `'|'.join`. -/
def join (key : List String) : String := "|".intercalate key

/-- `url_to_key_strings`. -/
def urlToKeyStrings (url : String) : List String :=
  match repomdUrlRegex url with
  | some groups =>
    [join ["chroot_repo_metadata_dl_stat", groups.owner, groups.project, groups.chroot]]
  | none =>
    match rpmUrlRegex url with
    | some groups =>
      [join ["chroot_rpms_dl_stat", groups.owner, groups.project, groups.chroot],
        join ["project_rpms_dl_stat", groups.owner, groups.project]]
    | none => []

/-- `text.endswith(s)`. -/
def endswith (text s : String) : Bool := s.toList.isSuffixOf text.toList

/-- The key of an SRPM build. -/
def srpmKey (key : String) : Bool :=
  startswith key "chroot_rpms_dl_stat|" && endswith key "|srpm-builds"

/-- The keys under which `get_hit_data` counts a record; it skips the record if there are none. -/
def countedKeys (lib : Library) (access : Access) : List String :=
  if access.status = "404" then []
  else if startswith access.userAgent "Mock" then []
  else if spiderRegex access.userAgent then []
  else if lib.unquote access.uriStem ≠ lib.unquote (lib.unquote access.uriStem) then []
  else
    let keyStrings := urlToKeyStrings (lib.unquote access.uriStem)
    if keyStrings.any srpmKey then [] else keyStrings

/-- The body of the loop of `get_hit_data`, with `hits` and `timestamps`. -/
def countAccess (lib : Library) (counted : List (String × Nat) × List Int) (access : Access) :
    Option (List (String × Nat) × List Int) :=
  match countedKeys lib access with
  | [] => some counted
  | key :: keys =>
    (lib.timestamp (access.date ++ " " ++ access.time)).map fun timestamp =>
      ((key :: keys).foldl (fun hits key => bump key hits) counted.1, counted.2 ++ [timestamp])

/-- `get_hit_data`. It is `none` when it raises an exception, and `some none` for an empty
dictionary. -/
def getHitData (lib : Library) (accesses : List Access) : Option (Option HitData) :=
  (accesses.foldlM (countAccess lib) ([], [])).map fun counted =>
    if counted.1.isEmpty then none
    else some ⟨counted.2.min?.getD 0, counted.2.max?.getD 0, counted.1⟩

/-! ## Downloads -/

/-- What is downloaded. -/
inductive DownloadKind where
  /-- The metadata of a repository. -/
  | repomd
  /-- A package. -/
  | rpm
  deriving DecidableEq, Repr

/-- What a URL that is counted stands for. -/
structure AccessedFile where
  /-- What is downloaded. -/
  kind : DownloadKind
  /-- Where it is. -/
  groups : UrlGroups
  deriving DecidableEq, Repr

/-- The keys of a download. -/
def AccessedFile.keyStrings (d : AccessedFile) : List String :=
  match d.kind with
  | .repomd => [join ["chroot_repo_metadata_dl_stat", d.groups.owner, d.groups.project,
      d.groups.chroot]]
  | .rpm => [join ["chroot_rpms_dl_stat", d.groups.owner, d.groups.project, d.groups.chroot],
      join ["project_rpms_dl_stat", d.groups.owner, d.groups.project]]

/-- The names in the URL have no bar in them. -/
def AccessedFile.Plain (d : AccessedFile) : Prop :=
  '|' ∉ d.groups.owner.toList ∧ '|' ∉ d.groups.project.toList ∧ '|' ∉ d.groups.chroot.toList

instance (d : AccessedFile) : Decidable d.Plain := by
  unfold AccessedFile.Plain
  infer_instance

/-- The download is one of the results of SRPM builds. -/
def AccessedFile.ofSrpmBuilds (d : AccessedFile) : Bool := decide (d.groups.chroot = "srpm-builds")

/-- What a URL stands for. -/
def urlDownload (url : String) : Option AccessedFile :=
  match repomdUrlRegex url with
  | some groups => some ⟨.repomd, groups⟩
  | none => (rpmUrlRegex url).map fun groups => ⟨.rpm, groups⟩

/-- The record is neither of a missing file nor of Mock nor of a bot, and its URL is not encoded
twice. -/
def passes (lib : Library) (access : Access) : Bool :=
  decide (access.status ≠ "404") && !startswith access.userAgent "Mock" &&
    !spiderRegex access.userAgent &&
    decide (lib.unquote access.uriStem = lib.unquote (lib.unquote access.uriStem))

/-- The download that passes the filters, wherever it is. -/
def download (lib : Library) (access : Access) : Option AccessedFile :=
  if passes lib access then urlDownload (lib.unquote access.uriStem) else none

/-- The accepted downloads: those that pass the filters and are not under `srpm-builds`. -/
def accepted (lib : Library) (accesses : List Access) : List AccessedFile :=
  (accesses.filterMap (download lib)).filter fun d => !d.ofSrpmBuilds

/-- Repository metadata under `srpm-builds`. -/
def AccessedFile.srpmMetadata (d : AccessedFile) : Bool :=
  decide (d.kind = .repomd) && d.ofSrpmBuilds

variable {lib : Library} {accesses : List Access} {access : Access} {d : AccessedFile}

/-- The keys of a URL are those of what it stands for. -/
theorem urlToKeyStrings_eq (url : String) :
    urlToKeyStrings url = (urlDownload url).elim [] AccessedFile.keyStrings := by
  unfold urlToKeyStrings urlDownload
  cases repomdUrlRegex url with
  | some groups => rfl
  | none => cases rpmUrlRegex url <;> rfl

/-- The keys under which a download is counted that passes the filters. -/
def AccessedFile.counted (d : AccessedFile) : List String :=
  if d.keyStrings.any srpmKey then [] else d.keyStrings

/-- A record is counted as its download is, if it passes the filters. -/
theorem countedKeys_eq (lib : Library) (access : Access) :
    countedKeys lib access = (download lib access).elim [] AccessedFile.counted := by
  unfold countedKeys download passes
  rw [urlToKeyStrings_eq]
  by_cases missing : access.status = "404"
  · simp [missing]
  · by_cases mock : startswith access.userAgent "Mock" = true
    · simp [missing, mock]
    · by_cases bot : spiderRegex access.userAgent = true
      · simp [missing, mock, bot]
      · by_cases twice : lib.unquote access.uriStem = lib.unquote (lib.unquote access.uriStem)
        · have filters : (decide (access.status ≠ "404") && !startswith access.userAgent "Mock" &&
              !spiderRegex access.userAgent && decide (lib.unquote access.uriStem =
                lib.unquote (lib.unquote access.uriStem))) = true := by
            rw [← twice]
            simp [missing, mock, bot]
          rw [if_neg missing, if_neg mock, if_neg bot, if_neg (not_not_intro twice), if_pos filters]
          cases urlDownload (lib.unquote access.uriStem) <;> rfl
        · simp [missing, mock, bot, twice]

/-! ## Keys -/

/-- A key begins with its first part. -/
theorem toList_join_cons (part next : String) (parts : List String) :
    (join (part :: next :: parts)).toList =
      part.toList ++ '|' :: (join (next :: parts)).toList := by
  rw [join, join, String.intercalate_cons_cons, String.toList_append, String.toList_append,
    List.append_assoc]
  rfl

/-- A key has at least as many pieces as parts. -/
theorem length_le_split_join (parts : List String) :
    parts.length ≤ (split (join parts) '|').length := by
  rw [split, length_splitOn]
  induction parts with
  | nil => exact Nat.zero_le _
  | cons part parts ih =>
    cases parts with
    | nil => exact Nat.le_add_left 1 _
    | cons next parts =>
      rw [toList_join_cons, List.count_append, List.count_cons_self, List.length_cons]
      omega

/-- A key of parts without a bar has these parts as its pieces. -/
theorem split_join {parts : List String} (parts_ne : parts ≠ [])
    (plain : ∀ part ∈ parts, '|' ∉ part.toList) :
    split (join parts) '|' = parts.map String.toList := by
  rw [split, join, String.toList_intercalate]
  refine List.splitOn_intercalate '|' ?_ (by simpa using parts_ne)
  intro piece listed
  obtain ⟨part, member, rfl⟩ := List.mem_map.mp listed
  exact plain part member

/-- Metadata is never that of an SRPM build for the filter. -/
theorem any_srpmKey_repomd (metadata : d.kind = .repomd) : d.keyStrings.any srpmKey = false := by
  rw [AccessedFile.keyStrings, metadata, List.any_cons, List.any_nil, Bool.or_false, srpmKey,
    startswith, toList_join_cons]
  rfl

/-- Of the keys of a package only that of the chroot is looked at. -/
theorem any_srpmKey_rpm (package : d.kind = .rpm) :
    d.keyStrings.any srpmKey = true ↔ "|srpm-builds".toList <:+
      (join ["chroot_rpms_dl_stat", d.groups.owner, d.groups.project, d.groups.chroot]).toList := by
  have project : startswith (join ["project_rpms_dl_stat", d.groups.owner, d.groups.project])
      "chroot_rpms_dl_stat|" = false := by
    rw [startswith, toList_join_cons]
    rfl
  have chroot : startswith (join ["chroot_rpms_dl_stat", d.groups.owner, d.groups.project,
      d.groups.chroot]) "chroot_rpms_dl_stat|" = true := by
    rw [startswith_iff, toList_join_cons]
    exact ⟨_, rfl⟩
  rw [AccessedFile.keyStrings, package, List.any_cons, List.any_cons, List.any_nil, srpmKey,
    srpmKey, project, chroot, Bool.true_and, Bool.false_and, Bool.or_false, Bool.or_false,
    endswith, List.isSuffixOf_iff_suffix]

/-- The key of a chroot ends with its name. -/
theorem toList_chrootKey (kind owner project chroot : String) :
    (join [kind, owner, project, chroot]).toList =
      (kind.toList ++ '|' :: (owner.toList ++ '|' :: project.toList)) ++ '|' :: chroot.toList := by
  rw [toList_join_cons, toList_join_cons, toList_join_cons, join, String.intercalate_singleton]
  simp only [List.append_assoc, List.cons_append]

/-- A package under `srpm-builds` is skipped. -/
theorem any_srpmKey_of_srpmBuilds (package : d.kind = .rpm) (srpm : d.ofSrpmBuilds = true) :
    d.keyStrings.any srpmKey = true := by
  rw [any_srpmKey_rpm package, toList_chrootKey, of_decide_eq_true srpm]
  exact List.suffix_append _ _

/-- No other package without a bar in its names is skipped. -/
theorem srpmBuilds_of_any_srpmKey (package : d.kind = .rpm) (plain : d.Plain)
    (skipped : d.keyStrings.any srpmKey = true) : d.ofSrpmBuilds = true := by
  rw [any_srpmKey_rpm package, toList_chrootKey] at skipped
  obtain ⟨before, same⟩ := skipped
  have reversed := congrArg List.reverse same
  rw [show "|srpm-builds".toList = '|' :: "srpm-builds".toList from rfl, List.reverse_append,
    List.reverse_append, List.reverse_cons, List.reverse_cons, List.append_assoc, List.append_assoc,
    List.singleton_append, List.singleton_append] at reversed
  have chroot := (around_separator (by decide) (by rw [List.mem_reverse]; exact plain.2.2)
    reversed).1
  exact decide_eq_true (String.toList_inj.mp (List.reverse_inj.mp chroot.symm))

/-- What is not under `srpm-builds` is counted, if its names have no bars. -/
theorem counted_of_plain (plain : d.Plain) (other : d.ofSrpmBuilds = false) :
    d.counted = d.keyStrings := by
  refine if_neg fun skipped => ?_
  cases found : d.kind with
  | repomd =>
    rw [any_srpmKey_repomd found] at skipped
    contradiction
  | rpm =>
    rw [srpmBuilds_of_any_srpmKey found plain skipped] at other
    contradiction

/-- Packages under `srpm-builds` are not counted. -/
theorem counted_srpm (package : d.kind = .rpm) (srpm : d.ofSrpmBuilds = true) : d.counted = [] :=
  if_pos (any_srpmKey_of_srpmBuilds package srpm)

/-- Metadata is counted wherever it is. -/
theorem counted_metadata (metadata : d.kind = .repomd) : d.counted = d.keyStrings := by
  rw [AccessedFile.counted, any_srpmKey_repomd metadata]
  rfl

/-- The keys of the records are those of the downloads. -/
theorem flatMap_countedKeys (lib : Library) (accesses : List Access) :
    accesses.flatMap (countedKeys lib) =
      (accesses.filterMap (download lib)).flatMap AccessedFile.counted := by
  induction accesses with
  | nil => rfl
  | cons access accesses ih =>
    rw [List.flatMap_cons, countedKeys_eq, ih]
    cases found : download lib access with
    | none => rw [List.filterMap_cons_none found, Option.elim_none, List.nil_append]
    | some d => rw [List.filterMap_cons_some found, List.flatMap_cons, Option.elim_some]

/-! ## The report counts each record -/

/-- The hits in the report. -/
def sentHits (lib : Library) (accesses : List Access) : List (String × Nat) :=
  ((getHitData lib accesses).getD none).elim [] HitData.hits

/-- The loop counts the keys of the records. -/
theorem foldlM_countAccess {counted result : List (String × Nat) × List Int}
    (done : accesses.foldlM (countAccess lib) counted = some result) :
    result.1 = (accesses.flatMap (countedKeys lib)).foldl (fun hits key => bump key hits)
      counted.1 := by
  induction accesses generalizing counted with
  | nil =>
    obtain rfl := Option.some.inj done
    rfl
  | cons access accesses ih =>
    rw [List.foldlM_cons] at done
    obtain ⟨next, one, rest⟩ := Option.bind_eq_some_iff.mp done
    rw [ih rest, List.flatMap_cons, List.foldl_append]
    unfold countAccess at one
    split at one
    · rename_i skipped
      obtain rfl := Option.some.inj one
      rw [skipped]
      rfl
    · rename_i key keys here
      obtain ⟨timestamp, _, rfl⟩ := Option.map_eq_some_iff.mp one
      rw [here]

/-- Unless an exception is raised, the report has the tally of the keys of the records. -/
theorem sentHits_eq {result : Option HitData} (done : getHitData lib accesses = some result) :
    sentHits lib accesses =
      tally ((accesses.filterMap (download lib)).flatMap AccessedFile.counted) := by
  rw [sentHits, done, Option.getD_some, ← flatMap_countedKeys]
  obtain ⟨counted, looped, rfl⟩ := Option.map_eq_some_iff.mp done
  have hits := foldlM_countAccess looped
  split
  · rename_i empty
    rw [List.isEmpty_iff.mp empty] at hits
    exact hits
  · exact hits

end Copr.HitCounter
