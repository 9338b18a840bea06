import Copr.Lib.Variables
import Copr.Frontend.BuildConfigs

/-!
# Where repository URLs point to

`pre_process_repo_url` reads from the text of a URL which directory it names, or drops the priority
from it, and then fills in the chroot. What a URL says is its address; addresses that say something
else lead to different places, unless a text or a name plays with the variables.
-/

namespace Copr.BuildConfigLogic

/-- The runs of letters and digits of ASCII. -/
def alnumRuns (text : String) : List (List Char) := Tokens.runs Char.isAlphanum text.toList

/-! ## Addresses -/

/-- What a repository URL says, before the chroot is known. -/
inductive RepoAddress
  /-- `copr://owner/dirname`. -/
  | project (owner dirname : String)
  /-- Any other URL, without its priority. -/
  | url (text : String)
  deriving DecidableEq, Repr

/-- The address that is read from a URL; `none` when that raises an exception. -/
def repoAddress (lib : UrlLibrary) (repoUrl : String) : Option RepoAddress := do
  let parsed ← lib.urlparse repoUrl
  if parsed.scheme = "copr" then
    ((Text.split parsed.path '/')[1]?).map fun prj => .project parsed.netloc (String.ofList prj)
  else if (lib.parseQs parsed.query).any fun entry => entry.1 == "priority" then
    some (.url (lib.urlunparse
      { parsed with
        query := lib.urlencode
          ((lib.parseQs parsed.query).filter fun entry => entry.1 != "priority") }))
  else some (.url repoUrl)

section Places

variable (view : FrontendView) (chroot : String)

/-- The URL of the results of a directory, also of one that does not exist. -/
def dirUrl (owner dirname : String) : String :=
  (view.dirRepoUrl owner dirname).getD
    ("/".intercalate [view.backendBaseUrl, "results", owner, dirname])

/-- The URL of an address, with the variables in it. -/
def RepoAddress.text : RepoAddress → String
  | .project owner dirname => dirUrl view owner dirname ++ "/" ++ chroot ++ "/"
  | .url text => text

/-- The variables of repository URLs. -/
inductive RepoVariable
  /-- `$chroot`. -/
  | chroot
  /-- `$distname`. -/
  | distname
  deriving DecidableEq, Repr

/-- What stands behind the dollar sign. -/
def RepoVariable.name : RepoVariable → List Char
  | .chroot => "chroot".toList
  | .distname => "distname".toList

/-- What is written for a variable. -/
def RepoVariable.value : RepoVariable → List Char
  | .chroot => chroot.toList
  | .distname => (BuildConfigLogic.distname chroot).toList

/-- The text with the variables filled in. -/
def writeOut (text : String) : String :=
  Text.replace (Text.replace text "$chroot" chroot) "$distname" (distname chroot)

/-- Every dollar sign of a text begins a variable. -/
def WithVariables (text : String) : Prop :=
  ∃ pieces, Variables.Marked '$' pieces ∧
    Variables.source '$' RepoVariable.name pieces = text.toList

/-- The name of the chroot has no dollar sign, and what is written for a variable begins with a
letter or a digit and cannot be confused with the name of the variable. -/
structure OrdinaryChroot : Prop where
  /-- There is no dollar sign. -/
  unmarked : '$' ∉ chroot.toList
  /-- A letter or a digit stands in front. -/
  begins : ∀ v, ∃ first ∈ (RepoVariable.value chroot v).head?, first.isAlphanum = true
  /-- The value is no beginning of the name, and the name no beginning of the value. -/
  differs : ∀ v, ¬RepoVariable.value chroot v <+: RepoVariable.name v ∧
    ¬RepoVariable.name v <+: RepoVariable.value chroot v

/-- Two addresses lead to the same place only if they are the same: directories whose URLs have no
dollar sign, and texts of the same words whose dollar signs begin variables. -/
def Clear : RepoAddress → RepoAddress → Prop
  | .project owner dirname, .project owner' dirname' =>
    '$' ∉ ((RepoAddress.project owner dirname).text view chroot).toList ∧
      '$' ∉ ((RepoAddress.project owner' dirname').text view chroot).toList
  | .url text, .url text' =>
    OrdinaryChroot chroot ∧ WithVariables text ∧ WithVariables text' ∧
      alnumRuns text = alnumRuns text'
  | _, _ => False

/-- Two addresses are the same, or they are not clear and their texts come out the same. -/
def SamePlace (a b : RepoAddress) : Prop :=
  a = b ∨ (¬Clear view chroot a b ∧
    writeOut chroot (a.text view chroot) = writeOut chroot (b.text view chroot))

end Places

example : OrdinaryChroot "fedora-41-x86_64" where
  unmarked := by decide
  begins v := by
    cases v with
    | chroot => exact ⟨'f', by decide, by decide⟩
    | distname => exact ⟨'f', by decide, by decide⟩
  differs v := by
    cases v with
    | chroot => decide
    | distname => decide

section Reading

variable {lib : UrlLibrary} {view : FrontendView} {chroot url text : String} {a b : RepoAddress}

/-- `pre_process_repo_url` fills the variables into the URL of the address. -/
theorem preProcessRepoUrl_eq :
    preProcessRepoUrl lib view chroot url =
      (repoAddress lib url).map fun a => writeOut chroot (a.text view chroot) := by
  unfold preProcessRepoUrl repoAddress
  cases lib.urlparse url with
  | none => rfl
  | some parsed =>
    simp only [Option.bind_eq_bind, Option.bind_some]
    by_cases copr : parsed.scheme = "copr"
    · rw [if_pos copr, if_pos copr]
      cases (Text.split parsed.path '/')[1]? with
      | none => rfl
      | some prj =>
        simp only [Option.map_some, Option.bind_some, RepoAddress.text, dirUrl]
        cases view.dirRepoUrl parsed.netloc (String.ofList prj) with
        | some found => rfl
        | none =>
          refine congrArg (fun text => some (writeOut chroot text)) ?_
          simp [String.intercalate_cons_cons, String.append_assoc]
    · rw [if_neg copr, if_neg copr]
      split
      · rfl
      · rfl

/-- The owner and the name in an address have no slash. -/
theorem slash_of_repoAddress {owner dirname : String}
    (read : repoAddress lib url = some (.project owner dirname)) :
    '/' ∉ owner.toList ∧ '/' ∉ dirname.toList := by
  have ⟨parsed, parse, rest⟩ := Option.bind_eq_some_iff.mp read
  split at rest
  · have ⟨prj, piece, same⟩ := Option.map_eq_some_iff.mp rest
    cases same
    refine ⟨lib.netloc_slash url parsed parse, ?_⟩
    rw [String.toList_ofList]
    exact Text.not_mem_piece (List.mem_of_getElem? piece)
  · split at rest
    · cases rest
    · cases rest

/-- The URL of a directory ends with its owner and its name. -/
theorem repoUrl_ends (storage : StorageEnum) (fullName : String) :
    ∃ stem, (view.repoUrl storage fullName).toList = stem ++ '/' :: fullName.toList := by
  unfold FrontendView.repoUrl
  split
  · exact ⟨view.pulpContentUrl.toList.rdropWhile (· = '/'), by
      simp [String.intercalate_cons_cons]⟩
  · exact ⟨view.backendBaseUrl.toList ++ '/' :: "results".toList, by
      simp [String.intercalate_cons_cons]⟩

/-- The URL of a directory ends with its owner and its name, also if it does not exist. -/
theorem dirUrl_ends (owner dirname : String) :
    ∃ stem, (dirUrl view owner dirname).toList =
      stem ++ '/' :: (owner.toList ++ '/' :: dirname.toList) := by
  unfold dirUrl FrontendView.dirRepoUrl
  cases view.dirStorage owner dirname with
  | some storage =>
    have ⟨stem, whole⟩ := @repoUrl_ends view storage (owner ++ "/" ++ dirname)
    exact ⟨stem, by simpa using whole⟩
  | none =>
    exact ⟨view.backendBaseUrl.toList ++ '/' :: "results".toList, by
      simp [String.intercalate_cons_cons]⟩

/-- Paths with the same end and the same last two names in front of it. -/
theorem last_names_eq {stem stem' owner owner' name name' tail : List Char}
    (owners : '/' ∉ owner ∧ '/' ∉ owner') (names : '/' ∉ name ∧ '/' ∉ name')
    (same : stem ++ '/' :: (owner ++ '/' :: name) ++ tail =
      stem' ++ '/' :: (owner' ++ '/' :: name') ++ tail) : owner = owner' ∧ name = name' := by
  have fronts := congrArg List.reverse (List.append_cancel_right same)
  simp only [List.reverse_append, List.reverse_cons, List.append_assoc, List.singleton_append]
    at fronts
  have ⟨lastNames, rest⟩ := Text.around_separator (by simpa using names.1)
    (by simpa using names.2) fronts
  have ⟨lastOwners, _⟩ := Text.around_separator (by simpa using owners.1)
    (by simpa using owners.2) rest
  exact ⟨List.reverse_injective lastOwners, List.reverse_injective lastNames⟩

/-- A text without a dollar sign has no variables. -/
theorem writeOut_eq_self (unmarked : '$' ∉ text.toList) : writeOut chroot text = text := by
  have names : "$chroot".toList = '$' :: RepoVariable.name .chroot ∧
      "$distname".toList = '$' :: RepoVariable.name .distname := by decide
  unfold writeOut Text.replace
  rw [names.1, names.2, Variables.replaceFrom_eq_self unmarked, String.ofList_toList,
    Variables.replaceFrom_eq_self unmarked, String.ofList_toList]

/-- No name of a variable is the beginning of another one. -/
theorem RepoVariable.apart : ∀ v w : RepoVariable, v.name <+: w.name → v = w := by
  intro v w
  cases v with
  | chroot => cases w with
    | chroot => exact fun _ => rfl
    | distname => exact fun front => absurd front (by decide)
  | distname => cases w with
    | chroot => exact fun front => absurd front (by decide)
    | distname => exact fun _ => rfl

/-- The names of the variables are made of letters. -/
theorem RepoVariable.letters (v : RepoVariable) : ∀ c ∈ v.name, c.isAlphanum = true := by
  apply List.all_eq_true.mp
  cases v with
  | chroot => decide
  | distname => decide

/-- The variables of a text are filled in. -/
theorem writeOut_source {pieces : List (Variables.Piece RepoVariable)}
    (unmarked : '$' ∉ chroot.toList) (marked : Variables.Marked '$' pieces)
    (source : Variables.source '$' RepoVariable.name pieces = text.toList) :
    (writeOut chroot text).toList = Variables.written (RepoVariable.value chroot) pieces := by
  have names : "$chroot".toList = '$' :: RepoVariable.name .chroot ∧
      "$distname".toList = '$' :: RepoVariable.name .distname := by decide
  have dollars : ∀ v : RepoVariable, '$' ∉ v.name := by
    intro v member
    exact absurd (v.letters '$' member) (by decide)
  unfold writeOut Text.replace
  rw [names.1, names.2, String.toList_ofList, String.toList_ofList, ← source,
    Variables.replaceFrom_source _ dollars RepoVariable.apart marked,
    Variables.replaceFrom_source _ dollars RepoVariable.apart (marked.settle unmarked)]
  exact Variables.source_settle_settle (RepoVariable.value chroot) (v := RepoVariable.chroot)
    (w := RepoVariable.distname) (by decide) fun u => by
      cases u with
      | chroot => exact Or.inl rfl
      | distname => exact Or.inr rfl

/-- Clear addresses that lead to the same place are the same. -/
theorem Clear.eq_of_same (clear : Clear view chroot a b)
    (read : ∃ u, repoAddress lib u = some a) (read' : ∃ v, repoAddress lib v = some b)
    (same : writeOut chroot (a.text view chroot) = writeOut chroot (b.text view chroot)) :
    a = b := by
  have ⟨u, ofU⟩ := read
  have ⟨v, ofV⟩ := read'
  cases a with
  | project owner dirname =>
    cases b with
    | project owner' dirname' =>
      have ⟨plain, plain'⟩ := clear
      rw [writeOut_eq_self plain, writeOut_eq_self plain'] at same
      have ⟨stem, ends⟩ := @dirUrl_ends view owner dirname
      have ⟨stem', ends'⟩ := @dirUrl_ends view owner' dirname'
      have letters := congrArg String.toList same
      simp only [RepoAddress.text, String.toList_append, ends, ends', List.append_assoc] at letters
      have ⟨free, freeName⟩ := slash_of_repoAddress ofU
      have ⟨free', freeName'⟩ := slash_of_repoAddress ofV
      have split : stem ++ '/' :: (owner.toList ++ '/' :: dirname.toList) ++
          ("/".toList ++ (chroot.toList ++ "/".toList)) =
          stem' ++ '/' :: (owner'.toList ++ '/' :: dirname'.toList) ++
            ("/".toList ++ (chroot.toList ++ "/".toList)) := by
        simpa using letters
      have ⟨owners, names⟩ := last_names_eq ⟨free, free'⟩ ⟨freeName, freeName'⟩ split
      rw [String.toList_inj.mp owners, String.toList_inj.mp names]
    | url text => exact clear.elim
  | url text =>
    cases b with
    | project owner dirname => exact clear.elim
    | url text' =>
      have ⟨ordinary, ⟨pieces, marked, source⟩, ⟨others, marked', source'⟩, words⟩ := clear
      have letters := congrArg String.toList same
      simp only [RepoAddress.text] at letters
      rw [writeOut_source ordinary.unmarked marked source,
        writeOut_source ordinary.unmarked marked' source'] at letters
      rw [alnumRuns, alnumRuns, ← source, ← source'] at words
      have equal : pieces = others := Variables.written_injective (by decide)
        RepoVariable.letters RepoVariable.apart ordinary.begins ordinary.differs words letters
      rw [String.toList_inj.mp (source.symm.trans (equal ▸ source'))]

/-- Two URLs are expanded to the same exactly when their addresses lead to the same place. -/
theorem samePlace_iff (read : ∃ u, repoAddress lib u = some a)
    (read' : ∃ v, repoAddress lib v = some b) :
    writeOut chroot (a.text view chroot) = writeOut chroot (b.text view chroot) ↔
      SamePlace view chroot a b := by
  constructor
  · intro same
    by_cases clear : Clear view chroot a b
    · exact Or.inl (clear.eq_of_same read read' same)
    · exact Or.inr ⟨clear, same⟩
  · intro place
    rcases place with equal | ⟨_, same⟩
    · rw [equal]
    · exact same

end Reading

/-! ## The project's own repositories -/

section Own

variable (view : FrontendView) (coprdir : BuildDir) (chroot : String)

/-- The directory of the project whose repository has the id. -/
def ownDirectory (id : String) : Option RepoAddress :=
  if id = "copr_base" then some (.project coprdir.copr.ownerName coprdir.copr.name)
  else if id = "copr_coprdir" then some (.project coprdir.copr.ownerName coprdir.name)
  else none

/-- The address is the one of a directory, and no name plays with slashes or variables. -/
def ClearOwn (a : RepoAddress) : Prop :=
  (∃ owner dirname, a = .project owner dirname) ∧ '$' ∉ (a.text view chroot).toList ∧
    '/' ∉ chroot.toList ∧ chroot ≠ "devel" ∧ '/' ∉ coprdir.copr.ownerName.toList ∧
      '/' ∉ coprdir.copr.name.toList ∧ '/' ∉ coprdir.name.toList

/-- The address names the directory whose repository it is, and that is found where the project has
its results, or the names are not clear and the texts come out the same. -/
def OwnPlace (own : RepoView) (a : RepoAddress) : Prop :=
  (ClearOwn view coprdir chroot a ∧ ∃ dirname,
      ownDirectory coprdir own.id = some (.project coprdir.copr.ownerName dirname) ∧
        a = .project coprdir.copr.ownerName dirname ∧
        dirUrl view coprdir.copr.ownerName dirname =
          view.repoUrl coprdir.copr.storage (coprdir.copr.ownerName ++ "/" ++ dirname)) ∨
    (¬ClearOwn view coprdir chroot a ∧ writeOut chroot (a.text view chroot) = own.baseurl)

variable {view coprdir chroot} {lib : UrlLibrary} {own : RepoView} {a : RepoAddress}

/-- An own repository is the one of a directory, or the one for building, which lies elsewhere. -/
theorem ownRepos_cases (member : own ∈ ownRepos view coprdir chroot) :
    (∃ dirname, (dirname = coprdir.copr.name ∨ dirname = coprdir.name) ∧
      ownDirectory coprdir own.id = some (.project coprdir.copr.ownerName dirname) ∧
      own.baseurl = view.repoUrl coprdir.copr.storage
        (coprdir.copr.ownerName ++ "/" ++ dirname) ++ "/" ++ chroot ++ "/") ∨
    (ownDirectory coprdir own.id = none ∧ ∃ suffix, (suffix = "-devel" ∨ suffix = "/devel") ∧
      own.baseurl = view.repoUrl coprdir.copr.storage coprdir.copr.fullName ++ "/" ++ chroot ++
        suffix ++ "/") := by
  simp only [ownRepos, List.append_assoc, List.mem_append, List.mem_singleton] at member
  rcases member with base | devel | dir
  · left
    rw [base]
    exact ⟨coprdir.copr.name, Or.inl rfl, rfl, rfl⟩
  · right
    split at devel
    · contradiction
    · rw [List.mem_singleton.mp devel]
      refine ⟨by simp [ownDirectory], _, ?_, rfl⟩
      split
      · exact Or.inl rfl
      · exact Or.inr rfl
  · left
    split at dir
    · contradiction
    · rw [List.mem_singleton.mp dir]
      exact ⟨coprdir.name, Or.inr rfl, rfl, rfl⟩

/-- A path ends with its last name. -/
theorem last_name_eq {stem stem' name name' : List Char} (free : '/' ∉ name) (free' : '/' ∉ name')
    (same : stem ++ '/' :: name ++ ['/'] = stem' ++ '/' :: name' ++ ['/']) : name = name' := by
  have fronts := congrArg List.reverse (List.append_cancel_right same)
  simp only [List.reverse_append, List.reverse_cons, List.append_assoc, List.singleton_append]
    at fronts
  have ⟨lastNames, _⟩ := Text.around_separator (by simpa using free) (by simpa using free') fronts
  exact List.reverse_injective lastNames

/-- The repository for building is none of a directory. -/
theorem not_devel {owner dirname suffix : String} (free : '/' ∉ chroot.toList)
    (chroot_ne : chroot ≠ "devel") (either : suffix = "-devel" ∨ suffix = "/devel") (url : String) :
    (RepoAddress.project owner dirname).text view chroot ≠
      url ++ "/" ++ chroot ++ suffix ++ "/" := by
  intro same
  have letters := congrArg String.toList same
  simp only [RepoAddress.text, String.toList_append] at letters
  rcases either with dash | slash
  · have suffixed : '/' ∉ (chroot.toList ++ suffix.toList) := by
      rw [dash, List.mem_append, not_or]
      exact ⟨free, by decide⟩
    have split : (dirUrl view owner dirname).toList ++ '/' :: chroot.toList ++ ['/'] =
        url.toList ++ '/' :: (chroot.toList ++ suffix.toList) ++ ['/'] := by
      simpa using letters
    have names := last_name_eq free suffixed split
    have short := congrArg List.length names
    rw [dash, List.length_append] at short
    have length : "-devel".toList.length = 6 := by decide
    omega
  · have split : (dirUrl view owner dirname).toList ++ '/' :: chroot.toList ++ ['/'] =
        url.toList ++ '/' :: chroot.toList ++ '/' :: "devel".toList ++ ['/'] := by
      simpa [slash] using letters
    have names := last_name_eq free (by decide) split
    exact chroot_ne (String.toList_inj.mp names)

/-- A URL is expanded to the base URL of an own repository exactly when it names its place. -/
theorem ownPlace_iff (read : ∃ u, repoAddress lib u = some a)
    (member : own ∈ ownRepos view coprdir chroot) :
    writeOut chroot (a.text view chroot) = own.baseurl ↔ OwnPlace view coprdir chroot own a := by
  by_cases clear : ClearOwn view coprdir chroot a
  · have ⟨⟨owner, dirname, named⟩, unmarked, free, chroot_ne, freeOwner, freeName, freeDir⟩ := clear
    have ⟨u, ofU⟩ := read
    rw [named] at ofU
    have ⟨noSlash, noSlashName⟩ := slash_of_repoAddress ofU
    rw [writeOut_eq_self unmarked, named]
    rw [named] at clear
    constructor
    · intro same
      left
      refine ⟨clear, ?_⟩
      rcases ownRepos_cases member with ⟨name, which, directory, url⟩ | ⟨_, suffix, either, url⟩
      · rw [url] at same
        have freeOwn : '/' ∉ name.toList := by
          rcases which with main | other
          · rw [main]
            exact freeName
          · rw [other]
            exact freeDir
        simp only [RepoAddress.text, String.append_left_inj] at same
        have ⟨stem, ends⟩ := @dirUrl_ends view owner dirname
        have ⟨stem', ends'⟩ := @repoUrl_ends view coprdir.copr.storage
          (coprdir.copr.ownerName ++ "/" ++ name)
        have letters := congrArg String.toList same
        rw [ends, ends'] at letters
        have split : stem ++ '/' :: (owner.toList ++ '/' :: dirname.toList) ++ [] =
            stem' ++ '/' :: (coprdir.copr.ownerName.toList ++ '/' :: name.toList) ++ [] := by
          simpa using letters
        have ⟨owners, names⟩ := last_names_eq ⟨noSlash, freeOwner⟩ ⟨noSlashName, freeOwn⟩ split
        rw [String.toList_inj.mp owners, String.toList_inj.mp names] at same ⊢
        exact ⟨name, directory, rfl, same⟩
      · rw [url] at same
        exact absurd same (not_devel free chroot_ne either _)
    · intro place
      rcases place with ⟨_, name, directory, address, stored⟩ | ⟨unclear, _⟩
      · rcases ownRepos_cases member with ⟨name', _, directory', url⟩ | ⟨none_, _⟩
        · rw [directory', Option.some_inj, RepoAddress.project.injEq] at directory
          rw [address, url, RepoAddress.text, stored, directory.2]
        · rw [none_] at directory
          contradiction
      · exact absurd clear unclear
  · constructor
    · intro same
      exact Or.inr ⟨clear, same⟩
    · intro place
      rcases place with ⟨clear', _⟩ | ⟨_, same⟩
      · exact absurd clear' clear
      · exact same

end Own

end Copr.BuildConfigLogic
