import Mathlib.Data.List.Count
import Copr.Frontend.CounterStats

/-!
# Downloads are counted once

When the report of `update_frontend` has got through, each counter should have grown by the number
of accepted downloads that belong to it, and that of a project as much as those of its chroots. It
has when only the attempt that was answered has added to the counters, and the keys
in the report are read as they were meant.
-/

namespace Copr.CounterStats

open Text Tallies HitCounter

/-! ## Each download is counted once -/

/-- The counter of a chroot for its packages. -/
def chrootCounter (d : AccessedFile) : String :=
  chrootRpmsDlStatFmt d.groups.owner d.groups.project d.groups.chroot

/-- The counter of a project for its packages. -/
def projectCounter (d : AccessedFile) : String :=
  projectRpmsDlStatFmt d.groups.owner d.groups.project

/-- The counters that a download belongs to. -/
def counterNames (d : AccessedFile) : List String :=
  match d.kind with
  | .repomd => [chrootRepoMdDlStatFmt d.groups.owner d.groups.project d.groups.chroot]
  | .rpm => [chrootCounter d, projectCounter d]

/-- The accepted downloads of packages. -/
def packages (lib : Library) (accesses : List Access) : List AccessedFile :=
  (accepted lib accesses).filter fun d => d.kind = .rpm

/-- The counters of the chroots of a project, for the accepted packages. -/
def chrootCounters (lib : Library) (accesses : List Access) (project : String) : List String :=
  (((packages lib accesses).filter fun d => projectCounter d = project).map chrootCounter).dedup

/-- How much a counter has grown, besides what other reports have added. -/
def growth (counters : Counters) (events : List Event) (s : System) (name : String) : Nat :=
  s.counters.value name - (counters.value name + addedByOthers events name)

/-- The number of accepted downloads that belong to a counter. -/
def belonging (lib : Library) (accesses : List Access) (name : String) : Nat :=
  (accepted lib accesses).countP fun d => name ∈ counterNames d

/-- Every counter has grown by the number of accepted downloads that belong to it, and that of each
project as much as those of its chroots. -/
structure CountedOnce (lib : Library) (accesses : List Access) (counters : Counters)
    (events : List Event) (s : System) : Prop where
  /-- Every counter. -/
  grown : ∀ name, s.counters.value name =
    counters.value name + addedByOthers events name + belonging lib accesses name
  /-- Projects and their chroots. -/
  sums : ∀ d ∈ packages lib accesses, growth counters events s (projectCounter d) =
    ((chrootCounters lib accesses (projectCounter d)).map (growth counters events s)).sum

/-- Only the attempt that was answered has committed a counter, and the URLs are such that
their keys are read as they were meant. -/
structure Faultless (lib : Library) (accesses : List Access) (events : List Event) : Prop where
  /-- An attempt that commits a counter is answered. -/
  attempts : ∀ i, .commit i ∈ events → .answer i ∈ events
  /-- No name in an accepted URL has a bar in it. -/
  plain : ∀ d ∈ accepted lib accesses, d.Plain
  /-- No repository metadata under `srpm-builds` passes the filters. -/
  metadata : ∀ d ∈ accesses.filterMap (download lib), d.srpmMetadata = false
  /-- A counter of a chroot is that of one project. -/
  apart : ∀ d ∈ packages lib accesses, ∀ other ∈ packages lib accesses,
    chrootCounter d = chrootCounter other → projectCounter d = projectCounter other

/-! ## Keys are read as they were meant -/

variable {d : AccessedFile}

/-- A key with a known type is read as the rest says. -/
theorem readKey_join (statType : CounterStatType) {typeKey next : String} {parts : List String}
    (plain : '|' ∉ typeKey.toList)
    (known : (statTypes.find? fun statType => statType.value == rstripStat typeKey.toList) =
      some statType) :
    readKey (join (typeKey :: next :: parts)) =
      (getStatName statType (join (next :: parts))).map fun name => (statType, name) := by
  rw [readKey, toList_join_cons, cut_append plain, Option.bind_some, known, Option.bind_some,
    String.ofList_toList]

/-- The names in a key of parts without a bar are the parts. -/
theorem getStatName_join {statType : CounterStatType} {user project : String}
    {chroot : List String} (plain : ∀ part ∈ user :: project :: chroot, '|' ∉ part.toList) :
    getStatName statType (join (user :: project :: chroot)) =
      statFmt user project chroot[0]? statType := by
  have keys : (split (join (user :: project :: chroot)) '|').map String.ofList =
      user :: project :: chroot := by
    rw [split_join (List.cons_ne_nil _ _) plain, List.map_map]
    exact (List.map_congr_left fun _ _ => String.ofList_toList).trans (List.map_id _)
  rw [getStatName, keys]
  rfl

/-- Without bars each key is read as the counter that it is meant for. -/
theorem map_readKey (plain : d.Plain) :
    d.keyStrings.map (fun key => (readKey key).map Prod.snd) = (counterNames d).map some := by
  obtain ⟨owner, project, chroot⟩ := plain
  have three : ∀ part ∈ [d.groups.owner, d.groups.project, d.groups.chroot], '|' ∉ part.toList :=
    List.forall_mem_cons.mpr ⟨owner, List.forall_mem_cons.mpr ⟨project,
      List.forall_mem_singleton.mpr chroot⟩⟩
  have two : ∀ part ∈ [d.groups.owner, d.groups.project], '|' ∉ part.toList :=
    List.forall_mem_cons.mpr ⟨owner, List.forall_mem_singleton.mpr project⟩
  unfold AccessedFile.keyStrings counterNames
  cases d.kind with
  | repomd =>
    rw [List.map_singleton, readKey_join .chrootRepoMdDl (by decide) (by decide),
      getStatName_join three]
    rfl
  | rpm =>
    rw [List.map_cons, List.map_singleton,
      readKey_join .chrootRpmsDl (by decide) (by decide),
      readKey_join .projectRpmsDl (by decide) (by decide),
      getStatName_join three, getStatName_join two]
    rfl

/-- A name is made of a key with enough parts. -/
theorem getStatName_isSome (statType : CounterStatType) (parts : List String)
    (two : 2 ≤ parts.length) (three : statType ≠ .projectRpmsDl → 3 ≤ parts.length)
    (other : statType ≠ .repoDl) : ∃ name, getStatName statType (join parts) = some name := by
  have pieces : ∀ i, i < parts.length →
      ∃ piece, ((split (join parts) '|').map String.ofList)[i]? = some piece := by
    intro i inside
    have enough : i < ((split (join parts) '|').map String.ofList).length := by
      rw [List.length_map]
      exact inside.trans_le (length_le_split_join parts)
    exact ⟨_, List.getElem?_eq_getElem enough⟩
  obtain ⟨user, first⟩ := pieces 0 (by omega)
  obtain ⟨project, second⟩ := pieces 1 (by omega)
  rw [getStatName, first, second, Option.bind_some, Option.bind_some]
  cases statType with
  | repoDl => contradiction
  | projectRpmsDl => exact ⟨_, rfl⟩
  | chrootRpmsDl | chrootRepoMdDl =>
    obtain ⟨chroot, third⟩ := pieces 2 (three (by decide))
    rw [third]
    exact ⟨_, rfl⟩

/-- Every key of a download is read as some counter. -/
theorem readKey_isSome {key : String} (member : key ∈ d.keyStrings) :
    ∃ counter, readKey key = some counter := by
  unfold AccessedFile.keyStrings at member
  cases found : d.kind with
  | repomd =>
    rw [found, List.mem_singleton] at member
    obtain ⟨name, named⟩ := getStatName_isSome .chrootRepoMdDl
      [d.groups.owner, d.groups.project, d.groups.chroot] (by simp) (by simp) (by decide)
    rw [member, readKey_join .chrootRepoMdDl (by decide) (by decide), named]
    exact ⟨_, rfl⟩
  | rpm =>
    rw [found] at member
    rcases List.mem_cons.mp member with rfl | later
    · obtain ⟨name, named⟩ := getStatName_isSome .chrootRpmsDl
        [d.groups.owner, d.groups.project, d.groups.chroot]
        (by simp) (by simp) (by decide)
      rw [readKey_join .chrootRpmsDl (by decide) (by decide), named]
      exact ⟨_, rfl⟩
    · obtain ⟨name, named⟩ := getStatName_isSome .projectRpmsDl
        [d.groups.owner, d.groups.project] (by simp) (by simp) (by decide)
      rw [List.mem_singleton.mp later,
        readKey_join .projectRpmsDl (by decide) (by decide), named]
      exact ⟨_, rfl⟩

/-- A name with a chroot has a character in it that is not in its fixed parts exactly when one of
the other parts has. -/
theorem mem_formatted {c : Char} {first user sign project colon chroot : String}
    (one : c ∉ first.toList) (two : c ∉ sign.toList) (three : c ∉ colon.toList) :
    c ∈ (first ++ user ++ sign ++ project ++ colon ++ chroot).toList ↔
      c ∈ user.toList ∨ c ∈ project.toList ∨ c ∈ chroot.toList := by
  simp only [String.toList_append, List.mem_append, one, two, three, false_or, or_false, or_assoc]

/-- A name with a chroot has a bar in it exactly when one of its parts has. -/
theorem bar_chrootRpms {user project chroot : String} :
    '|' ∈ (chrootRpmsDlStatFmt user project chroot).toList ↔
      '|' ∈ user.toList ∨ '|' ∈ project.toList ∨ '|' ∈ chroot.toList :=
  mem_formatted (by simp) (by simp) (by simp)

/-- The name of a metadata counter has a further bar exactly when one of its parts has one. -/
theorem bar_chrootRepoMd {user project chroot : String} :
    '|' ∈ (chrootRepoMdDlStatFmt user project chroot).toList ↔
      '|' ∈ user.toList ∨ '|' ∈ project.toList ∨ '|' ∈ chroot.toList :=
  mem_formatted (by simp) (by simp) (by simp)

/-- Without bars in its parts the name of a project has none. -/
theorem not_bar_projectRpms {user project : String} (one : '|' ∉ user.toList)
    (two : '|' ∉ project.toList) : '|' ∉ (projectRpmsDlStatFmt user project).toList := by
  have fixed : '|' ∉ "project_rpms_dl_stat:hset::".toList := by simp
  have sign : '|' ∉ "@".toList := by simp
  unfold projectRpmsDlStatFmt
  rw [String.toList_append, String.toList_append, String.toList_append]
  simp only [List.mem_append, not_or]
  exact ⟨⟨⟨fixed, one⟩, sign⟩, two⟩

/-- No name that is read from a key has a bar in it. -/
theorem not_bar_of_readKey {key : String} {counter : CounterStatType × String}
    (read : readKey key = some counter) : '|' ∉ counter.2.toList := by
  obtain ⟨parts, _, rest⟩ := Option.bind_eq_some_iff.mp read
  obtain ⟨statType, _, named⟩ := Option.bind_eq_some_iff.mp rest
  obtain ⟨name, formatted, rfl⟩ := Option.map_eq_some_iff.mp named
  obtain ⟨user, first, more⟩ := Option.bind_eq_some_iff.mp formatted
  obtain ⟨project, second, last⟩ := Option.bind_eq_some_iff.mp more
  have plain : ∀ {i : Nat} {piece : String}, ((split (String.ofList parts.2) '|').map
      String.ofList)[i]? = some piece → '|' ∉ piece.toList := by
    intro i piece listed
    obtain ⟨chars, member, rfl⟩ := List.mem_map.mp (List.mem_of_getElem? listed)
    rw [String.toList_ofList]
    exact not_mem_piece member
  cases statType with
  | repoDl => contradiction
  | projectRpmsDl =>
    obtain rfl := Option.some.inj last
    exact not_bar_projectRpms (plain first) (plain second)
  | chrootRpmsDl =>
    obtain ⟨chroot, third, rfl⟩ := Option.map_eq_some_iff.mp last
    rw [bar_chrootRpms, not_or, not_or]
    exact ⟨plain first, plain second, plain third⟩
  | chrootRepoMdDl =>
    obtain ⟨chroot, third, rfl⟩ := Option.map_eq_some_iff.mp last
    rw [bar_chrootRepoMd, not_or, not_or]
    exact ⟨plain first, plain second, plain third⟩

/-- A download with a bar in its names belongs to a counter with a bar in its name. -/
theorem bar_of_not_plain (bar : ¬ d.Plain) : ∃ name ∈ counterNames d, '|' ∈ name.toList := by
  have somewhere : '|' ∈ d.groups.owner.toList ∨ '|' ∈ d.groups.project.toList ∨
      '|' ∈ d.groups.chroot.toList := by
    by_contra nowhere
    rw [not_or, not_or] at nowhere
    exact bar nowhere
  unfold counterNames
  cases d.kind with
  | repomd => exact ⟨_, List.mem_singleton_self _, bar_chrootRepoMd.mpr somewhere⟩
  | rpm => exact ⟨_, List.mem_cons_self, bar_chrootRpms.mpr somewhere⟩

/-! ## Names of different kinds differ -/

/-- Texts with different beginnings differ. -/
theorem append_ne_append {first second : String} (one : ¬ first.toList <+: second.toList)
    (two : ¬ second.toList <+: first.toList) (rest more : String) :
    first ++ rest ≠ second ++ more := by
  intro same
  have chars := congrArg String.toList same
  rw [String.toList_append, String.toList_append] at chars
  have inFront : first.toList <+: second.toList ++ more.toList := chars ▸ List.prefix_append _ _
  rcases List.prefix_or_prefix_of_prefix inFront (List.prefix_append _ _) with shorter | longer
  · exact one shorter
  · exact two longer

/-- The counters of a project and of a chroot differ. -/
theorem projectCounter_ne_chrootCounter (d other : AccessedFile) :
    projectCounter d ≠ chrootCounter other := by
  unfold projectCounter chrootCounter projectRpmsDlStatFmt chrootRpmsDlStatFmt
  simp only [String.append_assoc]
  exact append_ne_append (by simp) (by simp) _ _

/-- The counters of a project and of metadata differ. -/
theorem projectCounter_ne_metadata (d : AccessedFile) (user project chroot : String) :
    projectCounter d ≠ chrootRepoMdDlStatFmt user project chroot := by
  unfold projectCounter projectRpmsDlStatFmt chrootRepoMdDlStatFmt
  simp only [String.append_assoc]
  exact append_ne_append (by simp) (by simp) _ _

/-- The counters of a chroot for packages and of metadata differ. -/
theorem chrootCounter_ne_metadata (d : AccessedFile) (user project chroot : String) :
    chrootCounter d ≠ chrootRepoMdDlStatFmt user project chroot := by
  unfold chrootCounter chrootRpmsDlStatFmt chrootRepoMdDlStatFmt
  simp only [String.append_assoc]
  exact append_ne_append (by simp) (by simp) _ _

/-- A download belongs to a counter once. -/
theorem counterNames_nodup (d : AccessedFile) : (counterNames d).Nodup := by
  unfold counterNames
  cases d.kind with
  | repomd => exact List.nodup_singleton _
  | rpm =>
    rw [List.nodup_cons, List.mem_singleton]
    exact ⟨(projectCounter_ne_chrootCounter d d).symm, List.nodup_singleton _⟩

/-- Only packages belong to the counter of a project. -/
theorem mem_counterNames_project (d other : AccessedFile) :
    projectCounter d ∈ counterNames other ↔
      other.kind = .rpm ∧ projectCounter other = projectCounter d := by
  unfold counterNames
  cases other.kind with
  | repomd =>
    rw [List.mem_singleton]
    exact iff_of_false (projectCounter_ne_metadata d _ _ _) fun both => nomatch both.1
  | rpm =>
    rw [List.mem_cons, List.mem_singleton, or_iff_right (projectCounter_ne_chrootCounter d other),
      eq_comm, and_iff_right rfl]

/-- Only packages belong to the counter of a chroot for packages. -/
theorem mem_counterNames_chroot (d other : AccessedFile) :
    chrootCounter d ∈ counterNames other ↔
      other.kind = .rpm ∧ chrootCounter other = chrootCounter d := by
  unfold counterNames
  cases other.kind with
  | repomd =>
    rw [List.mem_singleton]
    exact iff_of_false (chrootCounter_ne_metadata d _ _ _) fun both => nomatch both.1
  | rpm =>
    rw [List.mem_cons, List.mem_singleton,
      or_iff_left (projectCounter_ne_chrootCounter other d).symm, eq_comm, and_iff_right rfl]

/-! ## What the report counts -/

/-- How often a download is counted for a counter. -/
def countedFor (name : String) (d : AccessedFile) : Nat := d.counted.countP (namedFor name)

/-- How often it is to be counted. -/
def dueFor (name : String) (d : AccessedFile) : Nat :=
  if name ∈ counterNames d ∧ d.ofSrpmBuilds = false then 1 else 0

variable {lib : Library} {accesses : List Access} {counters : Counters} {events : List Event}
  {hits : List (String × Nat)} {s : System}

/-- The report has what is counted for each download. -/
theorem weight_sentHits {result : Option HitData} (done : getHitData lib accesses = some result)
    (name : String) : weight (namedFor name) (sentHits lib accesses) =
      ((accesses.filterMap (download lib)).map (countedFor name)).sum := by
  rw [sentHits_eq done, weight_tally, List.countP_flatMap]
  rfl

/-- The accepted downloads that belong to a counter are those that are due. -/
theorem belonging_eq (lib : Library) (accesses : List Access) (name : String) :
    belonging lib accesses name = ((accesses.filterMap (download lib)).map (dueFor name)).sum := by
  rw [belonging, accepted, List.countP_filter, countP_eq_sum]
  refine congrArg List.sum (List.map_congr_left fun d _ => ?_)
  rw [dueFor]
  simp

/-- Accepted downloads are those that pass the filters and are not under `srpm-builds`. -/
theorem mem_accepted : d ∈ accepted lib accesses ↔
    d ∈ accesses.filterMap (download lib) ∧ d.ofSrpmBuilds = false := by
  rw [accepted, List.mem_filter, Bool.not_eq_true']

/-- The keys of a download without bars are those of its counters. -/
theorem countP_keyStrings (plain : d.Plain) (name : String) :
    d.keyStrings.countP (namedFor name) = if name ∈ counterNames d then 1 else 0 := by
  have keys : d.keyStrings.countP (namedFor name) =
      ((counterNames d).map some).count (some name) := by
    rw [← map_readKey plain, List.count_eq_countP, List.countP_map]
    refine List.countP_congr fun key _ => ?_
    rw [namedFor, decide_eq_true_iff, Function.comp_apply, beq_iff_eq]
  rw [keys, List.count_map_of_injective _ _ fun _ _ same => Option.some.inj same,
    List.Nodup.count (counterNames_nodup d)]

/-- A download without bars is counted where it is due, and nowhere else unless it is metadata under
`srpm-builds`. -/
theorem dueFor_le (plain : d.ofSrpmBuilds = false → d.Plain) (name : String) :
    dueFor name d ≤ countedFor name d ∧
      (d.srpmMetadata = false → dueFor name d = countedFor name d) := by
  unfold dueFor countedFor
  cases srpm : d.ofSrpmBuilds with
  | false =>
    rw [counted_of_plain (plain srpm) srpm, countP_keyStrings (plain srpm)]
    simp
  | true =>
    simp only [Bool.true_eq_false, and_false, if_false, Nat.zero_le, true_and]
    intro package
    have kind : d.kind = .rpm := by
      cases found : d.kind with
      | rpm => rfl
      | repomd => rw [AccessedFile.srpmMetadata, srpm, found] at package; contradiction
    rw [counted_srpm kind srpm]
    rfl

/-- Metadata under `srpm-builds` is counted for a counter where it is not due. -/
theorem metadata_counted (metadata : d.srpmMetadata = true) :
    ∃ name, dueFor name d ≠ countedFor name d := by
  obtain ⟨kind, srpm⟩ := Bool.and_eq_true_iff.mp metadata
  have repomd := of_decide_eq_true kind
  have keys : d.keyStrings ≠ [] := by
    rw [AccessedFile.keyStrings, repomd]
    exact List.cons_ne_nil _ _
  obtain ⟨key, more, first⟩ := List.exists_cons_of_ne_nil keys
  have member : key ∈ d.keyStrings := first ▸ List.mem_cons_self
  obtain ⟨counter, read⟩ := readKey_isSome member
  refine ⟨counter.2, ?_⟩
  have positive : 0 < countedFor counter.2 d := by
    rw [countedFor, counted_metadata repomd, List.countP_pos_iff]
    refine ⟨key, member, ?_⟩
    rw [namedFor, read]
    exact decide_eq_true rfl
  rw [dueFor, srpm]
  simp only [Bool.true_eq_false, and_false, if_false]
  exact positive.ne

/-- No attempt adds to a counter with a bar in its name. -/
theorem delivered_bar (s : System) (hits : List (String × Nat)) {name : String}
    (bar : '|' ∈ name.toList) : s.delivered hits name = 0 := by
  refine List.sum_eq_zero fun value listed => ?_
  obtain ⟨h, _, rfl⟩ := List.mem_map.mp listed
  refine weight_eq_zero fun item _ => ?_
  refine decide_eq_false fun named => ?_
  obtain ⟨counter, read, rfl⟩ := Option.map_eq_some_iff.mp named
  exact not_bar_of_readKey read bar

/-! ## Projects and their chroots -/

/-- The counter of a project belongs to its packages. -/
theorem belonging_project (d : AccessedFile) : belonging lib accesses (projectCounter d) =
    (packages lib accesses).countP fun other => projectCounter other = projectCounter d := by
  rw [belonging, packages, List.countP_filter]
  refine List.countP_congr fun other _ => ?_
  rw [decide_eq_true_iff, mem_counterNames_project, Bool.and_eq_true, decide_eq_true_iff,
    decide_eq_true_iff, and_comm]

/-- The counter of a chroot belongs to its packages. -/
theorem belonging_chroot (d : AccessedFile) : belonging lib accesses (chrootCounter d) =
    ((packages lib accesses).map chrootCounter).count (chrootCounter d) := by
  rw [belonging, packages, List.count_eq_countP, List.countP_map, List.countP_filter]
  refine List.countP_congr fun other _ => ?_
  rw [decide_eq_true_iff, mem_counterNames_chroot, Bool.and_eq_true, Function.comp_apply,
    beq_iff_eq, decide_eq_true_iff, and_comm]

/-- Each project has as many packages as its chroots exactly when no counter of a chroot is that of
two projects. -/
theorem sums_iff (lib : Library) (accesses : List Access) :
    (∀ d ∈ packages lib accesses, belonging lib accesses (projectCounter d) =
        ((chrootCounters lib accesses (projectCounter d)).map (belonging lib accesses)).sum) ↔
      ∀ d ∈ packages lib accesses, ∀ other ∈ packages lib accesses,
        chrootCounter d = chrootCounter other → projectCounter d = projectCounter other := by
  have each : ∀ d : AccessedFile, belonging lib accesses (projectCounter d) =
        ((chrootCounters lib accesses (projectCounter d)).map (belonging lib accesses)).sum ↔
      ∀ x ∈ packages lib accesses, ∀ y ∈ packages lib accesses,
        projectCounter x = projectCounter d → chrootCounter x = chrootCounter y →
          projectCounter y = projectCounter d := by
    intro d
    have groups := sum_groups_eq_iff (packages lib accesses) chrootCounter
      fun other => decide (projectCounter other = projectCounter d)
    simp only [decide_eq_true_eq] at groups
    rw [← groups, belonging_project, eq_comm, chrootCounters]
    refine Eq.congr (congrArg List.sum (List.map_congr_left fun name listed => ?_)) rfl
    obtain ⟨other, _, rfl⟩ := List.mem_map.mp (List.mem_dedup.mp listed)
    exact belonging_chroot other
  constructor
  · intro sums d member other there same
    exact ((each d).mp (sums d member) d member other there rfl same).symm
  · intro apart d _
    exact (each d).mpr fun x here y there project same =>
      (apart x here y there same).symm.trans project

/-! ## Samples -/

/-- No URL of the samples has an encoded character. -/
def sampleLibrary : Library where
  unquote url := url
  timestamp text := if text = "2022-06-01 00:00:26" then some 1654041626 else none

/-- An access at the time of the samples. -/
def sampleAccess (uriStem status : String) : Access :=
  ⟨"2022-06-01", "00:00:26", uriStem, status, "dnf"⟩

/-- Two packages and one that is missing. -/
def sampleAccesses : List Access :=
  [sampleAccess "/results/ann/hi/fedora-40-x86_64/12-hi/hi.rpm" "200",
    sampleAccess "/results/ann/hi/fedora-39-x86_64/12-hi/hi.rpm" "200",
    sampleAccess "/results/ann/hi/fedora-38-x86_64/12-hi/hi.rpm" "404"]

/-- The accesses of the sample are two downloads of packages. -/
theorem sample_downloads : sampleAccesses.filterMap (download sampleLibrary) =
    [⟨.rpm, ⟨"ann", "hi", "fedora-40-x86_64"⟩⟩,
      ⟨.rpm, ⟨"ann", "hi", "fedora-39-x86_64"⟩⟩] := by decide +kernel

/-- The report of the sample counts both downloads for the project and one for each chroot. -/
theorem sample_report : getHitData sampleLibrary sampleAccesses =
    some (some ⟨1654041626, 1654041626, [("chroot_rpms_dl_stat|ann|hi|fedora-40-x86_64", 1),
      ("project_rpms_dl_stat|ann|hi", 2),
      ("chroot_rpms_dl_stat|ann|hi|fedora-39-x86_64", 1)]⟩) := by decide +kernel

/-- One attempt, with another report in between. -/
def sampleEvents : List Event :=
  [.send true, .select 0, .insert 0, .commit 0,
    .otherInsert "project_rpms_dl_stat:hset::ann@hi" "project_rpms_dl",
    .otherCommit "project_rpms_dl_stat:hset::ann@hi" 5,
    .select 0, .commit 0, .select 0, .insert 0, .commit 0, .answer 0]

/-- The answer to the first attempt is lost. -/
def lostAnswer : List Event :=
  [.send true, .select 0, .insert 0, .commit 0, .select 0, .insert 0, .commit 0,
    .select 0, .insert 0, .commit 0, .retry,
    .send true, .select 1, .commit 1, .select 1, .commit 1, .select 1, .commit 1, .answer 1]

/-! ## The main result -/

/-- When only the attempt that was answered has added anything, exactly the hits are delivered. -/
theorem delivered_eq {first : Sender} (accounts : Accounts hits counters events s)
    (answered : Answered hits first events s) (succeeded : s.Succeeded)
    (attempts : ∀ i, .commit i ∈ events → .answer i ∈ events) (name : String) :
    s.delivered hits name = weight (namedFor name) hits := by
  obtain ⟨handler, sender⟩ := succeeded
  have empty : hits = [] → s.delivered hits name = weight (namedFor name) hits := by
    rintro rfl
    refine List.sum_eq_zero fun value listed => ?_
    obtain ⟨h, _, rfl⟩ := List.mem_map.mp listed
    rw [List.take_nil]
    rfl
  cases handler with
  | none => exact empty (answered.nothing sender)
  | some k =>
    have whole := answered.whole k sender
    cases here : s.handlers[k]? with
    | none =>
      rw [System.done, here] at whole
      exact empty (List.length_eq_zero_iff.mp whole.symm)
    | some h =>
      rw [System.done, here, Option.elim_some] at whole
      have others : ∀ m x, s.handlers[m]? = some x → m ≠ k →
          weight (namedFor name) (hits.take x.done) = 0 := by
        intro m x there apart
        have none : x.done = 0 := by
          by_contra some
          have committed : Event.commit m ∈ events := by
            rw [accounts.commits, System.done, there]
            exact Nat.pos_of_ne_zero some
          have same := (answered.answered m).mp (attempts m committed)
          rw [sender] at same
          exact apart (Option.some.inj (Sender.succeeded.inj same)).symm
        rw [none]
        rfl
      rw [System.delivered, sum_map_eq_single
        (fun h => weight (namedFor name) (hits.take h.done)) here others, whole, List.take_length]

/-- When the sender has succeeded, all hits are delivered at least once. -/
theorem le_delivered {first : Sender} (answered : Answered hits first events s)
    (succeeded : s.Succeeded) (name : String) :
    weight (namedFor name) hits ≤ s.delivered hits name := by
  obtain ⟨handler, sender⟩ := succeeded
  have empty : hits = [] → weight (namedFor name) hits ≤ s.delivered hits name := by
    rintro rfl
    exact Nat.zero_le _
  cases handler with
  | none => exact empty (answered.nothing sender)
  | some k =>
    have whole := answered.whole k sender
    cases here : s.handlers[k]? with
    | none =>
      rw [System.done, here] at whole
      exact empty (List.length_eq_zero_iff.mp whole.symm)
    | some h =>
      rw [System.done, here, Option.elim_some] at whole
      have part := le_sum_map (fun h => weight (namedFor name) (hits.take h.done)) here
      simp only [whole, List.take_length] at part
      exact part

/-- When nothing more than the hits is delivered, only the attempt that was answered has added
anything. -/
theorem attempts_of_delivered {first : Sender} (accounts : Accounts hits counters events s)
    (answered : Answered hits first events s) (succeeded : s.Succeeded)
    (positive : ∀ hit ∈ hits, 0 < hit.2 ∧ ∃ counter, readKey hit.1 = some counter)
    (most : ∀ name, s.delivered hits name ≤ weight (namedFor name) hits) (i : Nat)
    (committed : .commit i ∈ events) : .answer i ∈ events := by
  obtain ⟨handler, sender⟩ := succeeded
  have began := (accounts.commits i).mp committed
  obtain ⟨x, there⟩ : ∃ x, s.handlers[i]? = some x := by
    cases found : s.handlers[i]? with
    | none => rw [System.done, found] at began; contradiction
    | some x => exact ⟨x, rfl⟩
  rw [System.done, there, Option.elim_some] at began
  have within := accounts.within i
  rw [System.done, there, Option.elim_some] at within
  -- The first hits are those that the attempt has added at least.
  obtain ⟨hit, more, rfl⟩ : ∃ hit more, hits = hit :: more :=
    List.exists_cons_of_length_pos (began.trans_le within)
  obtain ⟨count, counter, read⟩ := positive hit List.mem_cons_self
  have added : 0 < weight (namedFor counter.2) ((hit :: more).take x.done) := by
    have first : hit ∈ (hit :: more).take x.done := by
      obtain ⟨n, same⟩ := Nat.exists_eq_succ_of_ne_zero began.ne'
      rw [same]
      exact List.mem_cons_self
    refine count.trans_le (le_weight first ?_)
    rw [namedFor, read]
    exact decide_eq_true rfl
  cases handler with
  | none => exact absurd (answered.nothing sender) (List.cons_ne_nil hit more)
  | some k =>
    rw [answered.answered, sender]
    by_cases same : k = i
    · rw [same]
    · have whole := answered.whole k sender
      cases here : s.handlers[k]? with
      | none =>
        rw [System.done, here] at whole
        contradiction
      | some h =>
        rw [System.done, here, Option.elim_some] at whole
        have both := add_le_sum_map
          (fun h => weight (namedFor counter.2) ((hit :: more).take h.done)) here there same
        simp only [whole, List.take_length] at both
        have least := most counter.2
        unfold System.delivered at least
        omega

/-- When the sender has succeeded, each accepted download is counted once for each counter it
belongs to, exactly when only the attempt that was answered has committed a counter, no name in an
accepted URL has a bar in it, no repository metadata is asked for under `srpm-builds`, and no
counter of a chroot is that of two projects. -/
theorem downloads_counted_once_iff (lib : Library) (tryIndefinitely : Bool)
    (accesses : List Access) (counters : Counters) (events : List Event) (s : System)
    (ran : run lib tryIndefinitely accesses counters events = some s) (succeeded : s.Succeeded) :
    CountedOnce lib accesses counters events s ↔ Faultless lib accesses events := by
  obtain ⟨accounts, answered⟩ := run_accounts ran
  obtain ⟨result, done⟩ : ∃ result, getHitData lib accesses = some result := by
    cases found : getHitData lib accesses with
    | some result => exact ⟨result, rfl⟩
    | none =>
      obtain ⟨handler, sender⟩ := succeeded
      have failed := answered.failed (by rw [start, found])
      rw [sender] at failed
      contradiction
  have total := weight_sentHits done
  have due := belonging_eq lib accesses
  have sums : (∀ name, s.counters.value name =
      counters.value name + addedByOthers events name + belonging lib accesses name) →
      ∀ name, growth counters events s name = belonging lib accesses name := by
    intro grown name
    rw [growth, grown name]
    exact Nat.add_sub_cancel_left _ _
  constructor
  · intro counted
    have delivered : ∀ name, s.delivered (sentHits lib accesses) name =
        belonging lib accesses name := by
      intro name
      have one := counted.grown name
      have two := accounts.value name
      omega
    have plain : ∀ d ∈ accepted lib accesses, d.Plain := by
      intro d member
      by_contra bar
      obtain ⟨name, belongs, inside⟩ := bar_of_not_plain bar
      have positive : 0 < belonging lib accesses name :=
        List.countP_pos_iff.mpr ⟨d, member, decide_eq_true belongs⟩
      rw [← delivered, delivered_bar s _ inside] at positive
      contradiction
    have bounded : ∀ name, ∀ d ∈ accesses.filterMap (download lib),
        dueFor name d ≤ countedFor name d := by
      intro name d member
      exact (dueFor_le (fun other => plain d (mem_accepted.mpr ⟨member, other⟩)) name).1
    have most : ∀ name, s.delivered (sentHits lib accesses) name ≤
        weight (namedFor name) (sentHits lib accesses) := by
      intro name
      rw [delivered, total, due]
      exact List.sum_le_sum (bounded name)
    have positive : ∀ hit ∈ sentHits lib accesses,
        0 < hit.2 ∧ ∃ counter, readKey hit.1 = some counter := by
      intro hit listed
      rw [sentHits_eq done] at listed
      obtain ⟨key, count⟩ := of_mem_tally listed
      obtain ⟨d, _, inside⟩ := List.mem_flatMap.mp key
      rw [AccessedFile.counted] at inside
      split at inside
      · contradiction
      · exact ⟨count, readKey_isSome inside⟩
    refine ⟨attempts_of_delivered accounts answered succeeded positive most, plain, ?_, ?_⟩
    · intro d member
      refine Bool.eq_false_iff.mpr fun metadata => ?_
      obtain ⟨name, differs⟩ := metadata_counted metadata
      refine differs (eq_of_sum_le (bounded name) ?_ d member)
      rw [← total, ← due, ← delivered]
      exact le_delivered answered succeeded name
    · have grown := counted.sums
      rw [funext (sums counted.grown)] at grown
      exact (sums_iff lib accesses).mp grown
  · intro faultless
    have delivered : ∀ name, s.delivered (sentHits lib accesses) name =
        belonging lib accesses name := by
      intro name
      rw [delivered_eq accounts answered succeeded faultless.attempts, total, due]
      refine congrArg List.sum (List.map_congr_left fun d member => ?_)
      have plain : d.ofSrpmBuilds = false → d.Plain := fun other =>
        faultless.plain d (mem_accepted.mpr ⟨member, other⟩)
      exact ((dueFor_le plain name).2 (faultless.metadata d member)).symm
    have grown : ∀ name, s.counters.value name =
        counters.value name + addedByOthers events name + belonging lib accesses name :=
      fun name => delivered name ▸ accounts.value name
    refine ⟨grown, ?_⟩
    rw [funext (sums grown)]
    exact (sums_iff lib accesses).mpr faultless.apart

/-- Two packages are counted once, while another report adds to the counter of their project. -/
theorem downloads_counted_once_two : ∃ s,
    run sampleLibrary false sampleAccesses (fun _ => none) sampleEvents = some s ∧
      CountedOnce sampleLibrary sampleAccesses (fun _ => none) sampleEvents s := by
  have observed : (run sampleLibrary false sampleAccesses (fun _ => none) sampleEvents).map
      System.sender = some (.succeeded (some 0)) := by
    rw [run, start, sentHits, sample_report]
    decide +kernel
  obtain ⟨s, ran, sender⟩ := Option.map_eq_some_iff.mp observed
  have faultless : Faultless sampleLibrary sampleAccesses sampleEvents := by
    refine ⟨fun i committed => ?_, ?_, ?_, ?_⟩
    · simp only [sampleEvents, List.mem_cons, Event.commit.injEq, List.not_mem_nil, or_false,
        reduceCtorEq, false_or, or_self] at committed
      rw [committed]
      decide
    · rw [accepted, sample_downloads]
      decide +kernel
    · rw [sample_downloads]
      decide +kernel
    · rw [packages, accepted, sample_downloads]
      decide +kernel
  exact ⟨s, ran, (downloads_counted_once_iff sampleLibrary false sampleAccesses _ sampleEvents s ran
    ⟨_, sender⟩).mpr faultless⟩

/-- Both packages are counted twice when the answer to the first attempt is lost. -/
theorem downloads_counted_twice : ∃ s,
    run sampleLibrary false sampleAccesses (fun _ => none) lostAnswer = some s ∧
      s.Succeeded ∧ ¬ CountedOnce sampleLibrary sampleAccesses (fun _ => none) lostAnswer s := by
  have observed : (run sampleLibrary false sampleAccesses (fun _ => none) lostAnswer).map
      (fun s => (s.sender, s.counters.value "project_rpms_dl_stat:hset::ann@hi")) =
        some (.succeeded (some 1), 4) := by
    rw [run, start, sentHits, sample_report]
    decide +kernel
  obtain ⟨s, ran, seen⟩ := Option.map_eq_some_iff.mp observed
  obtain ⟨sender, value⟩ := Prod.mk.inj seen
  refine ⟨s, ran, ⟨_, sender⟩, fun counted => ?_⟩
  have once := counted.grown "project_rpms_dl_stat:hset::ann@hi"
  have due : belonging sampleLibrary sampleAccesses "project_rpms_dl_stat:hset::ann@hi" = 2 := by
    rw [belonging, accepted, sample_downloads]
    decide +kernel
  rw [value, due] at once
  revert once
  decide

end Copr.CounterStats
