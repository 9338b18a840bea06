import Copr.Lib.Chunks
import Copr.Backend.PulpDistributions
import Copr.Backend.ExpiredDirs

/-!
# What is left of removed directories

`DeleteProject` and `RemoveDirs` of `copr_backend/actions.py`, and `delete_project` of the two
storages in `copr_backend/storage.py`. A directory is told by its full name. What can go wrong on
the way is a parameter. The first action removes what a page of distributions leads to, the second
leaves Pulp alone. Here is when all that is stored for the directories is gone afterwards.
-/

namespace Copr

open Sweep Tables Text

/-- What is stored for projects. -/
structure ProjectStores where
  /-- The directories below `destdir` that exist, with what is in them. -/
  directories : String → Option (List String)
  /-- Pulp. -/
  pulp : PulpTables

/-- What happens while directories are removed. -/
structure RemovalCalls where
  /-- `list_distributions` is answered for a prefix. -/
  listDistributions : String → Bool
  /-- A distribution can be deleted. -/
  deleteDistribution : DistributionName → Bool
  /-- A repository can be deleted. -/
  deleteRepository : ChrootPath → Bool
  /-- `PulpHTTPRedirect.remove` succeeds for a directory. -/
  redirect : String → Bool
  /-- How `shutil.rmtree` ends for a directory that exists. `notFound` stands for a file that
  another process has removed meanwhile. -/
  rmtree : String → Rmtree

/-- The results on a page of a list. -/
def pageSize : Nat := 100

namespace ProjectStores

/-- `shutil.rmtree`: how it ends, and what is stored then. -/
def rmtree (s : ProjectStores) (path : String) (ends : Rmtree) : Rmtree × ProjectStores :=
  match s.directories path, ends with
  | none, _ => (.notFound, s)
  | some _, .removed =>
    (.removed, { s with directories := Function.update s.directories path none })
  | some _, .notFound => (.notFound, s)
  | some items, .oserror left =>
    (.oserror left, { s with
      directories := Function.update s.directories path (some (items.filter (· ∈ left))) })

end ProjectStores

/-- `delete_project`. -/
def BackendStorage.deleteProject (calls : RemovalCalls) (owner dirname : String)
    (s : ProjectStores) : Option Bool × ProjectStores :=
  let path := owner ++ "/" ++ dirname
  if (s.directories path).isSome then
    match s.rmtree path (calls.rmtree path) with
    | (.removed, s) => (some true, s)
    | (_, s) => (none, s)
  else (some true, s)

/-- `delete_project`. Further pages of the list are not asked for. -/
def PulpStorage.deleteProject (calls : RemovalCalls) (owner dirname : String)
    (s : ProjectStores) : Option Bool × ProjectStores :=
  let start := owner ++ "/" ++ dirname ++ "/"
  if !calls.listDistributions start then (none, s)
  else
    let page := (s.pulp.matching start).take pageSize
    let distributions := page.map Distribution.name
    let repositories := page.filterMap Distribution.repository
    let pulp := s.pulp.deleteDistributions (distributions.filter calls.deleteDistribution)
    if !distributions.all calls.deleteDistribution then (none, { s with pulp := pulp })
    else
      let pulp := pulp.deleteRepositories (repositories.filter calls.deleteRepository)
      if !(repositories.all calls.deleteRepository && calls.redirect (owner ++ "/" ++ dirname)) then
        (none, { s with pulp := pulp })
      else (some true, { s with pulp := pulp })

/-- The turn of the loop in `DeleteProject.run` for a directory. -/
def StorageEnum.deleteProject (storage : StorageEnum) (calls : RemovalCalls)
    (owner dirname : String) (s : ProjectStores) : Option Bool × ProjectStores :=
  if dirname = "" then (some true, s)
  else
    match storage with
    | .backend => BackendStorage.deleteProject calls owner dirname s
    | .pulp =>
      match PulpStorage.deleteProject calls owner dirname s with
      | (none, s) => (none, s)
      | (some _, s) => BackendStorage.deleteProject calls owner dirname s

/-- `DeleteProject.run`. -/
def DeleteProject.run (storage : StorageEnum) (calls : RemovalCalls) (owner : String)
    (projectDirnames : List String) (s : ProjectStores) : BackendResultEnum × ProjectStores :=
  if owner = "" then (.failure, s)
  else
    let (result, s) := sweep (storage.deleteProject calls owner) projectDirnames s
    (.of result, s)

/-- The turn of the loop in `RemoveDirs._run_internal` for a directory. -/
def RemoveDirs.remove (calls : RemovalCalls) (coprDir : String) (s : ProjectStores) :
    Option Bool × ProjectStores :=
  if !removeDirsAsserts coprDir then (none, s)
  else
    match s.rmtree coprDir (calls.rmtree coprDir) with
    | (.oserror _, s) => (none, s)
    | (_, s) => (some true, s)

/-- `RemoveDirs.run`. A failed assertion is no `OSError`, but the worker reports a failure too. -/
def RemoveDirs.run (calls : RemovalCalls) (coprDirs : List String) (s : ProjectStores) :
    BackendResultEnum × ProjectStores :=
  let (result, s) := sweep (RemoveDirs.remove calls) coprDirs s
  (.of result, s)

/-! ## Actions for directories of a project -/

/-- The type of an action that removes directories. -/
inductive RemovalKind
  /-- `DeleteProject`, with the storage of the project. -/
  | deleteProject (storage : StorageEnum)
  /-- `RemoveDirs`. -/
  | removeDirs
  deriving DecidableEq, Repr

/-- An action that removes directories. -/
structure DirsRemoval (chars : CharClasses) where
  /-- Its type. -/
  kind : RemovalKind
  /-- The project. -/
  copr : NamedCopr chars
  /-- The directories that are named in the action. -/
  dirs : List (CoprDir chars)
  /-- They are directories of the project. -/
  own : ∀ d ∈ dirs, d.copr = copr

namespace DirsRemoval

variable {chars : CharClasses}

/-- The action is executed. -/
def run (a : DirsRemoval chars) (calls : RemovalCalls) (s : ProjectStores) :
    BackendResultEnum × ProjectStores :=
  match a.kind with
  | .deleteProject storage =>
    DeleteProject.run storage calls a.copr.ownerName (a.dirs.map CoprDir.name) s
  | .removeDirs => RemoveDirs.run calls (a.dirs.map CoprDir.fullName) s

/-- A repository or distribution is named after one of the directories. -/
def names (a : DirsRemoval chars) (text : String) : Bool :=
  a.dirs.any fun d => startswith text (d.fullName ++ "/")

/-- The directories are gone, and nothing else in Pulp was touched. -/
structure Removed (a : DirsRemoval chars) (before after : ProjectStores) : Prop where
  /-- The directories on the backend. -/
  directories : ∀ d ∈ a.dirs, after.directories d.fullName = none
  /-- The repositories named after them. -/
  repositories : ∀ path, a.names path.text = true → after.pulp.repositories path = none
  /-- The distributions named after them. -/
  distributions : ∀ x ∈ after.pulp.distributions.rows, a.names x.name.text = false
  /-- Other repositories. -/
  otherRepositories : ∀ path, a.names path.text = false →
    after.pulp.repositories path = before.pulp.repositories path
  /-- Other distributions. -/
  otherDistributions : ∀ name, a.names name.text = false →
    after.pulp.distributions.find name = before.pulp.distributions.find name

/-- Nothing in Pulp is named after the directories. -/
structure Absent (a : DirsRemoval chars) (t : PulpTables) : Prop where
  /-- No repository is. -/
  repositories : ∀ path, a.names path.text = true → t.repositories path = none
  /-- No distribution is. -/
  distributions : ∀ x ∈ t.distributions.rows, a.names x.name.text = false

/-- The distributions that `delete_project` lists lead to all repositories of the directories and to
nothing else. -/
structure Covered (a : DirsRemoval chars) (t : PulpTables) : Prop where
  /-- The distributions of a directory fit on the pages that are asked for: one each time that the
  directory is named. -/
  pages : ∀ d ∈ a.dirs, (t.matching (d.fullName ++ "/")).length ≤
    pageSize * (a.dirs.map CoprDir.fullName).count d.fullName
  /-- Some distribution points to each repository. -/
  pointed : ∀ path, a.names path.text = true → (t.repositories path).isSome = true →
    ∃ x ∈ t.distributions.rows, a.names x.name.text = true ∧ x.repository = some path
  /-- No distribution points to another repository. -/
  own : ∀ x ∈ t.distributions.rows, a.names x.name.text = true → ∀ path,
    x.repository = some path → (t.repositories path).isSome = true → a.names path.text = true
  /-- No other distribution serves what one of the directories points to. -/
  unshared : ∀ x ∈ t.distributions.rows, a.names x.name.text = true → ∀ path,
    x.repository = some path →
      ∀ y ∈ t.distributions.rows, a.names y.name.text = false → y.target.source ≠ some path

/-- What is stored for the directories is within the reach of the action. -/
def WithinReach (a : DirsRemoval chars) (calls : RemovalCalls) (s : ProjectStores) : Prop :=
  match a.kind with
  | .deleteProject .pulp => a.Covered s.pulp
  | .deleteProject .backend => a.Absent s.pulp
  | .removeDirs => a.Absent s.pulp ∧ ∀ d ∈ a.dirs,
      (s.directories d.fullName).isSome = true → calls.rmtree d.fullName ≠ .notFound

end DirsRemoval

/-! ## One page of distributions -/

namespace PulpTables

variable {t : PulpTables} {start other : String} {x : Distribution}

/-- The page of distributions that is listed. -/
def page (t : PulpTables) (start : String) : List Distribution :=
  (t.matching start).take pageSize

/-- The repositories that the distributions on the page point to. -/
def pageRepositories (t : PulpTables) (start : String) : List ChrootPath :=
  (t.page start).filterMap Distribution.repository

/-- What a successful `delete_project` makes of the tables. -/
def deletePage (t : PulpTables) (start : String) : PulpTables :=
  (t.deleteDistributions ((t.page start).map Distribution.name)).deleteRepositories
    (t.pageRepositories start)

/-- The distributions on the page are some of those listed. -/
theorem mem_page (listed : x ∈ t.page start) :
    x ∈ t.distributions.rows ∧ startswith x.name.text start = true :=
  List.mem_filter.mp (List.mem_of_mem_take listed)

/-- A distribution is on the page when its name is. -/
theorem name_mem_page (there : x ∈ t.distributions.rows) :
    x.name ∈ (t.page start).map Distribution.name ↔ x ∈ t.page start := by
  constructor
  · intro named
    obtain ⟨y, listed, same⟩ := List.mem_map.mp named
    rw [← Table.eq_of_key (mem_page listed).1 there same]
    exact listed
  · exact List.mem_map_of_mem

/-- The repositories that the page leads to. -/
theorem mem_pageRepositories {path : ChrootPath} :
    path ∈ t.pageRepositories start ↔ ∃ x ∈ t.page start, x.repository = some path :=
  List.mem_filterMap

/-- The repositories that are left. -/
theorem deletePage_repositories (path : ChrootPath) :
    (t.deletePage start).repositories path =
      if path ∈ t.pageRepositories start then none else t.repositories path :=
  rfl

/-- The distributions that are left. -/
theorem mem_deletePage {y : Distribution} : y ∈ (t.deletePage start).distributions.rows ↔
    ∃ x ∈ t.distributions.rows, x ∉ t.page start ∧ x.without (t.pageRepositories start) = y := by
  rw [deletePage, deleteRepositories_rows, List.mem_map]
  apply exists_congr
  intro x
  rw [mem_deleteDistributions, and_assoc]
  apply and_congr_right
  intro there
  rw [name_mem_page there]

/-- A distribution with another name is still found. -/
theorem find_deletePage {name : DistributionName} (apart : startswith name.text start = false) :
    (t.deletePage start).distributions.find name =
      (t.distributions.find name).map (Distribution.without (t.pageRepositories start)) := by
  have kept : ∀ x ∈ t.distributions.rows, x.name = name →
      decide (x.name ∈ (t.page start).map Distribution.name) = false := by
    intro x there same
    apply decide_eq_false
    rw [name_mem_page there]
    intro listed
    have named := (mem_page listed).2
    rw [same, apart] at named
    contradiction
  have found := Table.find_remove kept
  rw [deletePage, deleteRepositories, Table.find_update, deleteDistributions, found]
  rfl

/-- The distributions with a name that begins with a text. -/
theorem matching_deletePage : (t.deletePage start).matching other =
    ((t.matching other).filter fun x => decide (x ∉ t.page start)).map
      (Distribution.without (t.pageRepositories start)) := by
  have left : ((t.deleteDistributions ((t.page start).map Distribution.name)).distributions.rows) =
      t.distributions.rows.filter fun x => decide (x ∉ t.page start) := by
    apply List.filter_congr
    intro x there
    have same : x.name ∈ (t.page start).map Distribution.name ↔ x ∈ t.page start :=
      name_mem_page there
    simp only [same, decide_not]
  have names : ((fun x => startswith x.name.text other) ∘
      Distribution.without (t.pageRepositories start)) = fun x => startswith x.name.text other := by
    funext x
    simp
  rw [matching, deletePage, deleteRepositories_rows, left, List.filter_map, names, matching,
    List.filter_filter, List.filter_filter]
  simp only [Bool.and_comm]

/-- Deleting the page at the start leaves fewer matching distributions by the size of a page. -/
theorem length_matching_self :
    ((t.deletePage start).matching start).length = (t.matching start).length - pageSize := by
  have distinct : (t.matching start).Nodup :=
    (List.Nodup.of_map _ t.distributions.distinct).filter _
  have rest : ((t.matching start).filter fun x => decide (x ∉ t.page start)) =
      (t.matching start).drop pageSize := by
    apply Chunks.filter_first distinct
    · intro x early
      exact decide_eq_false (not_not_intro early)
    · intro x _ late
      exact decide_eq_true late
  rw [matching_deletePage, List.length_map, rest, List.length_drop]

/-- Of other distributions there are as many as before. -/
theorem length_matching_other
    (apart : ∀ text, startswith text start = true → startswith text other = false) :
    ((t.deletePage start).matching other).length = (t.matching other).length := by
  have all : ((t.matching other).filter fun x => decide (x ∉ t.page start)) = t.matching other := by
    rw [List.filter_eq_self]
    intro x matched
    apply decide_eq_true
    intro listed
    have begins := (List.mem_filter.mp matched).2
    rw [apart _ (mem_page listed).2] at begins
    contradiction
  rw [matching_deletePage, List.length_map, all]

end PulpTables

/-! ## What the calls do when they succeed -/

namespace ProjectStores

variable {s after : ProjectStores} {path : String} {ends : Rmtree}

/-- The directory is gone. -/
def dropDirectory (s : ProjectStores) (path : String) : ProjectStores :=
  { s with directories := Function.update s.directories path none }

/-- Dropping a directory that does not exist changes nothing. -/
theorem dropDirectory_absent (absent : s.directories path = none) : s.dropDirectory path = s := by
  rw [dropDirectory, ← absent, Function.update_eq_self]

/-- The whole directory is removed. -/
theorem rmtree_removed : s.rmtree path ends = (.removed, after) ↔
    (s.directories path).isSome = true ∧ ends = .removed ∧ after = s.dropDirectory path := by
  unfold rmtree
  cases s.directories path with
  | none => simp
  | some items => cases ends <;> simp [dropDirectory, eq_comm]

/-- Nothing is removed: the directory does not exist, or one of its files does not. -/
theorem rmtree_notFound : s.rmtree path ends = (.notFound, after) ↔
    ((s.directories path).isSome = true → ends = .notFound) ∧ after = s := by
  unfold rmtree
  cases s.directories path with
  | none => simp [eq_comm]
  | some items => cases ends <;> simp [eq_comm]

end ProjectStores

section Calls

variable {calls : RemovalCalls} {owner dirname : String} {s after : ProjectStores}

/-- The directory is removed if it exists. -/
theorem BackendStorage.deleteProject_true
    (succeeded : BackendStorage.deleteProject calls owner dirname s = (some true, after)) :
    after = s.dropDirectory (owner ++ "/" ++ dirname) := by
  simp only [BackendStorage.deleteProject] at succeeded
  split at succeeded
  · split at succeeded
    · rename_i removed
      cases succeeded
      exact (ProjectStores.rmtree_removed.mp removed).2.2
    · cases succeeded
  · rename_i absent
    cases succeeded
    rw [Bool.not_eq_true, Option.isSome_eq_false_iff, Option.isNone_iff_eq_none] at absent
    exact (ProjectStores.dropDirectory_absent absent).symm

/-- A page of distributions is deleted, with the repositories that it leads to. -/
theorem PulpStorage.deleteProject_true {ok : Bool}
    (succeeded : PulpStorage.deleteProject calls owner dirname s = (some ok, after)) :
    after = { s with pulp := s.pulp.deletePage (owner ++ "/" ++ dirname ++ "/") } := by
  simp only [PulpStorage.deleteProject] at succeeded
  split at succeeded
  · cases succeeded
  · split at succeeded
    · cases succeeded
    · rename_i distributions
      split at succeeded
      · cases succeeded
      · rename_i repositories
        cases succeeded
        rw [Bool.not_eq_true', Bool.not_eq_false, List.all_eq_true] at distributions
        rw [Bool.not_eq_true', Bool.not_eq_false, Bool.and_eq_true, List.all_eq_true]
          at repositories
        rw [List.filter_eq_self.mpr distributions, List.filter_eq_self.mpr repositories.1]
        rfl

/-- A turn of the loop over the directories of a project in Pulp. -/
theorem deleteProject_pulp (named : dirname ≠ "")
    (succeeded : StorageEnum.pulp.deleteProject calls owner dirname s = (some true, after)) :
    after.directories = (s.dropDirectory (owner ++ "/" ++ dirname)).directories ∧
      after.pulp = s.pulp.deletePage (owner ++ "/" ++ dirname ++ "/") := by
  rw [StorageEnum.deleteProject, if_neg named] at succeeded
  split at succeeded
  · cases succeeded
  · rename_i first
    rw [BackendStorage.deleteProject_true succeeded, PulpStorage.deleteProject_true first]
    exact ⟨rfl, rfl⟩

/-- A turn of the loop over the directories of another project. -/
theorem deleteProject_backend (named : dirname ≠ "")
    (succeeded : StorageEnum.backend.deleteProject calls owner dirname s = (some true, after)) :
    after = s.dropDirectory (owner ++ "/" ++ dirname) := by
  rw [StorageEnum.deleteProject, if_neg named] at succeeded
  exact BackendStorage.deleteProject_true succeeded

/-- What `RemoveDirs` leaves of a directory. -/
def RemoveDirs.leftover (calls : RemovalCalls) (path : String) (items : Option (List String)) :
    Option (List String) :=
  if calls.rmtree path = .notFound then items else none

/-- A turn of the loop in `RemoveDirs`. -/
theorem RemoveDirs.remove_true {coprDir : String}
    (succeeded : RemoveDirs.remove calls coprDir s = (some true, after)) :
    after.pulp = s.pulp ∧ after.directories = Function.update s.directories coprDir
      (RemoveDirs.leftover calls coprDir (s.directories coprDir)) := by
  unfold RemoveDirs.remove at succeeded
  split at succeeded
  · cases succeeded
  · split at succeeded
    · cases succeeded
    · rename_i ends final ordinary removed
      cases succeeded
      cases ends with
      | removed =>
        obtain ⟨-, whole, rfl⟩ := ProjectStores.rmtree_removed.mp removed
        have other : calls.rmtree coprDir ≠ .notFound := by
          rw [whole]
          intro impossible
          cases impossible
        rw [RemoveDirs.leftover, if_neg other]
        exact ⟨rfl, rfl⟩
      | notFound =>
        obtain ⟨missing, rfl⟩ := ProjectStores.rmtree_notFound.mp removed
        have same : RemoveDirs.leftover calls coprDir (after.directories coprDir) =
            after.directories coprDir := by
          unfold RemoveDirs.leftover
          split
          · rfl
          · rename_i other
            symm
            rw [← Option.not_isSome_iff_eq_none]
            intro present
            exact other (missing present)
        rw [same, Function.update_eq_self]
        exact ⟨rfl, rfl⟩
      | oserror left => exact (ordinary left rfl).elim

end Calls

/-! ## Whole actions -/

namespace DirsRemoval

variable {chars : CharClasses} {a : DirsRemoval chars} {calls : RemovalCalls}

/-- What is named after one of the directories. -/
theorem names_iff {text : String} :
    a.names text = true ↔ ∃ d ∈ a.dirs, startswith text (d.fullName ++ "/") = true :=
  List.any_eq_true

/-- Nothing is named after two directories. -/
theorem named_once {d e : CoprDir chars} {text : String}
    (first : startswith text (d.fullName ++ "/") = true)
    (second : startswith text (e.fullName ++ "/") = true) : d.fullName = e.fullName := by
  obtain ⟨rest, here⟩ := startswith_iff.mp first
  obtain ⟨rest', there⟩ := startswith_iff.mp second
  have whole : d.copr.ownerName.toList ++ '/' :: (d.name.toList ++ '/' :: rest) =
      e.copr.ownerName.toList ++ '/' :: (e.name.toList ++ '/' :: rest') := by
    rw [here] at there
    simpa [CoprDir.fullName, String.toList_append] using there
  have owners := around_separator d.copr.owner_plain e.copr.owner_plain whole
  have names := around_separator d.name_slash e.name_slash owners.2
  rw [CoprDir.fullName, CoprDir.fullName, String.toList_inj.mp owners.1,
    String.toList_inj.mp names.1]

/-- What a loop over some of the directories has made of the tables of Pulp. -/
structure Cleared (a : DirsRemoval chars) (done : List (CoprDir chars)) (before after : PulpTables)
    (gone : List ChrootPath) : Prop where
  /-- Some repositories are gone. -/
  repositories : ∀ path,
    after.repositories path = if path ∈ gone then none else before.repositories path
  /-- Each time that a directory is named, a page of its distributions goes. -/
  lengths : ∀ d ∈ a.dirs, (after.matching (d.fullName ++ "/")).length =
    (before.matching (d.fullName ++ "/")).length -
      pageSize * (done.map CoprDir.fullName).count d.fullName
  /-- Other distributions are still there. -/
  others : ∀ name, a.names name.text = false → after.distributions.find name =
    (before.distributions.find name).map (Distribution.without gone)
  /-- There are no new distributions. -/
  origin : ∀ y ∈ after.distributions.rows, ∃ x ∈ before.distributions.rows, x.without gone = y
  /-- The repositories that are gone were pointed to. -/
  pointed : ∀ path ∈ gone, ∃ x ∈ before.distributions.rows,
    a.names x.name.text = true ∧ x.repository = some path
  /-- A distribution goes together with the repository that it points to. -/
  together : ∀ x ∈ before.distributions.rows, ∀ path, x.repository = some path →
    path ∈ gone ∨ x ∈ after.distributions.rows

/-- Nothing has been cleared yet. -/
theorem cleared_nil (t : PulpTables) : a.Cleared [] t t [] where
  repositories _ := rfl
  lengths _ _ := rfl
  others name _ := by
    have same : Distribution.without [] = id := by
      funext x
      exact Distribution.without_nil
    rw [same, Option.map_id, id]
  origin y there := ⟨y, there, Distribution.without_nil⟩
  pointed path member := by contradiction
  together x there _ _ := Or.inr there

/-- One more directory is cleared. -/
theorem Cleared.next {done : List (CoprDir chars)} {before t : PulpTables}
    {gone : List ChrootPath} {d : CoprDir chars} (listed : d ∈ a.dirs)
    (cleared : a.Cleared done before t gone) :
    a.Cleared (done ++ [d]) before (t.deletePage (d.fullName ++ "/"))
      (gone ++ t.pageRepositories (d.fullName ++ "/")) where
  repositories path := by
    rw [PulpTables.deletePage_repositories, cleared.repositories]
    by_cases now : path ∈ t.pageRepositories (d.fullName ++ "/")
    · simp [now]
    · simp [now]
  lengths e named := by
    have earlier := cleared.lengths e named
    rw [List.map_append, List.count_append, List.map_singleton, List.count_singleton]
    by_cases same : d.fullName = e.fullName
    · rw [if_pos (beq_iff_eq.mpr same), same, PulpTables.length_matching_self, earlier,
        Nat.mul_succ, Nat.sub_sub]
    · have apart : ∀ text, startswith text (d.fullName ++ "/") = true →
          startswith text (e.fullName ++ "/") = false := by
        intro text first
        rw [Bool.eq_false_iff]
        intro second
        exact same (named_once first second)
      rw [if_neg (mt beq_iff_eq.mp same), PulpTables.length_matching_other apart, earlier,
        Nat.add_zero]
  others name other := by
    have apart : startswith name.text (d.fullName ++ "/") = false := by
      rw [Bool.eq_false_iff]
      intro named
      rw [names_iff.mpr ⟨d, listed, named⟩] at other
      contradiction
    rw [PulpTables.find_deletePage apart, cleared.others name other, Option.map_map]
    congr 1
    funext x
    exact Distribution.without_append.symm
  origin z there := by
    obtain ⟨y, present, -, rfl⟩ := PulpTables.mem_deletePage.mp there
    obtain ⟨x, first, rfl⟩ := cleared.origin y present
    exact ⟨x, first, Distribution.without_append⟩
  pointed path member := by
    rcases List.mem_append.mp member with before | now
    · exact cleared.pointed path before
    · obtain ⟨y, onPage, points⟩ := PulpTables.mem_pageRepositories.mp now
      obtain ⟨present, named⟩ := PulpTables.mem_page onPage
      obtain ⟨x, first, rfl⟩ := cleared.origin y present
      rw [Distribution.without_name] at named
      exact ⟨x, first, names_iff.mpr ⟨d, listed, named⟩,
        (Distribution.repository_without.mp points).1⟩
  together x first path points := by
    rcases cleared.together x first path points with before | present
    · exact Or.inl (List.mem_append_left _ before)
    · by_cases now : path ∈ t.pageRepositories (d.fullName ++ "/")
      · exact Or.inl (List.mem_append_right _ now)
      · right
        have off : x ∉ t.page (d.fullName ++ "/") := by
          intro onPage
          exact now (PulpTables.mem_pageRepositories.mpr ⟨x, onPage, points⟩)
        have same : x.without (t.pageRepositories (d.fullName ++ "/")) = x := by
          rw [Distribution.without_eq_self, Distribution.source_of_repository points]
          intro other equal
          cases equal
          exact now
        exact PulpTables.mem_deletePage.mpr ⟨x, present, off, same⟩

/-- No directory has an empty name. -/
theorem name_ne (d : CoprDir chars) : d.name ≠ "" := by
  have created := d.created
  split at created
  · intro empty
    have named := d.copr.named
    rw [← created, empty] at named
    contradiction
  · obtain ⟨rest, same⟩ := startswith_iff.mp created.spec.1
    intro empty
    rw [empty, String.toList_append] at same
    simp at same

/-- A project is deleted in one loop over the names of its directories. -/
theorem deleteProject_sweep {s after : ProjectStores} {storage : StorageEnum}
    (kind : a.kind = .deleteProject storage) (succeeded : a.run calls s = (.success, after)) :
    sweep (fun d => storage.deleteProject calls a.copr.ownerName (CoprDir.name d)) a.dirs s =
      (some true, after) := by
  rw [run, kind] at succeeded
  simp only [DeleteProject.run] at succeeded
  split at succeeded
  · cases succeeded
  · rw [sweep_map] at succeeded
    have result := Prod.mk.inj succeeded
    exact Prod.ext (BackendResultEnum.of_eq_success.mp result.1) result.2

/-- `RemoveDirs` is one loop over the full names. -/
theorem removeDirs_sweep {s after : ProjectStores} (kind : a.kind = .removeDirs)
    (succeeded : a.run calls s = (.success, after)) :
    sweep (fun d => RemoveDirs.remove calls (CoprDir.fullName d)) a.dirs s =
      (some true, after) := by
  rw [run, kind] at succeeded
  simp only [RemoveDirs.run] at succeeded
  rw [sweep_map] at succeeded
  have result := Prod.mk.inj succeeded
  exact Prod.ext (BackendResultEnum.of_eq_success.mp result.1) result.2

/-- A project in Pulp is deleted directory by directory. -/
theorem run_pulp {s after : ProjectStores} (kind : a.kind = .deleteProject .pulp)
    (succeeded : a.run calls s = (.success, after)) :
    (∀ d ∈ a.dirs, after.directories d.fullName = none) ∧
      ∃ gone, a.Cleared a.dirs s.pulp after.pulp gone := by
  have swept := deleteProject_sweep kind succeeded
  have turns : ∀ d ∈ a.dirs, ∀ s after : ProjectStores,
      StorageEnum.pulp.deleteProject calls a.copr.ownerName d.name s = (some true, after) →
        after.directories = (s.dropDirectory d.fullName).directories ∧
          after.pulp = s.pulp.deletePage (d.fullName ++ "/") := by
    intro d listed s after turned
    have turn := deleteProject_pulp (name_ne d) turned
    rw [← a.own d listed] at turn
    exact turn
  constructor
  · intro d listed
    have updated := sweep_update CoprDir.fullName ProjectStores.directories (fun _ _ => none)
      (fun _ _ => rfl)
      (fun d listed s after turned => (turns d listed s after turned).1) swept d.fullName
    rw [if_pos (List.mem_map_of_mem listed)] at updated
    exact updated
  · exact sweep_run (P := fun done now => ∃ gone, a.Cleared done s.pulp now.pulp gone)
      ⟨[], cleared_nil s.pulp⟩ (fun done d listed now next cleared turned => by
        obtain ⟨gone, cleared⟩ := cleared
        rw [(turns d listed now next turned).2]
        exact ⟨_, cleared.next listed⟩) swept

/-- Of a project on the backend the directories are deleted. -/
theorem run_backend {s after : ProjectStores} (kind : a.kind = .deleteProject .backend)
    (succeeded : a.run calls s = (.success, after)) :
    (∀ d ∈ a.dirs, after.directories d.fullName = none) ∧ after.pulp = s.pulp := by
  have swept := deleteProject_sweep kind succeeded
  have turns : ∀ d ∈ a.dirs, ∀ s after : ProjectStores,
      StorageEnum.backend.deleteProject calls a.copr.ownerName d.name s = (some true, after) →
        after = s.dropDirectory d.fullName := by
    intro d listed s after turned
    have turn := deleteProject_backend (name_ne d) turned
    rw [← a.own d listed] at turn
    exact turn
  constructor
  · intro d listed
    have updated := sweep_update CoprDir.fullName ProjectStores.directories (fun _ _ => none)
      (fun _ _ => rfl) (fun d listed s after turned => by
        rw [turns d listed s after turned]
        rfl) swept d.fullName
    rw [if_pos (List.mem_map_of_mem listed)] at updated
    exact updated
  · exact sweep_run (P := fun _ now => now.pulp = s.pulp) rfl (fun done d listed now next same
      turned => by
        rw [turns d listed now next turned]
        exact same) swept

/-- `RemoveDirs` removes directories on the backend. -/
theorem run_removeDirs {s after : ProjectStores} (kind : a.kind = .removeDirs)
    (succeeded : a.run calls s = (.success, after)) :
    (∀ d ∈ a.dirs, after.directories d.fullName =
      RemoveDirs.leftover calls d.fullName (s.directories d.fullName)) ∧ after.pulp = s.pulp := by
  have swept := removeDirs_sweep kind succeeded
  constructor
  · intro d listed
    have once : ∀ path items, RemoveDirs.leftover calls path
        (RemoveDirs.leftover calls path items) = RemoveDirs.leftover calls path items := by
      intro path items
      unfold RemoveDirs.leftover
      split <;> rfl
    have updated := sweep_update CoprDir.fullName ProjectStores.directories
      (RemoveDirs.leftover calls) once
      (fun d _ s after turned => (RemoveDirs.remove_true turned).2) swept d.fullName
    rw [if_pos (List.mem_map_of_mem listed)] at updated
    exact updated
  · exact sweep_run (P := fun _ now => now.pulp = s.pulp) rfl (fun done d _ now next same turned =>
      (RemoveDirs.remove_true turned).1.trans same) swept

/-- When Pulp is left alone, nothing must be there. -/
theorem removed_of_same {s after : ProjectStores} (same : after.pulp = s.pulp) :
    a.Removed s after ↔ (∀ d ∈ a.dirs, after.directories d.fullName = none) ∧ a.Absent s.pulp := by
  constructor
  · intro removed
    refine ⟨removed.directories, ⟨?_, ?_⟩⟩
    · intro path named
      rw [← same]
      exact removed.repositories path named
    · rw [← same]
      exact removed.distributions
  · rintro ⟨directories, absent⟩
    constructor
    · exact directories
    · rw [same]
      exact absent.repositories
    · rw [same]
      exact absent.distributions
    · intro path _
      rw [same]
    · intro name _
      rw [same]

/-- Among the distributions that are left there is none of the directories, exactly when those of
each directory fit on its pages. -/
theorem Cleared.distributions_iff {before after : PulpTables} {gone : List ChrootPath}
    (cleared : a.Cleared a.dirs before after gone) :
    (∀ x ∈ after.distributions.rows, a.names x.name.text = false) ↔
      ∀ d ∈ a.dirs, (before.matching (d.fullName ++ "/")).length ≤
        pageSize * (a.dirs.map CoprDir.fullName).count d.fullName := by
  constructor
  · intro none d listed
    have empty : after.matching (d.fullName ++ "/") = [] := by
      apply List.filter_eq_nil_iff.mpr
      intro x there named
      have unnamed := none x there
      rw [names_iff.mpr ⟨d, listed, named⟩] at unnamed
      contradiction
    have lengths := cleared.lengths d listed
    rw [empty, List.length_nil] at lengths
    omega
  · intro fits x there
    rw [Bool.eq_false_iff]
    intro named
    obtain ⟨d, listed, starts⟩ := names_iff.mp named
    have lengths := cleared.lengths d listed
    have empty : (after.matching (d.fullName ++ "/")).length = 0 := by
      have fit := fits d listed
      omega
    have inside : x ∈ after.matching (d.fullName ++ "/") := List.mem_filter.mpr ⟨there, starts⟩
    rw [List.length_eq_zero_iff.mp empty] at inside
    contradiction

/-- When no distribution of the directories is left, the repositories that are gone are those that
they pointed to. -/
theorem Cleared.mem_gone {before after : PulpTables} {gone : List ChrootPath} {path : ChrootPath}
    (cleared : a.Cleared a.dirs before after gone)
    (none : ∀ x ∈ after.distributions.rows, a.names x.name.text = false) :
    path ∈ gone ↔ ∃ x ∈ before.distributions.rows,
      a.names x.name.text = true ∧ x.repository = some path := by
  constructor
  · exact cleared.pointed path
  · rintro ⟨x, there, named, points⟩
    rcases cleared.together x there path points with deleted | left
    · exact deleted
    · have unnamed := none x left
      rw [named] at unnamed
      contradiction

/-- Other distributions are as before, exactly when none of them served a repository that is
gone. -/
theorem Cleared.others_iff {before after : PulpTables} {gone : List ChrootPath}
    (cleared : a.Cleared a.dirs before after gone) :
    (∀ name, a.names name.text = false →
        after.distributions.find name = before.distributions.find name) ↔
      ∀ y ∈ before.distributions.rows, a.names y.name.text = false →
        ∀ path, y.target.source = some path → path ∉ gone := by
  constructor
  · intro same y there unnamed
    have found := same y.name unnamed
    rw [cleared.others y.name unnamed, Table.find_of_mem there, Option.map_some] at found
    exact Distribution.without_eq_self.mp (Option.some.inj found)
  · intro apart name unnamed
    rw [cleared.others name unnamed]
    cases found : before.distributions.find name with
    | none => rfl
    | some y =>
      obtain ⟨there, rfl⟩ := Table.find_eq_some.mp found
      rw [Option.map_some, Distribution.without_eq_self.mpr (apart y there unnamed)]

/-- A project in Pulp is removed exactly when its distributions cover it. -/
theorem Cleared.removed_iff {s after : ProjectStores} {gone : List ChrootPath}
    (directories : ∀ d ∈ a.dirs, after.directories d.fullName = none)
    (cleared : a.Cleared a.dirs s.pulp after.pulp gone) :
    a.Removed s after ↔ a.Covered s.pulp := by
  constructor
  · intro removed
    have member : ∀ path, path ∈ gone ↔ ∃ x ∈ s.pulp.distributions.rows,
        a.names x.name.text = true ∧ x.repository = some path :=
      fun _ => cleared.mem_gone removed.distributions
    constructor
    · exact cleared.distributions_iff.mp removed.distributions
    · intro path named present
      have deleted := removed.repositories path named
      rw [cleared.repositories path] at deleted
      split at deleted
      · rename_i listed
        exact (member path).mp listed
      · rw [deleted] at present
        contradiction
    · intro x there named path points present
      rw [← Bool.not_eq_false]
      intro unnamed
      have kept := removed.otherRepositories path unnamed
      rw [cleared.repositories path, if_pos ((member path).mpr ⟨x, there, named, points⟩)] at kept
      rw [← kept] at present
      contradiction
    · intro x there named path points y other unnamed serves
      have deleted := (member path).mpr ⟨x, there, named, points⟩
      exact cleared.others_iff.mp removed.otherDistributions y other unnamed path serves deleted
  · intro covered
    have none := cleared.distributions_iff.mpr covered.pages
    have member : ∀ path, path ∈ gone ↔ ∃ x ∈ s.pulp.distributions.rows,
        a.names x.name.text = true ∧ x.repository = some path :=
      fun _ => cleared.mem_gone none
    constructor
    · exact directories
    · intro path named
      rw [cleared.repositories path]
      split
      · rfl
      · rename_i kept
        rw [← Option.not_isSome_iff_eq_none]
        intro present
        exact kept ((member path).mpr (covered.pointed path named present))
    · exact none
    · intro path unnamed
      rw [cleared.repositories path]
      split
      · rename_i deleted
        obtain ⟨x, there, named, points⟩ := (member path).mp deleted
        symm
        rw [← Option.not_isSome_iff_eq_none]
        intro present
        have own := covered.own x there named path points present
        rw [unnamed] at own
        contradiction
      · rfl
    · apply cleared.others_iff.mpr
      intro y there unnamed path serves deleted
      obtain ⟨x, first, named, points⟩ := (member path).mp deleted
      exact covered.unshared x first named path points y there unnamed serves

/-- When an action succeeds, its directories are gone from every storage, and nothing else is,
exactly when what was stored for them is within its reach. -/
theorem removed_directories_are_gone (a : DirsRemoval chars) (calls : RemovalCalls)
    (s after : ProjectStores) (succeeded : a.run calls s = (.success, after)) :
    a.Removed s after ↔ a.WithinReach calls s := by
  unfold WithinReach
  split
  · rename_i kind
    obtain ⟨directories, gone, cleared⟩ := run_pulp kind succeeded
    exact cleared.removed_iff directories
  · rename_i kind
    obtain ⟨directories, same⟩ := run_backend kind succeeded
    rw [removed_of_same same]
    exact and_iff_right directories
  · rename_i kind
    obtain ⟨directories, same⟩ := run_removeDirs kind succeeded
    rw [removed_of_same same, and_comm]
    apply and_congr_right
    intro _
    apply forall₂_congr
    intro d listed
    rw [directories d listed, RemoveDirs.leftover]
    split
    · rename_i vanished
      rw [← Option.not_isSome_iff_eq_none]
      exact ⟨fun absent present => absurd present absent, fun all present => all present vanished⟩
    · rename_i other
      exact ⟨fun _ _ => other, fun _ => rfl⟩

end DirsRemoval


namespace Sample

/-- `frostyx/hello:pr:42`. -/
def pullRequestDir : CoprDir .ascii where
  id := 12
  copr := helloCopr
  name := "hello:pr:42"
  main := false
  created := by decide

/-- A repository of the directory. -/
def pullRequestChroot : ChrootPath := ⟨"frostyx", "hello:pr:42", "fedora-40-x86_64"⟩

/-- The logs of the directory are on the backend, and its packages are in Pulp. -/
def pullRequestStores : ProjectStores where
  directories := Function.update (fun _ => none) "frostyx/hello:pr:42" (some ["fedora-40-x86_64"])
  pulp :=
    { repositories :=
        Function.update (fun _ => none) pullRequestChroot (some ⟨["hello-2.10-1.rpm"], 1⟩)
      distributions :=
        { rows := [⟨⟨pullRequestChroot, false⟩, .repository pullRequestChroot⟩]
          distinct := by decide } }

/-- Nothing goes wrong. -/
def removalCalls : RemovalCalls where
  listDistributions _ := true
  deleteDistribution _ := true
  deleteRepository _ := true
  redirect _ := true
  rmtree _ := .removed

/-- The directory is removed by an action. -/
def pullRequestRemoval (kind : RemovalKind) : DirsRemoval .ascii where
  kind := kind
  copr := helloCopr
  dirs := [pullRequestDir]
  own := by decide

end Sample

/-- A result that is a success is made of `success` and the stores. -/
theorem DirsRemoval.success_eq {result : BackendResultEnum × ProjectStores}
    (success : result.1 = .success) : result = (.success, result.2) :=
  Prod.ext success rfl

/-- `RemoveDirs` leaves the packages of a directory in Pulp. -/
theorem DirsRemoval.packages_are_left : ¬ ∀ (a : DirsRemoval .ascii) (calls : RemovalCalls)
    (s after : ProjectStores), a.run calls s = (.success, after) → a.Removed s after := by
  intro claimed
  let a := Sample.pullRequestRemoval .removeDirs
  have run : (a.run Sample.removalCalls Sample.pullRequestStores).1 = .success := by decide
  have ended : a.run Sample.removalCalls Sample.pullRequestStores =
      (.success, (a.run Sample.removalCalls Sample.pullRequestStores).2) := success_eq run
  have removed := claimed a _ _ _ ended
  have gone := removed.repositories Sample.pullRequestChroot (by decide)
  have left : ((a.run Sample.removalCalls Sample.pullRequestStores).2.pulp.repositories
      Sample.pullRequestChroot).isSome = true := by decide
  rw [gone] at left
  exact Bool.false_ne_true left

/-- With the project the directory is removed from both storages. -/
theorem DirsRemoval.removed_directories_are_gone_sample : ∃ after : ProjectStores,
    (Sample.pullRequestRemoval (.deleteProject .pulp)).run Sample.removalCalls
        Sample.pullRequestStores = (.success, after) ∧
      (Sample.pullRequestRemoval (.deleteProject .pulp)).Removed Sample.pullRequestStores
        after := by
  let a := Sample.pullRequestRemoval (.deleteProject .pulp)
  have run : (a.run Sample.removalCalls Sample.pullRequestStores).1 = .success := by decide
  have ended : a.run Sample.removalCalls Sample.pullRequestStores =
      (.success, (a.run Sample.removalCalls Sample.pullRequestStores).2) := success_eq run
  have only : ∀ path, (Sample.pullRequestStores.pulp.repositories path).isSome = true →
      path = Sample.pullRequestChroot := by
    intro path present
    by_contra other
    simp [Sample.pullRequestStores, Function.update_of_ne other] at present
  have covered : a.Covered Sample.pullRequestStores.pulp := by
    constructor
    · decide
    · intro path _ present
      exact ⟨_, List.mem_singleton_self _, by decide, congrArg _ (only path present).symm⟩
    · intro _ _ _ path _ present
      rw [only path present]
      decide
    · intro _ _ _ _ _ y there unnamed
      rw [List.mem_singleton.mp there] at unnamed
      exact absurd unnamed (by decide)
  exact ⟨_, ended, (removed_directories_are_gone a _ _ _ ended).mpr covered⟩

end Copr
