import Copr.Lib.Sweep
import Copr.Common.ActionData
import Copr.Backend.Createrepo
import Copr.Backend.PulpContent

/-!
# Deleting builds from the storages

`BackendStorage.delete_builds` and `PulpStorage.delete_builds` of `copr_backend/storage.py`. The
first leaves the removal of the directories to the `copr-repo` command, the second to the request
that takes the content units out of a Pulp repository. What can go wrong on the way is a
parameter.
-/

namespace Copr

open Sweep

/-- `owner/dirname/chroot`: a directory below `destdir`, and the name of a Pulp repository. -/
structure ChrootPath where
  /-- The owner of the project. -/
  owner : String
  /-- The project directory. -/
  dirname : String
  /-- The chroot, or `srpm-builds`. -/
  chroot : String
  deriving DecidableEq, Repr

/-- The parts joined. -/
def ChrootPath.text (path : ChrootPath) : String :=
  path.owner ++ "/" ++ path.dirname ++ "/" ++ path.chroot

/-- What is stored on the backend and in Pulp. -/
structure Stored where
  /-- The directories of chroots that exist. -/
  chrootDirs : ChrootPath → Bool
  /-- The directories of builds that exist. -/
  dirs : ChrootPath → String → Bool
  /-- The log files that exist. -/
  logs : ChrootPath → String → Bool
  /-- The content of the Pulp repositories that exist. -/
  repositories : ChrootPath → Option (Finset String)

namespace Stored

/-- Some directories of builds are removed. -/
def removeDirs (s : Stored) (path : ChrootPath) (gone : String → Bool) : Stored :=
  { s with dirs := Function.update s.dirs path fun subdir => s.dirs path subdir && !gone subdir }

/-- Some log files are removed. -/
def removeLogs (s : Stored) (path : ChrootPath) (gone : String → Bool) : Stored :=
  { s with logs := Function.update s.logs path fun name => s.logs path name && !gone name }

/-- Directories of builds in any chroots are removed. -/
def removeAll (s : Stored) (gone : List (ChrootPath × String)) : Stored :=
  { s with dirs := fun path subdir => s.dirs path subdir && decide ((path, subdir) ∉ gone) }

/-- The content of a repository is modified. -/
def modifyContent (s : Stored) (repository : ChrootPath) (o : ContentOptions) : Stored :=
  { s with
    repositories := Function.update s.repositories repository
      ((s.repositories repository).map (modifyRepositoryContent · o.rpmsToAdd o.rpmsToRemove)) }

section Projections

variable (s : Stored) (path other : ChrootPath) (gone : String → Bool) (o : ContentOptions)
  (dirs more : List (ChrootPath × String))

/-- The directories of one chroot are removed. -/
theorem removeDirs_dirs (subdir : String) : (s.removeDirs path gone).dirs other subdir =
    (s.dirs other subdir && !(decide (path = other) && gone subdir)) := by
  by_cases same : other = path
  · subst same
    simp [removeDirs]
  · simp [removeDirs, Function.update_of_ne same, Ne.symm same]

@[simp] theorem removeLogs_dirs : (s.removeLogs path gone).dirs = s.dirs := rfl

@[simp] theorem removeAll_dirs (subdir : String) : (s.removeAll dirs).dirs path subdir =
    (s.dirs path subdir && decide ((path, subdir) ∉ dirs)) := rfl

/-- Removing two lists of directories one after another. -/
theorem removeAll_append : (s.removeAll dirs).removeAll more = s.removeAll (dirs ++ more) := by
  simp [removeAll, Bool.and_assoc]

@[simp] theorem modifyContent_dirs : (s.modifyContent path o).dirs = s.dirs := rfl

end Projections

end Stored

/-- The attributes of a `Storage` object. -/
structure Storage where
  /-- `owner`. -/
  owner : String
  /-- `project`. -/
  project : String
  /-- `appstream`. -/
  appstream : Bool
  /-- `devel`. -/
  devel : Bool
  deriving DecidableEq, Repr

/-- `_repository_name`. -/
def Storage.repositoryName (st : Storage) (chroot : String) (dirname : Option String := none) :
    ChrootPath where
  owner := st.owner
  dirname := if dirname.getD "" = "" then st.project else dirname.getD ""
  chroot := chroot

/-- How a `copr-repo` command ends that serves a request, in this process or in another. -/
inductive CoprRepoExit
  /-- It fails before the removal of directories. -/
  | failedBefore
  /-- It fails afterwards, for example in `add_appdata`. -/
  | failedAfter
  /-- It succeeds. -/
  | finished
  deriving DecidableEq, Repr

/-- The request of another process for a Pulp repository, as `BatchedAddRemoveContent` records
it. -/
structure OtherRequest where
  /-- `add_content_units`. -/
  addContentUnits : List String := []
  /-- `remove_content_units`. -/
  removeContentUnits : List String := []
  /-- `dirs_to_delete`: directories of builds, by chroot path and name. -/
  dirsToDelete : List (ChrootPath × String) := []

/-- The units of the request. -/
def OtherRequest.task (request : OtherRequest) : ContentTask where
  addContentUnits := request.addContentUnits
  removeContentUnits := request.removeContentUnits

/-- What happens while builds are deleted. Until the action ends, other processes change the stored
directories of builds and content units only together with the action's own requests. -/
structure Deletion where
  /-- How `copr-repo` ends in a directory. -/
  coprRepo : ChrootPath → CoprRepoExit
  /-- The requests of other processes that are merged with the one for a directory. -/
  others : ChrootPath → BatchOptions
  /-- `comps.xml` exists in a directory. -/
  comps : ChrootPath → Bool
  /-- `repodata/repomd.xml` exists in a directory. -/
  repomd : ChrootPath → Bool
  /-- `shutil.rmtree` succeeds for a directory that exists. -/
  rmtree : ChrootPath → String → Bool
  /-- `os.unlink` succeeds for a log file that exists. -/
  unlink : ChrootPath → String → Bool
  /-- The content units with a `build_id` label. -/
  labelled : Nat → List String
  /-- The query for the repository is answered, when a directory is handled. -/
  getRepository : ChrootPath → Bool
  /-- The query for the content units is answered. -/
  getContent : ChrootPath → Bool
  /-- The requests of other processes that are executed together with the one for a page of units,
  by this process or by another one. -/
  requests : ChrootPath → Nat → List OtherRequest
  /-- The content is modified for a page of units. -/
  modify : ChrootPath → Nat → Bool
  /-- The publication for a page of units is created. -/
  publish : ChrootPath → Nat → Bool

/-- The content units of builds, as `get_content` returns them. -/
def Deletion.units (env : Deletion) (buildIds : List Nat) : List String :=
  buildIds.flatMap env.labelled

/-- The log files that `delete_builds` unlinks for a build. -/
def logNames (buildId : Nat) : List String :=
  ["build-" ++ padded buildId ++ ".log", "build-" ++ toString buildId ++ ".rsync.log",
    "build-" ++ toString buildId ++ ".log"]

/-! ## The backend storage -/

namespace BackendStorage

variable (env : Deletion) (st : Storage)

/-- The options with which `delete_builds` calls `copr-repo`. -/
def coprRepoArgs (path : ChrootPath) (subdirs : List String) : CoprRepoArgs where
  directory := path.text
  delete := subdirs
  devel := st.devel
  appstream := st.appstream
  chroot := path.chroot

/-- The call of `run_createrepo` that serves the request. -/
def createrepoRun (path : ChrootPath) (subdirs : List String) (s : Stored) : CreaterepoRun where
  opts := mergeOptions (coprRepoArgs st path subdirs) (env.others path)
  dir :=
    { comps := env.comps path
      repomd := env.repomd path
      present := s.dirs path }

/-- `call_copr_repo` with `delete`. Failures of `rmtree` are only logged. -/
def callCoprRepo (path : ChrootPath) (subdirs : List String) (s : Stored) : Bool × Stored :=
  let run := createrepoRun env st path subdirs s
  let cleaned := s.removeDirs path fun subdir =>
    decide (subdir ∈ run.delete) && env.rmtree path subdir
  match env.coprRepo path with
  | .failedBefore => (false, s)
  | .failedAfter => (false, cleaned)
  | .finished => (true, cleaned)

/-- `delete_builds` in one chroot. -/
def deleteIn (dirname : String) (buildIds : List Nat) (item : String × List String)
    (s : Stored) : Option Bool × Stored :=
  let path : ChrootPath := ⟨st.owner, dirname, item.1⟩
  if s.chrootDirs path then
    -- In `srpm-builds` there are no metadata, and nothing else removes the directories.
    let (repo, s) := if item.1 = "srpm-builds" then (true, s)
      else callCoprRepo env st path item.2 s
    (some repo, s.removeLogs path fun name =>
      decide (name ∈ buildIds.flatMap logNames) && env.unlink path name)
  else (some false, s)

end BackendStorage

/-! ## The Pulp storage -/

/-- `itertools.batched`. -/
def batched {α : Type} (size : Nat) (xs : List α) : List (List α) :=
  if size = 0 ∨ xs = [] then [] else xs.take size :: batched size (xs.drop size)
termination_by xs.length
decreasing_by
  rename_i nontrivial
  rw [not_or] at nontrivial
  have := List.length_pos_iff.mpr nontrivial.2
  rw [List.length_drop]
  omega

namespace PulpStorage

variable (env : Deletion) (st : Storage)

/-- `_delete_dirs`: the first directory that cannot be removed raises. -/
def deleteDirs : List (ChrootPath × String) → Stored → Bool × Stored
  | [], s => (true, s)
  | (path, subdir) :: rest, s =>
    if s.dirs path subdir && env.rmtree path subdir then
      deleteDirs rest (s.removeAll [(path, subdir)])
    else (false, s)

/-- The units that `options` returns for the request of a page and those of other processes. -/
def pageOptions (path : ChrootPath) (i : Nat) (page : List String) : ContentOptions :=
  (((env.requests path i).map OtherRequest.task).foldl ContentOptions.merge
    (.start (deleteContent page []))).cancel

/-- The directories that `options` returns with them. -/
def pageDirs (path : ChrootPath) (subdirs : List String) (i : Nat) : List (ChrootPath × String) :=
  (subdirs.map (path, ·) ++ (env.requests path i).flatMap OtherRequest.dirsToDelete).dedup

/-- `_execute_locked` for the batch with the request for a page; the directories are deleted in any
case. When `check_processed` finds the request marked, another process has executed the batch, and
it has not raised. -/
def executePage (path repository : ChrootPath) (subdirs : List String) (i : Nat)
    (page : List String) (s : Stored) : Bool × Stored :=
  let o := pageOptions env path i page
  let skipped := o.rpmsToAdd.isEmpty && o.rpmsToRemove.isEmpty
  let s := if !skipped && env.modify path i then s.modifyContent repository o else s
  let (deleted, s) := deleteDirs env (pageDirs env path subdirs i) s
  ((skipped || env.modify path i && env.publish path i) && deleted, s)

/-- The loop of `delete_content` over the pages. -/
def deletePages (path repository : ChrootPath) (subdirs : List String) :
    Nat → List (List String) → Stored → Option Bool × Stored
  | _, [], s => (some true, s)
  | i, page :: rest, s =>
    match executePage env path repository subdirs i page s with
    | (false, s) => (none, s)
    | (true, s) => deletePages path repository subdirs (i + 1) rest s

/-- `delete_builds` in one chroot. -/
def deleteIn (dirname : String) (buildIds : List Nat) (item : String × List String)
    (s : Stored) : Option Bool × Stored :=
  let path : ChrootPath := ⟨st.owner, dirname, item.1⟩
  -- The name of the project directory is not passed on.
  let repository := st.repositoryName item.1
  if item.1 = "srpm-builds" then (some true, s)
  else if !s.chrootDirs path then (some false, s)
  else if !(env.getRepository path && (s.repositories repository).isSome) then (none, s)
  else if buildIds.isEmpty || !env.getContent path then (none, s)
  else deletePages env path repository item.2 0
    (batched maxContentUnitsInBatch (env.units buildIds)) s

end PulpStorage

/-- `delete_builds` in one chroot, of the storage in use. -/
def StorageEnum.deleteIn (storage : StorageEnum) (env : Deletion) (st : Storage)
    (dirname : String) (buildIds : List Nat) (item : String × List String) (s : Stored) :
    Option Bool × Stored :=
  match storage with
  | .backend => BackendStorage.deleteIn env st dirname buildIds item s
  | .pulp => PulpStorage.deleteIn env st dirname buildIds item s

/-- `delete_builds`. -/
def StorageEnum.deleteBuilds (storage : StorageEnum) (env : Deletion) (st : Storage)
    (dirname : String) (dirs : ChrootBuilddirs) (buildIds : List Nat) (s : Stored) :
    Option Bool × Stored :=
  sweep (storage.deleteIn env st dirname buildIds) dirs.items s

/-! ## When nothing goes wrong -/

namespace BackendStorage

variable {env : Deletion} {st : Storage} {dirname : String} {buildIds : List Nat}
  {item : String × List String} {s after : Stored}

variable (env) in
/-- Nothing goes wrong in a chroot: its directory exists and `copr-repo` succeeds. -/
structure Unhindered (path : ChrootPath) (s : Stored) : Prop where
  /-- The chroot path exists. -/
  chrootDir : s.chrootDirs path = true
  /-- The call of `copr-repo`. -/
  coprRepo : path.chroot ≠ "srpm-builds" → env.coprRepo path = .finished

variable (env) in
/-- The directories that a successful call removes if they exist. -/
def removes (path : ChrootPath) (subdirs : List String) (subdir : String) : Bool :=
  path.chroot != "srpm-builds" &&
    decide (subdir ∈ subdirs ++ (env.others path).delete) && env.rmtree path subdir

variable (env st) in
/-- What is stored after a successful call. -/
def cleaned (dirname : String) (buildIds : List Nat) (item : String × List String) (s : Stored) :
    Stored :=
  let path : ChrootPath := ⟨st.owner, dirname, item.1⟩
  (s.removeDirs path (removes env path item.2)).removeLogs path fun name =>
    decide (name ∈ buildIds.flatMap logNames) && env.unlink path name

/-- The directories that a successful `copr-repo` has removed. -/
theorem callCoprRepo_finished {path : ChrootPath} {subdirs : List String}
    (chroot : path.chroot ≠ "srpm-builds") (finished : env.coprRepo path = .finished) :
    callCoprRepo env st path subdirs s =
      (true, s.removeDirs path (removes env path subdirs)) := by
  have same : (fun subdir => s.dirs path subdir &&
      !(decide (subdir ∈ (createrepoRun env st path subdirs s).delete) &&
        env.rmtree path subdir)) =
      fun subdir => s.dirs path subdir && !removes env path subdirs subdir := by
    funext subdir
    cases there : s.dirs path subdir with
    | false => rfl
    | true =>
      have other : (path.chroot != "srpm-builds") = true := by simpa using chroot
      simp [removes, other, CreaterepoRun.delete, createrepoRun, filterExisting, there,
        mergeOptions, coprRepoArgs]
  simp only [callCoprRepo, finished, Stored.removeDirs, same]

/-- A call is true exactly when nothing goes wrong. -/
theorem deleteIn_true : deleteIn env st dirname buildIds item s = (some true, after) ↔
    Unhindered env ⟨st.owner, dirname, item.1⟩ s ∧
      after = cleaned env st dirname buildIds item s := by
  have conditions : Unhindered env ⟨st.owner, dirname, item.1⟩ s ↔
      s.chrootDirs ⟨st.owner, dirname, item.1⟩ = true ∧
        (item.1 ≠ "srpm-builds" → env.coprRepo ⟨st.owner, dirname, item.1⟩ = .finished) :=
    ⟨fun ⟨dir, repo⟩ => ⟨dir, repo⟩, fun ⟨dir, repo⟩ => ⟨dir, repo⟩⟩
  rw [conditions]
  unfold deleteIn
  by_cases dir : s.chrootDirs ⟨st.owner, dirname, item.1⟩ = true
  · by_cases source : item.1 = "srpm-builds"
    · have nothing : s.removeDirs ⟨st.owner, dirname, item.1⟩
          (removes env ⟨st.owner, dirname, item.1⟩ item.2) = s := by
        simp [Stored.removeDirs, removes, source]
      have kept : cleaned env st dirname buildIds item s =
          s.removeLogs ⟨st.owner, dirname, item.1⟩ fun name =>
            decide (name ∈ buildIds.flatMap logNames) &&
              env.unlink ⟨st.owner, dirname, item.1⟩ name := by
        simp only [cleaned, nothing]
      have vacuous : (item.1 ≠ "srpm-builds" →
          env.coprRepo ⟨st.owner, dirname, item.1⟩ = .finished) ↔ True :=
        iff_true_intro fun chroot => absurd source chroot
      simp only [kept, vacuous, dir, if_true, if_pos source, true_and, Prod.mk.injEq,
        @eq_comm _ after]
    · cases exit : env.coprRepo ⟨st.owner, dirname, item.1⟩ with
      | failedBefore => simp [dir, source, callCoprRepo, exit]
      | failedAfter => simp [dir, source, callCoprRepo, exit]
      | finished =>
        simp [dir, source, callCoprRepo_finished source exit, cleaned, @eq_comm _ after]
  · simp [dir]

end BackendStorage

namespace PulpStorage

variable {env : Deletion} {st : Storage} {dirname : String} {buildIds : List Nat}
  {item : String × List String} {s after : Stored}

/-- Directories are removed without an exception when they exist, none of them fails, and none of
them is named twice. -/
theorem deleteDirs_true {dirs : List (ChrootPath × String)} :
    deleteDirs env dirs s = (true, after) ↔
      dirs.Nodup ∧ (∀ dir ∈ dirs, s.dirs dir.1 dir.2 = true ∧ env.rmtree dir.1 dir.2 = true) ∧
        after = s.removeAll dirs := by
  induction dirs generalizing s with
  | nil => simp [deleteDirs, Stored.removeAll, @eq_comm _ after]
  | cons dir rest ih =>
    obtain ⟨path, subdir⟩ := dir
    rw [List.nodup_cons, List.forall_mem_cons]
    by_cases there : s.dirs path subdir = true ∧ env.rmtree path subdir = true
    · have others : (∀ dir ∈ rest, (s.removeAll [(path, subdir)]).dirs dir.1 dir.2 = true ∧
          env.rmtree dir.1 dir.2 = true) ↔ (path, subdir) ∉ rest ∧
            ∀ dir ∈ rest, s.dirs dir.1 dir.2 = true ∧ env.rmtree dir.1 dir.2 = true := by
        simp only [Stored.removeAll_dirs, Bool.and_eq_true, decide_eq_true_eq,
          List.mem_singleton]
        constructor
        · intro all
          exact ⟨fun again => (all _ again).1.2 rfl, fun dir member =>
            ⟨(all dir member).1.1, (all dir member).2⟩⟩
        · rintro ⟨fresh, all⟩ dir member
          exact ⟨⟨(all dir member).1, fun same => fresh (same ▸ member)⟩, (all dir member).2⟩
      have first : deleteDirs env ((path, subdir) :: rest) s =
          deleteDirs env rest (s.removeAll [(path, subdir)]) := by
        simp [deleteDirs, there]
      rw [first, ih, others, Stored.removeAll_append, List.singleton_append]
      tauto
    · have stopped : ¬ (s.dirs path subdir && env.rmtree path subdir) = true := by
        simpa using there
      simp only [deleteDirs, stopped, there, false_and, and_false]
      simp

variable (env st) in
/-- What is stored after the batch with the request for a page. -/
def pageDone (path : ChrootPath) (subdirs : List String) (s : Stored) (page : List String × Nat) :
    Stored :=
  (s.modifyContent (st.repositoryName path.chroot) (pageOptions env path page.2 page.1)).removeAll
    (pageDirs env path subdirs page.2)

variable (env) in
/-- The calls for a page succeed, if they are made: units that are both added and removed by the
requests of the batch are left alone. -/
def Called (path : ChrootPath) (page : List String × Nat) : Prop :=
  (pageOptions env path page.2 page.1).rpmsToAdd = [] ∧
      (pageOptions env path page.2 page.1).rpmsToRemove = [] ∨
    env.modify path page.2 = true ∧ env.publish path page.2 = true

/-- Nothing changes in a repository without units to add or to remove. -/
theorem modifyContent_skipped {repository : ChrootPath} {o : ContentOptions}
    (skipped : (o.rpmsToAdd.isEmpty && o.rpmsToRemove.isEmpty) = true) :
    s.modifyContent repository o = s := by
  simp only [Bool.and_eq_true, List.isEmpty_iff] at skipped
  have same : (fun content : Finset String =>
      modifyRepositoryContent content o.rpmsToAdd o.rpmsToRemove) = id := by
    funext content
    simp [modifyRepositoryContent, skipped]
  simp only [Stored.modifyContent, same, Option.map_id, id_eq, Function.update_eq_self]

/-- A page is handled when the calls that are made succeed and the directories can be removed. -/
theorem executePage_true {path : ChrootPath} {subdirs : List String} {i : Nat}
    {page : List String} :
    executePage env path (st.repositoryName path.chroot) subdirs i page s = (true, after) ↔
      Called env path (page, i) ∧ (∀ dir ∈ pageDirs env path subdirs i,
        s.dirs dir.1 dir.2 = true ∧ env.rmtree dir.1 dir.2 = true) ∧
          after = pageDone env st path subdirs s (page, i) := by
  have dirs (next : Stored) : deleteDirs env (pageDirs env path subdirs i) next = (true, after) ↔
      (∀ dir ∈ pageDirs env path subdirs i,
        next.dirs dir.1 dir.2 = true ∧ env.rmtree dir.1 dir.2 = true) ∧
          after = next.removeAll (pageDirs env path subdirs i) := by
    rw [deleteDirs_true]
    exact and_iff_right (List.nodup_dedup _)
  simp only [executePage, Prod.mk.injEq, Bool.and_eq_true, Bool.or_eq_true, pageDone, Called]
  by_cases skipped : ((pageOptions env path i page).rpmsToAdd.isEmpty &&
      (pageOptions env path i page).rpmsToRemove.isEmpty) = true
  · have none_ : (pageOptions env path i page).rpmsToAdd = [] ∧
        (pageOptions env path i page).rpmsToRemove = [] := by
      simpa using skipped
    have removed := dirs s
    rw [Prod.ext_iff] at removed
    simpa [skipped, none_, modifyContent_skipped skipped] using removed
  · have some_ : ¬ ((pageOptions env path i page).rpmsToAdd = [] ∧
        (pageOptions env path i page).rpmsToRemove = []) := by
      simpa using skipped
    rw [Bool.not_eq_true] at skipped
    cases modified : env.modify path i with
    | false => simp [skipped, some_]
    | true =>
      have removed := dirs (s.modifyContent (st.repositoryName path.chroot)
        (pageOptions env path i page))
      rw [Prod.ext_iff] at removed
      simp only [Stored.modifyContent_dirs] at removed
      cases env.publish path i with
      | false => simp [skipped, some_]
      | true => simpa [skipped, some_] using removed

/-- A first page is handled before the others. -/
theorem deletePages_cons_true {path repository : ChrootPath} {subdirs page : List String} {i : Nat}
    {rest : List (List String)} :
    deletePages env path repository subdirs i (page :: rest) s = (some true, after) ↔
      ∃ next, executePage env path repository subdirs i page s = (true, next) ∧
        deletePages env path repository subdirs (i + 1) rest next = (some true, after) := by
  simp only [deletePages]
  split <;> rename_i next executed <;> simp [executed]

variable (env) in
/-- The directories of the batches with some pages. -/
def pagesDirs (path : ChrootPath) (subdirs : List String) (pages : List (List String × Nat)) :
    List (ChrootPath × String) :=
  pages.flatMap fun page => pageDirs env path subdirs page.2

/-- The pages are handled when all calls succeed and the directories of their batches can be
removed. A directory that is removed with one page would not be found with another. -/
theorem deletePages_true {path : ChrootPath} {subdirs : List String} {i : Nat}
    {pages : List (List String)} :
    deletePages env path (st.repositoryName path.chroot) subdirs i pages s = (some true, after) ↔
      (∀ page ∈ pages.zipIdx i, Called env path page) ∧
        (pagesDirs env path subdirs (pages.zipIdx i)).Nodup ∧
          (∀ dir ∈ pagesDirs env path subdirs (pages.zipIdx i),
            s.dirs dir.1 dir.2 = true ∧ env.rmtree dir.1 dir.2 = true) ∧
              after = (pages.zipIdx i).foldl (pageDone env st path subdirs) s := by
  induction pages generalizing s i with
  | nil => simp [deletePages, pagesDirs, @eq_comm _ after]
  | cons page rest ih =>
    have whole : pagesDirs env path subdirs ((page, i) :: rest.zipIdx (i + 1)) =
        pageDirs env path subdirs i ++ pagesDirs env path subdirs (rest.zipIdx (i + 1)) := rfl
    have left : (∀ dir ∈ pagesDirs env path subdirs (rest.zipIdx (i + 1)),
        (pageDone env st path subdirs s (page, i)).dirs dir.1 dir.2 = true ∧
          env.rmtree dir.1 dir.2 = true) ↔
        (pageDirs env path subdirs i).Disjoint
            (pagesDirs env path subdirs (rest.zipIdx (i + 1))) ∧
          ∀ dir ∈ pagesDirs env path subdirs (rest.zipIdx (i + 1)),
            s.dirs dir.1 dir.2 = true ∧ env.rmtree dir.1 dir.2 = true := by
      simp only [pageDone, Stored.removeAll_dirs, Stored.modifyContent_dirs, Bool.and_eq_true,
        decide_eq_true_eq]
      constructor
      · intro all
        exact ⟨fun dir first second => (all dir second).1.2 first, fun dir member =>
          ⟨(all dir member).1.1, (all dir member).2⟩⟩
      · rintro ⟨apart, all⟩ dir member
        exact ⟨⟨(all dir member).1, fun first => apart first member⟩, (all dir member).2⟩
    have distinct : (pageDirs env path subdirs i).Nodup := List.nodup_dedup _
    rw [deletePages_cons_true, List.zipIdx_cons, whole, List.forall_mem_cons, List.foldl_cons,
      List.nodup_append', List.forall_mem_append]
    simp only [executePage_true, ih]
    constructor
    · rintro ⟨_, ⟨here, removable, rfl⟩, calls, once, there, same⟩
      have ⟨apart, present⟩ := left.mp there
      exact ⟨⟨here, calls⟩, ⟨distinct, once, apart⟩, ⟨removable, present⟩, same⟩
    · rintro ⟨⟨here, calls⟩, ⟨_, once, apart⟩, ⟨removable, present⟩, same⟩
      exact ⟨_, ⟨here, removable, rfl⟩, calls, once, left.mpr ⟨apart, present⟩, same⟩

end PulpStorage

/-- There are no pages without units. -/
theorem batched_eq_nil {α : Type} {size : Nat} (positive : 0 < size) {xs : List α} :
    batched size xs = [] ↔ xs = [] := by
  rw [batched]
  have nonzero : size ≠ 0 := Nat.pos_iff_ne_zero.mp positive
  by_cases empty : xs = [] <;> simp [empty, nonzero]

/-- What does not fit on one page needs another. -/
theorem batched_length_le_one {α : Type} {size : Nat} (positive : 0 < size) {xs : List α} :
    (batched size xs).length ≤ 1 ↔ xs.length ≤ size := by
  have nonzero : size ≠ 0 := Nat.pos_iff_ne_zero.mp positive
  rw [batched]
  by_cases empty : xs = []
  · simp [empty]
  · have rest := @batched_eq_nil α size positive (xs.drop size)
    simp [empty, nonzero, rest, List.length_eq_zero_iff]

/-- What fits on one page is on one page. -/
theorem batched_of_short {α : Type} {size : Nat} (positive : 0 < size) {xs : List α}
    (nonempty : xs ≠ []) (short : xs.length ≤ size) : batched size xs = [xs] := by
  have nonzero : size ≠ 0 := Nat.pos_iff_ne_zero.mp positive
  have rest : batched size (xs.drop size) = [] := by
    rw [batched_eq_nil positive, List.drop_eq_nil_iff]
    exact short
  rw [batched, if_neg (by simp [nonzero, nonempty]), rest, List.take_of_length_le short]

/-- Every unit is on a page. -/
theorem mem_batched {α : Type} {size : Nat} (positive : 0 < size) {xs : List α} {x : α} :
    (∃ page ∈ batched size xs, x ∈ page) ↔ x ∈ xs := by
  have nonzero : size ≠ 0 := Nat.pos_iff_ne_zero.mp positive
  induction xs using batched.induct size with
  | case1 xs stop =>
    have empty := stop.resolve_left nonzero
    rw [batched, if_pos stop]
    simp [empty]
  | case2 xs more ih =>
    have later : (∃ page ∈ batched size (xs.drop size), x ∈ page) ↔ x ∈ xs.drop size := ih
    rw [batched, if_neg more, List.exists_mem_cons_iff, later, ← List.mem_append,
      List.take_append_drop]

namespace PulpStorage

variable {env : Deletion} {st : Storage} {dirname : String} {buildIds : List Nat}
  {item : String × List String} {s after : Stored}

/-- The pages of the units, with their numbers. -/
def pages (env : Deletion) (buildIds : List Nat) : List (List String × Nat) :=
  (batched maxContentUnitsInBatch (env.units buildIds)).zipIdx

variable (env st) in
/-- Nothing goes wrong in a chroot whose results are in Pulp: the chroot path and the repository
exist, the calls succeed, and the directories can be removed. -/
structure Unhindered (buildIds : List Nat) (path : ChrootPath) (subdirs : List String)
    (s : Stored) : Prop where
  /-- The chroot path exists. -/
  chrootDir : s.chrootDirs path = true
  /-- The repository of the project is found. -/
  repository : env.getRepository path = true ∧
    (s.repositories (st.repositoryName path.chroot)).isSome = true
  /-- The content units are found. -/
  content : buildIds ≠ [] ∧ env.getContent path = true
  /-- The calls for all pages. -/
  calls : ∀ page ∈ pages env buildIds, Called env path page
  /-- No directory is named by the batches of two pages, so there is one page at most when the
  action names directories. -/
  once : (pagesDirs env path subdirs (pages env buildIds)).Nodup
  /-- The directories that the batches name are there and can be removed. -/
  removable : ∀ dir ∈ pagesDirs env path subdirs (pages env buildIds),
    s.dirs dir.1 dir.2 = true ∧ env.rmtree dir.1 dir.2 = true

variable (env st) in
/-- What is stored after a successful call. -/
def cleaned (dirname : String) (buildIds : List Nat) (item : String × List String) (s : Stored) :
    Stored :=
  if item.1 = "srpm-builds" then s
  else (pages env buildIds).foldl (pageDone env st ⟨st.owner, dirname, item.1⟩ item.2) s

/-- A call is true exactly when nothing goes wrong. -/
theorem deleteIn_true : deleteIn env st dirname buildIds item s = (some true, after) ↔
    (item.1 ≠ "srpm-builds" →
      Unhindered env st buildIds ⟨st.owner, dirname, item.1⟩ item.2 s) ∧
      after = cleaned env st dirname buildIds item s := by
  unfold deleteIn
  by_cases source : item.1 = "srpm-builds"
  · simp only [if_pos source, cleaned, Prod.mk.injEq, true_and, @eq_comm _ after]
    exact (and_iff_right fun chroot => absurd source chroot).symm
  have handled := @deletePages_true env st s after ⟨st.owner, dirname, item.1⟩ item.2 0
    (batched maxContentUnitsInBatch (env.units buildIds))
  rw [if_neg source, cleaned, if_neg source, forall_prop_of_true source]
  constructor
  · intro deleted
    split at deleted <;> [simp at deleted; rename_i dir]
    split at deleted <;> [simp at deleted; rename_i repository]
    split at deleted <;> [simp at deleted; rename_i content]
    obtain ⟨calls, once, removable, same⟩ := handled.mp deleted
    simp only [Bool.not_eq_true', Bool.not_eq_false, Bool.and_eq_true, Bool.or_eq_true,
      List.isEmpty_iff, not_or] at dir repository content
    exact ⟨⟨dir, repository, content, calls, once, removable⟩, same⟩
  · rintro ⟨⟨dir, repository, content, calls, once, removable⟩, same⟩
    have deleted := handled.mpr ⟨calls, once, removable, same⟩
    have ids : buildIds.isEmpty = false := by simpa using content.1
    simp [dir, repository.1, repository.2, ids, content.2, deleted]

end PulpStorage

end Copr
