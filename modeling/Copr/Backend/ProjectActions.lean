import Copr.Backend.Storage

/-!
# Creating and forking projects

`init_project` and `fork_project` of both storages in `copr_backend/storage.py`, and the actions
`Createrepo` and `Fork` of `copr_backend/actions.py` that call them. Every step that can fail is a
parameter. `Results` are the files that a build has left in its directory.
-/

namespace Copr

open Sweep

/-- How a Python call ends. -/
inductive Returned
  /-- It raises. -/
  | raised
  /-- It returns `None`. -/
  | nothing
  /-- It returns a truth value. -/
  | value (ok : Bool)
  deriving DecidableEq, Repr

/-- The truth of what is returned; `none` for an exception. -/
def Returned.truth : Returned → Option Bool
  | .raised => none
  | .nothing => some false
  | .value ok => some ok

/-- Only `True` is true. -/
@[simp] theorem Returned.truth_eq_some_true {returned : Returned} :
    returned.truth = some true ↔ returned = .value true := by
  cases returned <;> simp [Returned.truth]

/-! ## Creating repositories -/

/-- `CreaterepoReason`. -/
inductive CreaterepoReason
  /-- A project was created. -/
  | newProject
  /-- A chroot was enabled. -/
  | newChroot
  /-- A project directory was created. -/
  | newCoprdir
  /-- The manual mode was switched on or off. -/
  | manualCreaterepoToggle
  /-- The user asks for it. -/
  | manualCreaterepoEvent
  /-- A build has ended. -/
  | postBuild
  deriving DecidableEq, Repr

/-- The answer of Pulp to a request that creates something. -/
inductive Creation
  /-- It was created. -/
  | created
  /-- "This field must be unique": it was there before. -/
  | notUnique
  /-- Any other error. -/
  | failed
  deriving DecidableEq, Repr

/-- `init_project` goes on after the answer. -/
def Creation.accepted (answer : Creation) : Bool := decide (answer ≠ .failed)

/-- How the steps of one `init_project` call end. -/
structure InitCalls where
  /-- The directory is created or exists. -/
  makedirs : Bool
  /-- The `copr-repo` run. -/
  coprRepo : Bool
  /-- `create_repository`. -/
  createRepository : Creation
  /-- `get_repository`. -/
  getRepository : Bool
  /-- `create_distribution`. -/
  createDistribution : Creation
  /-- `wait_for_repo`. -/
  waitForRepo : Bool
  /-- `get_publication`. -/
  getPublication : Bool
  /-- `_get_distribution`. -/
  getDistribution : Bool
  /-- The public distribution points to a publication. -/
  usesPublication : Bool
  /-- `update_distribution`. -/
  updateDistribution : Bool
  /-- `publish`. -/
  publish : Bool
  /-- `PulpHTTPRedirect.add`. -/
  redirect : Bool
  deriving DecidableEq, Repr

/-- `BackendStorage.init_project`. -/
def BackendStorage.initProject (calls : InitCalls) : Returned :=
  if calls.makedirs then .value calls.coprRepo else .raised

/-- `PulpStorage.init_project` up to the publication: it raises unless this is true. -/
def PulpStorage.prepared (devel : Bool) (reason : Option CreaterepoReason) (calls : InitCalls) :
    Bool :=
  calls.createRepository.accepted && calls.getRepository && calls.createDistribution.accepted &&
    if devel then
      calls.waitForRepo && calls.getPublication && calls.getDistribution &&
        calls.updateDistribution
    else if reason = some .manualCreaterepoToggle then
      calls.getDistribution && calls.updateDistribution
    else if reason = some .manualCreaterepoEvent then
      calls.getPublication && calls.getDistribution &&
        (!calls.usesPublication || calls.updateDistribution)
    else true

/-- `PulpStorage.init_project`: there is no `return` in it. -/
def PulpStorage.initProject (devel : Bool) (reason : Option CreaterepoReason)
    (calls : InitCalls) : Returned :=
  if PulpStorage.prepared devel reason calls && calls.publish && calls.redirect then .nothing
  else .raised

/-- `init_project` of the storage in use. -/
def StorageEnum.initProject (storage : StorageEnum) (devel : Bool)
    (reason : Option CreaterepoReason) (calls : InitCalls) : Returned :=
  match storage with
  | .backend => BackendStorage.initProject calls
  | .pulp => PulpStorage.initProject devel reason calls

/-- The `data` of a createrepo action. -/
structure CreaterepoData where
  /-- `ownername`. -/
  ownername : String
  /-- `project_dirnames`. -/
  projectDirnames : List String
  /-- `chroots`. -/
  chroots : List String
  /-- `devel`. -/
  devel : Bool
  /-- `storage`. -/
  storage : StorageEnum
  /-- `reason`. -/
  reason : Option CreaterepoReason
  deriving DecidableEq, Repr

/-- The calls of `init_project` in their order, numbered. -/
def CreaterepoData.requests (data : CreaterepoData) : List (ChrootPath × Nat) :=
  (data.projectDirnames.flatMap fun dirname =>
    data.chroots.map fun chroot => ⟨data.ownername, dirname, chroot⟩).zipIdx

/-- `Createrepo.run`, when the steps of each call end as given. -/
def CreaterepoData.run (data : CreaterepoData) (calls : ChrootPath → Nat → InitCalls) :
    BackendResultEnum :=
  .of (sweep (fun request (_ : Unit) =>
    ((data.storage.initProject data.devel data.reason (calls request.1 request.2)).truth, ()))
      data.requests ()).1

/-! ## Forking -/

/-- A chroot of the main directory of a project. -/
def ProjectPath.chroot (path : ProjectPath) (chroot : String) : ChrootPath :=
  ⟨path.owner, path.project, chroot⟩

/-- The download of one package from Pulp. -/
inductive Download
  /-- It is saved. -/
  | saved
  /-- Status 404. -/
  | notFound
  /-- Another bad status. -/
  | refused
  /-- The request raises. -/
  | raised
  deriving DecidableEq, Repr

/-- How the steps of `PulpStorage._fork_build` end. -/
structure PulpForkCalls where
  /-- `get_content`. -/
  getContent : Bool
  /-- The downloads of the packages. -/
  downloads : List Download
  /-- `resign_rpms_in_dir`. -/
  resign : Bool
  /-- `upload_build_results`. -/
  upload : Bool
  /-- `create_repository_version`. -/
  newVersion : Bool
  deriving DecidableEq, Repr

/-- How the steps of a fork end. Generating a key may fail without consequences. -/
structure Forking (Results : Type) where
  /-- `do_sign`. -/
  doSign : Bool
  /-- The directory for the public key is created or exists. -/
  pubkeyDir : Bool
  /-- `get_pubkey`. -/
  getPubkey : Bool
  /-- The main directory of the source exists. -/
  sourceExists : Bool
  /-- The directory of a build is created or exists: chroot and name. -/
  buildDir : String → String → Bool
  /-- `copy_tree`: chroot, source and destination. -/
  copyTree : String → String → String → Bool
  /-- `resign_rpms_in_dir`: chroot and name. -/
  resign : String → String → Bool
  /-- What re-signing makes of the results in a chroot. -/
  resigned : String → Results → Results
  /-- The directory of a chroot is created or exists. -/
  chrootDir : String → Bool
  /-- The `copr-repo` run. -/
  coprRepo : String → Bool
  /-- `PulpStorage.init_project` in a chroot. -/
  init : String → InitCalls
  /-- `PulpStorage._fork_build`: chroot, source and destination. -/
  pulpBuild : String → String → String → PulpForkCalls
  /-- `_get_repository` and `publish` in a chroot. -/
  pulpPublish : String → Bool

/-- The complete results of builds, by chroot and directory. -/
abbrev Disk (Results : Type) := ChrootPath → String → Option Results

section Fork

variable {Results : Type} (world : Forking Results) (action : ForkAction)

/-- A directory has some results. -/
def Disk.put (disk : Disk Results) (path : ChrootPath) (dir : String)
    (results : Option Results) : Disk Results :=
  Function.update disk path (Function.update (disk path) dir results)

/-- `BackendStorage._fork_build`; `false` when it raises. A copy that fails is only logged. -/
def BackendStorage.forkBuild (chroot src dst : String) (disk : Disk Results) :
    Bool × Disk Results :=
  if world.buildDir chroot dst then
    match world.copyTree chroot src dst, disk (action.source.chroot chroot) src with
    | true, some results =>
      (world.resign chroot dst,
        disk.put (action.destination.chroot chroot) dst (some (world.resigned chroot results)))
    | _, _ => (true, disk.put (action.destination.chroot chroot) dst none)
  else (false, disk)

/-- The builds of a chroot; `false` when one of them raises. -/
def BackendStorage.forkBuilds (chroot : String) :
    List (Sigma fun _ : String => String) → Disk Results → Bool × Disk Results
  | [], disk => (true, disk)
  | dirs :: rest, disk =>
    if dirs.1 = "" ∨ dirs.2 = "" then BackendStorage.forkBuilds chroot rest disk
    else
      match BackendStorage.forkBuild world action chroot dirs.1 dirs.2 disk with
      | (false, disk) => (false, disk)
      | (true, disk) => BackendStorage.forkBuilds chroot rest disk

/-- The loop of `BackendStorage.fork_project` over the chroots. -/
def BackendStorage.forkChroots (createrepo : Bool) :
    List (Sigma fun _ : String => ForkedDirs) → Disk Results → Returned × Disk Results
  | [], disk => (.value true, disk)
  | chroot :: rest, disk =>
    match BackendStorage.forkBuilds world action chroot.1 chroot.2.entries disk with
    | (false, disk) => (.raised, disk)
    | (true, disk) =>
      if chroot.1 = "srpm-builds" then BackendStorage.forkChroots createrepo rest disk
      else if !world.chrootDir chroot.1 then (.raised, disk)
      else if createrepo && !world.coprRepo chroot.1 then (.value false, disk)
      else BackendStorage.forkChroots createrepo rest disk

/-- `BackendStorage.fork_project`. -/
def BackendStorage.forkProject (createrepo : Bool) (disk : Disk Results) :
    Returned × Disk Results :=
  if world.sourceExists then
    BackendStorage.forkChroots world action createrepo action.buildsMap.entries disk
  else (.value false, disk)

/-- `PulpStorage._fork_build`. -/
def PulpStorage.forkBuild (calls : PulpForkCalls) : Returned :=
  if !calls.getContent then .raised
  else
    match calls.downloads.find? fun d => decide (d = .refused ∨ d = .raised) with
    | some .refused => .value false
    | some _ => .raised
    | none =>
      if .saved ∉ calls.downloads then .nothing
      else if calls.resign && calls.upload && calls.newVersion then .value true
      else .raised

/-- The loop of `PulpStorage.fork_project` over the chroots; `false` when something raises. What
`_fork_build` returns is ignored. -/
def PulpStorage.forkChroots : List (Sigma fun _ : String => ForkedDirs) → Bool
  | [] => true
  | chroot :: rest =>
    decide (PulpStorage.initProject false none (world.init chroot.1) ≠ .raised) &&
      (chroot.2.entries.all fun dirs => decide (dirs.1 = "" ∨ dirs.2 = "") ||
        decide (PulpStorage.forkBuild (world.pulpBuild chroot.1 dirs.1 dirs.2) ≠ .raised)) &&
      world.pulpPublish chroot.1 && PulpStorage.forkChroots rest

/-- `PulpStorage.fork_project`: there is no `return` in it. -/
def PulpStorage.forkProject : Returned :=
  if PulpStorage.forkChroots world action.buildsMap.entries then .nothing else .raised

/-- `Fork.run`. Exceptions are failures, be they caught here or in the worker. -/
def ForkAction.run (disk : Disk Results) : BackendResultEnum × Disk Results :=
  if world.doSign && !(world.pubkeyDir && world.getPubkey) then (.failure, disk)
  else
    let forked := BackendStorage.forkProject world action (decide (action.storage = .backend)) disk
    match action.storage with
    | .backend => (.of forked.1.truth, forked.2)
    | .pulp =>
      -- Both calls are made unless the first one raises, and both have to return a true value.
      (.of do
        let onBackend ← forked.1.truth
        let inPulp ← (PulpStorage.forkProject world action).truth
        pure (onBackend && inPulp), forked.2)

end Fork

/-! ## When a fork succeeds -/

section Success

variable {Results : Type} (world : Forking Results) (action : ForkAction)

/-- A build is copied: its results are there and `copy_tree` succeeds. -/
def ForkAction.Copied (disk : Disk Results) (chroot src dst : String) : Prop :=
  world.copyTree chroot src dst = true ∧ (disk (action.source.chroot chroot) src).isSome = true

/-- Forking a build raises nothing: the directory is created and re-signing succeeds, which is
tried for a build that was copied. -/
def ForkAction.BuildPasses (disk : Disk Results) (chroot src dst : String) : Prop :=
  world.buildDir chroot dst = true ∧
    (action.Copied world disk chroot src dst → world.resign chroot dst = true)

/-- A chroot of the destination is prepared. -/
def ForkAction.ChrootPasses (world : Forking Results) (createrepo : Bool) (chroot : String) :
    Prop :=
  chroot ≠ "srpm-builds" → world.chrootDir chroot = true ∧
    (createrepo = true → world.coprRepo chroot = true)

/-- A pair of directories is not skipped. -/
abbrev Forkable (dirs : Sigma fun _ : String => String) : Prop := dirs.1 ≠ "" ∧ dirs.2 ≠ ""

variable {world action}

/-- The chroots of two different projects are in different places. -/
theorem ForkAction.chroot_ne (chroot other : String) :
    action.destination.chroot chroot ≠ action.source.chroot other := by
  intro same
  obtain ⟨owner, project, _⟩ := ChrootPath.mk.inj same
  have equal : ∀ {a b : ProjectPath}, a.owner = b.owner → a.project = b.project → a = b := by
    rintro ⟨_, _⟩ ⟨_, _⟩ rfl rfl
    rfl
  exact action.differ (equal owner.symm project.symm)

/-- What is put into one chroot is not found in another. -/
theorem Disk.put_other {disk : Disk Results} {path other : ChrootPath} (different : other ≠ path)
    (dir : String) (results : Option Results) : disk.put path dir results other = disk other :=
  Function.update_of_ne different _ _

/-- What is put into a directory is found there. -/
@[simp] theorem Disk.put_self (disk : Disk Results) (path : ChrootPath) (dir : String)
    (results : Option Results) : disk.put path dir results path dir = results := by
  simp [Disk.put]

/-- What is put into one directory is not found in another. -/
theorem Disk.put_other_dir {disk : Disk Results} {path : ChrootPath} {dir other : String}
    (different : other ≠ dir) (results : Option Results) :
    disk.put path dir results path other = disk path other := by
  simp [Disk.put, Function.update_of_ne different]

/-- The results that the directory of a forked build has afterwards. -/
def ForkAction.forked (world : Forking Results) (action : ForkAction) (disk : Disk Results)
    (chroot src dst : String) : Option Results :=
  if world.copyTree chroot src dst then
    (disk (action.source.chroot chroot) src).map (world.resigned chroot)
  else none

/-- What forking one build does. -/
theorem forkBuild_spec {chroot src dst : String} {disk after : Disk Results} :
    BackendStorage.forkBuild world action chroot src dst disk = (true, after) ↔
      action.BuildPasses world disk chroot src dst ∧
        after = disk.put (action.destination.chroot chroot) dst
          (action.forked world disk chroot src dst) := by
  unfold BackendStorage.forkBuild ForkAction.BuildPasses ForkAction.Copied ForkAction.forked
  cases dir : world.buildDir chroot dst with
  | false => simp
  | true =>
    cases copied : world.copyTree chroot src dst with
    | false => simp [@eq_comm _ after]
    | true =>
      cases results : disk (action.source.chroot chroot) src with
      | none => simp [@eq_comm _ after]
      | some results => simp [@eq_comm _ after]

/-- What forking does to the source: nothing. -/
def SameSource (action : ForkAction) (disk after : Disk Results) : Prop :=
  ∀ chroot, after (action.source.chroot chroot) = disk (action.source.chroot chroot)

/-- Whether a build passes depends on the source only. -/
theorem SameSource.buildPasses {disk after : Disk Results} (same : SameSource action disk after)
    {chroot src dst : String} :
    action.BuildPasses world after chroot src dst ↔
      action.BuildPasses world disk chroot src dst := by
  unfold ForkAction.BuildPasses ForkAction.Copied
  rw [same chroot]

/-- What is forked depends on the source only. -/
theorem SameSource.forked {disk after : Disk Results} (same : SameSource action disk after)
    (chroot src dst : String) :
    action.forked world after chroot src dst = action.forked world disk chroot src dst := by
  unfold ForkAction.forked
  rw [same chroot]

/-- The disk after the builds of a chroot were forked. -/
def ForkAction.forkedBuilds (world : Forking Results) (action : ForkAction) (chroot : String)
    (dirs : List (Sigma fun _ : String => String)) (disk : Disk Results) : Disk Results :=
  (dirs.filter fun dirs => decide (dirs.1 ≠ "" ∧ dirs.2 ≠ "")).foldl (fun disk dirs =>
    disk.put (action.destination.chroot chroot) dirs.2
      (action.forked world disk chroot dirs.1 dirs.2)) disk

/-- The source is not touched. -/
theorem forkedBuilds_sameSource {chroot : String} {dirs : List (Sigma fun _ : String => String)}
    {disk : Disk Results} :
    SameSource action disk (action.forkedBuilds world chroot dirs disk) := by
  intro other
  unfold ForkAction.forkedBuilds
  induction dirs.filter fun dirs => decide (dirs.1 ≠ "" ∧ dirs.2 ≠ "") generalizing disk with
  | nil => rfl
  | cons head rest ih =>
    rw [List.foldl_cons, ih]
    exact Disk.put_other (ForkAction.chroot_ne chroot other).symm _ _

/-- The builds of a chroot are forked when every one passes. -/
theorem forkBuilds_spec {chroot : String} {dirs : List (Sigma fun _ : String => String)}
    {disk after : Disk Results} :
    BackendStorage.forkBuilds world action chroot dirs disk = (true, after) ↔
      (∀ pair ∈ dirs, Forkable pair → action.BuildPasses world disk chroot pair.1 pair.2) ∧
        after = action.forkedBuilds world chroot dirs disk := by
  induction dirs generalizing disk with
  | nil => simp [BackendStorage.forkBuilds, ForkAction.forkedBuilds, @eq_comm _ after]
  | cons pair rest ih =>
    unfold BackendStorage.forkBuilds
    by_cases empty : pair.1 = "" ∨ pair.2 = ""
    · have skipped : ¬ Forkable pair := by
        rintro ⟨source, destination⟩
        exact empty.elim source destination
      have dropped : (decide (pair.1 ≠ "" ∧ pair.2 ≠ "")) = false := decide_eq_false skipped
      have same : action.forkedBuilds world chroot (pair :: rest) disk =
          action.forkedBuilds world chroot rest disk := by
        unfold ForkAction.forkedBuilds
        rw [List.filter_cons, dropped]
        rfl
      rw [if_pos empty, ih, List.forall_mem_cons, same]
      simp [skipped]
    · have forkable : Forkable pair := not_or.mp empty
      have taken : (decide (pair.1 ≠ "" ∧ pair.2 ≠ "")) = true := decide_eq_true forkable
      let next := disk.put (action.destination.chroot chroot) pair.2
        (action.forked world disk chroot pair.1 pair.2)
      have source : SameSource action disk next := fun other =>
        Disk.put_other (ForkAction.chroot_ne chroot other).symm _ _
      have same : action.forkedBuilds world chroot (pair :: rest) disk =
          action.forkedBuilds world chroot rest next := by
        unfold ForkAction.forkedBuilds
        rw [List.filter_cons, taken]
        rfl
      have first := @forkBuild_spec _ world action chroot pair.1 pair.2 disk
      rw [if_neg empty, List.forall_mem_cons, same]
      constructor
      · intro looped
        split at looped
        · simp at looped
        · rename_i done built
          obtain ⟨passes, rfl⟩ := first.mp built
          obtain ⟨others, rfl⟩ := ih.mp looped
          refine ⟨⟨fun _ => passes, fun other member ready => ?_⟩, rfl⟩
          exact source.buildPasses.mp (others other member ready)
      · rintro ⟨⟨passes, others⟩, rfl⟩
        rw [first.mpr ⟨passes forkable, rfl⟩]
        refine ih.mpr ⟨fun other member ready => ?_, rfl⟩
        exact source.buildPasses.mpr (others other member ready)

/-- The disk after the builds of some chroots were forked. -/
def ForkAction.forkedChroots (world : Forking Results) (action : ForkAction)
    (chroots : List (Sigma fun _ : String => ForkedDirs)) (disk : Disk Results) : Disk Results :=
  chroots.foldl (fun disk chroot =>
    action.forkedBuilds world chroot.1 chroot.2.entries disk) disk

/-- The chroots are forked when every build and every chroot passes. -/
theorem forkChroots_spec {createrepo : Bool} {chroots : List (Sigma fun _ : String => ForkedDirs)}
    {disk after : Disk Results} :
    BackendStorage.forkChroots world action createrepo chroots disk = (.value true, after) ↔
      (∀ chroot ∈ chroots, (∀ pair ∈ chroot.2.entries, Forkable pair →
        action.BuildPasses world disk chroot.1 pair.1 pair.2) ∧
          ForkAction.ChrootPasses world createrepo chroot.1) ∧
        after = action.forkedChroots world chroots disk := by
  induction chroots generalizing disk with
  | nil => simp [BackendStorage.forkChroots, ForkAction.forkedChroots, @eq_comm _ after]
  | cons chroot rest ih =>
    let next := action.forkedBuilds world chroot.1 chroot.2.entries disk
    have source : SameSource action disk next := forkedBuilds_sameSource
    have first := @forkBuilds_spec _ world action chroot.1 chroot.2.entries disk
    have others : (∀ chroot ∈ rest, (∀ pair ∈ chroot.2.entries, Forkable pair →
        action.BuildPasses world next chroot.1 pair.1 pair.2) ∧
          ForkAction.ChrootPasses world createrepo chroot.1) ↔
        ∀ chroot ∈ rest, (∀ pair ∈ chroot.2.entries, Forkable pair →
          action.BuildPasses world disk chroot.1 pair.1 pair.2) ∧
            ForkAction.ChrootPasses world createrepo chroot.1 := by
      simp only [source.buildPasses]
    have looped := @ih next
    rw [others] at looped
    have last : action.forkedChroots world (chroot :: rest) disk =
        action.forkedChroots world rest next := rfl
    rw [List.forall_mem_cons, last]
    by_cases builds : ∀ pair ∈ chroot.2.entries, Forkable pair →
        action.BuildPasses world disk chroot.1 pair.1 pair.2
    · have forked := first.mpr ⟨builds, rfl⟩
      simp only [BackendStorage.forkChroots, forked]
      by_cases source : chroot.1 = "srpm-builds"
      · have passes : ForkAction.ChrootPasses world createrepo chroot.1 := fun other =>
          absurd source other
        rw [if_pos source, looped]
        exact and_congr_left fun _ => (and_iff_right ⟨builds, passes⟩).symm
      · rw [if_neg source]
        have passes : ForkAction.ChrootPasses world createrepo chroot.1 ↔
            world.chrootDir chroot.1 = true ∧
              (createrepo = true → world.coprRepo chroot.1 = true) := forall_prop_of_true source
        rw [passes]
        cases dir : world.chrootDir chroot.1 with
        | false => simp
        | true =>
          cases createrepo with
          | false => simpa [and_assoc] using looped.trans (and_iff_right builds).symm
          | true =>
            cases repo : world.coprRepo chroot.1 with
            | false => simp
            | true => simpa [and_assoc] using looped.trans (and_iff_right builds).symm
    · have raised : ∀ disk', BackendStorage.forkBuilds world action chroot.1 chroot.2.entries disk ≠
          (true, disk') := fun disk' forked => builds (first.mp forked).1
      simp only [BackendStorage.forkChroots, builds, false_and, iff_false]
      split
      · simp
      · rename_i disk' forked
        exact absurd forked (raised disk')

/-- `fork_project` returns a true value when the source exists and everything passes. -/
theorem forkProject_spec {createrepo : Bool} {disk after : Disk Results} :
    BackendStorage.forkProject world action createrepo disk = (.value true, after) ↔
      (world.sourceExists = true ∧ ∀ chroot ∈ action.buildsMap.entries,
        (∀ pair ∈ chroot.2.entries, Forkable pair →
          action.BuildPasses world disk chroot.1 pair.1 pair.2) ∧
            ForkAction.ChrootPasses world createrepo chroot.1) ∧
        after = action.forkedChroots world action.buildsMap.entries disk := by
  unfold BackendStorage.forkProject
  cases world.sourceExists with
  | false => simp
  | true => simp [forkChroots_spec]

/-! ## What a fork leaves on the disk -/

/-- The builds of one chroot are forked into that chroot. -/
theorem forkedBuilds_other {chroot other : String} (different : other ≠ chroot)
    {dirs : List (Sigma fun _ : String => String)} {disk : Disk Results} :
    action.forkedBuilds world chroot dirs disk (action.destination.chroot other) =
      disk (action.destination.chroot other) := by
  have paths : action.destination.chroot other ≠ action.destination.chroot chroot := fun same =>
    different (ChrootPath.mk.inj same).2.2
  unfold ForkAction.forkedBuilds
  induction dirs.filter fun dirs => decide (dirs.1 ≠ "" ∧ dirs.2 ≠ "") generalizing disk with
  | nil => rfl
  | cons head rest ih => rw [List.foldl_cons, ih, Disk.put_other paths]

/-- Each directory has what was forked into it, when no two builds share one. -/
theorem forkedBuilds_self {chroot : String} {dirs : List (Sigma fun _ : String => String)}
    (distinct : (dirs.map Sigma.snd).Nodup) {pair : Sigma fun _ : String => String}
    (member : pair ∈ dirs) (forkable : Forkable pair) {disk : Disk Results} :
    action.forkedBuilds world chroot dirs disk (action.destination.chroot chroot) pair.2 =
      action.forked world disk chroot pair.1 pair.2 := by
  unfold ForkAction.forkedBuilds
  have taken : pair ∈ dirs.filter fun dirs => decide (dirs.1 ≠ "" ∧ dirs.2 ≠ "") :=
    List.mem_filter.mpr ⟨member, decide_eq_true forkable⟩
  have different : ((dirs.filter fun dirs => decide (dirs.1 ≠ "" ∧ dirs.2 ≠ "")).map
      Sigma.snd).Nodup := distinct.sublist (List.filter_sublist.map _)
  generalize (dirs.filter fun dirs => decide (dirs.1 ≠ "" ∧ dirs.2 ≠ "")) = taken_
    at taken different
  have untouched : ∀ (rest : List (Sigma fun _ : String => String)) (disk : Disk Results),
      pair.2 ∉ rest.map Sigma.snd →
      rest.foldl (fun disk dirs => disk.put (action.destination.chroot chroot) dirs.2
        (action.forked world disk chroot dirs.1 dirs.2)) disk
          (action.destination.chroot chroot) pair.2 =
        disk (action.destination.chroot chroot) pair.2 := by
    intro rest
    induction rest with
    | nil => exact fun _ _ => rfl
    | cons head rest ih =>
      intro disk absent
      rw [List.map_cons, List.mem_cons, not_or] at absent
      rw [List.foldl_cons, ih _ absent.2, Disk.put_other_dir absent.1]
  induction taken_ generalizing disk with
  | nil => simp at taken
  | cons head rest ih =>
    rw [List.map_cons, List.nodup_cons] at different
    rw [List.foldl_cons]
    rcases List.mem_cons.mp taken with rfl | later
    · rw [untouched rest _ different.1, Disk.put_self]
    · have source : SameSource action disk (disk.put (action.destination.chroot chroot) head.2
          (action.forked world disk chroot head.1 head.2)) := fun other =>
        Disk.put_other (ForkAction.chroot_ne chroot other).symm _ _
      rw [ih later different.2, source.forked]

/-- Each directory has what was forked into it, in any of several chroots. -/
theorem forkedChroots_self {chroots : List (Sigma fun _ : String => ForkedDirs)}
    (keys : (chroots.map Sigma.fst).Nodup) {chroot : Sigma fun _ : String => ForkedDirs}
    (listed : chroot ∈ chroots) (distinct : (chroot.2.entries.map Sigma.snd).Nodup)
    {pair : Sigma fun _ : String => String} (member : pair ∈ chroot.2.entries)
    (forkable : Forkable pair) {disk : Disk Results} :
    action.forkedChroots world chroots disk (action.destination.chroot chroot.1) pair.2 =
      action.forked world disk chroot.1 pair.1 pair.2 := by
  unfold ForkAction.forkedChroots
  have untouched : ∀ (rest : List (Sigma fun _ : String => ForkedDirs)) (disk : Disk Results),
      chroot.1 ∉ rest.map Sigma.fst →
      rest.foldl (fun disk chroot => action.forkedBuilds world chroot.1 chroot.2.entries disk) disk
          (action.destination.chroot chroot.1) = disk (action.destination.chroot chroot.1) := by
    intro rest
    induction rest with
    | nil => exact fun _ _ => rfl
    | cons head rest ih =>
      intro disk absent
      rw [List.map_cons, List.mem_cons, not_or] at absent
      rw [List.foldl_cons, ih _ absent.2, forkedBuilds_other absent.1]
  induction chroots generalizing disk with
  | nil => simp at listed
  | cons head rest ih =>
    rw [List.map_cons, List.nodup_cons] at keys
    rw [List.foldl_cons]
    rcases List.mem_cons.mp listed with rfl | later
    · rw [untouched rest _ keys.1, forkedBuilds_self distinct member forkable]
    · have source : SameSource action disk
          (action.forkedBuilds world head.1 head.2.entries disk) := forkedBuilds_sameSource
      rw [ih keys.2 later, source.forked]

end Success

end Copr
