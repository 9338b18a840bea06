import Copr.Backend.DeletedBuilds
import Copr.Backend.ProjectActions

/-!
# Whether the results of actions are true

An action should report a success exactly when every step that it asks for has succeeded. The
steps of the methods of both storages are listed here, and it is proved for which actions the
result says so.
-/

namespace Copr

open Sweep

/-! ## `Createrepo` -/

/-- The steps of `PulpStorage.init_project`. -/
def PulpStorage.initSteps (devel : Bool) (reason : Option CreaterepoReason) (calls : InitCalls) :
    List Bool :=
  [calls.createRepository.accepted, calls.getRepository, calls.createDistribution.accepted] ++
    (if devel then
      [calls.waitForRepo, calls.getPublication, calls.getDistribution, calls.updateDistribution]
    else if reason = some .manualCreaterepoToggle then
      [calls.getDistribution, calls.updateDistribution]
    else if reason = some .manualCreaterepoEvent then
      [calls.getPublication, calls.getDistribution] ++
        if calls.usesPublication then [calls.updateDistribution] else []
    else []) ++ [calls.publish, calls.redirect]

/-- The steps of `init_project`. -/
def StorageEnum.initSteps (storage : StorageEnum) (devel : Bool)
    (reason : Option CreaterepoReason) (calls : InitCalls) : List Bool :=
  match storage with
  | .backend => [calls.makedirs, calls.coprRepo]
  | .pulp => PulpStorage.initSteps devel reason calls

/-- Some steps all succeed. -/
def Succeed (steps : List Bool) : Prop := ∀ step ∈ steps, step = true

/-- `BackendStorage.init_project` is truthful. -/
theorem initProject_backend {devel : Bool} {reason : Option CreaterepoReason} {calls : InitCalls} :
    StorageEnum.backend.initProject devel reason calls = .value true ↔
      Succeed (StorageEnum.backend.initSteps devel reason calls) := by
  simp only [StorageEnum.initProject, BackendStorage.initProject, StorageEnum.initSteps, Succeed,
    List.forall_mem_cons]
  cases calls.makedirs <;> simp

/-- `PulpStorage.init_project` raises exactly when a step fails. -/
theorem initProject_pulp {devel : Bool} {reason : Option CreaterepoReason} {calls : InitCalls} :
    PulpStorage.initProject devel reason calls ≠ .raised ↔
      Succeed (PulpStorage.initSteps devel reason calls) := by
  have steps : (PulpStorage.prepared devel reason calls && calls.publish && calls.redirect) =
      (PulpStorage.initSteps devel reason calls).all id := by
    unfold PulpStorage.prepared PulpStorage.initSteps
    cases devel <;> cases calls.usesPublication <;> rcases reason with _ | reason <;>
      first
        | (cases reason <;> simp [Bool.and_assoc])
        | simp [Bool.and_assoc]
  have all : Succeed (PulpStorage.initSteps devel reason calls) ↔
      (PulpStorage.initSteps devel reason calls).all id = true := by simp [Succeed]
  rw [all, ← steps, PulpStorage.initProject]
  split <;> simp_all

/-- `PulpStorage.init_project` never returns a true value. -/
theorem initProject_pulp_ne {devel : Bool} {reason : Option CreaterepoReason} {calls : InitCalls} :
    StorageEnum.pulp.initProject devel reason calls ≠ .value true := by
  simp only [StorageEnum.initProject, PulpStorage.initProject]
  split <;> simp

/-- Every step of every call succeeds. -/
def CreaterepoData.StepsSucceed (data : CreaterepoData) (calls : ChrootPath → Nat → InitCalls) :
    Prop :=
  ∀ request ∈ data.requests,
    Succeed (data.storage.initSteps data.devel data.reason (calls request.1 request.2))

/-- A createrepo action succeeds when every call returns a true value. -/
theorem CreaterepoData.run_success {data : CreaterepoData}
    {calls : ChrootPath → Nat → InitCalls} : data.run calls = .success ↔
      ∀ request ∈ data.requests, data.storage.initProject data.devel data.reason
        (calls request.1 request.2) = .value true := by
  simp only [CreaterepoData.run, BackendResultEnum.of_eq_success, sweep_stateless,
    Returned.truth_eq_some_true]

/-- A createrepo action is truthful in the backend storage, when there is nothing to do, and when
a step fails. -/
theorem createrepo_truthful_iff (data : CreaterepoData) (calls : ChrootPath → Nat → InitCalls) :
    (data.run calls = .success ↔ data.StepsSucceed calls) ↔
      data.storage = .backend ∨ data.requests = [] ∨ ¬ data.StepsSucceed calls := by
  rw [CreaterepoData.run_success, CreaterepoData.StepsSucceed]
  cases storage : data.storage with
  | backend => simp only [initProject_backend, true_or]
  | pulp =>
    simp only [initProject_pulp_ne, reduceCtorEq, false_or]
    by_cases empty : data.requests = []
    · simp [empty]
    · obtain ⟨request, member⟩ := List.exists_mem_of_ne_nil _ empty
      have never : ¬ ∀ request ∈ data.requests, False := fun all => all request member
      rw [iff_false_left never, or_iff_right empty]

/-! ## `Fork` -/

/-- The steps of `PulpStorage._fork_build`. A package that is not found is passed over. -/
def PulpForkCalls.steps (calls : PulpForkCalls) : List Bool :=
  [calls.getContent] ++ calls.downloads.map (fun d => decide (¬ (d = .refused ∨ d = .raised))) ++
    if .saved ∈ calls.downloads then [calls.resign, calls.upload, calls.newVersion] else []

namespace ForkAction

variable {Results : Type} (world : Forking Results) (action : ForkAction) (disk : Disk Results)

/-- Every step on the backend succeeds, copying of builds aside. -/
structure OtherSteps : Prop where
  /-- The key. -/
  signing : world.doSign = true → world.pubkeyDir = true ∧ world.getPubkey = true
  /-- The source. -/
  source : world.sourceExists = true
  /-- The builds: their directories, and re-signing of those that were copied. -/
  builds : ∀ chroot ∈ action.buildsMap.entries, ∀ pair ∈ chroot.2.entries, Forkable pair →
    action.BuildPasses world disk chroot.1 pair.1 pair.2
  /-- The chroots: their directories, and `copr-repo` unless the packages are in Pulp. -/
  chroots : ∀ chroot ∈ action.buildsMap.entries,
    ChrootPasses world (decide (action.storage = .backend)) chroot.1

/-- Every build is copied. -/
def Copies : Prop :=
  ∀ chroot ∈ action.buildsMap.entries, ∀ pair ∈ chroot.2.entries, Forkable pair →
    action.Copied world disk chroot.1 pair.1 pair.2

/-- Every step in Pulp succeeds. -/
def PulpSteps : Prop :=
  ∀ chroot ∈ action.buildsMap.entries,
    Succeed (PulpStorage.initSteps false none (world.init chroot.1)) ∧
      (∀ pair ∈ chroot.2.entries, Forkable pair →
        Succeed (world.pulpBuild chroot.1 pair.1 pair.2).steps) ∧
      world.pulpPublish chroot.1 = true

/-- Every step of the action succeeds. -/
def StepsSucceed : Prop :=
  action.OtherSteps world disk ∧ action.Copies world disk ∧
    (action.storage = .pulp → action.PulpSteps world)

variable {world action disk}

/-- `PulpStorage.fork_project` never returns a true value. -/
theorem forkProject_pulp_ne : PulpStorage.forkProject world action ≠ .value true := by
  unfold PulpStorage.forkProject
  split <;> simp

/-- A fork of a project in Pulp never succeeds. -/
theorem run_pulp_ne (pulp : action.storage = .pulp) :
    (action.run world disk).1 ≠ .success := by
  unfold ForkAction.run
  split
  · simp
  · have never : (PulpStorage.forkProject world action).truth ≠ some true := fun truth =>
      forkProject_pulp_ne (Returned.truth_eq_some_true.mp truth)
    simp only [pulp, ne_eq, BackendResultEnum.of_eq_success]
    cases (BackendStorage.forkProject world action (decide (StorageEnum.pulp = .backend))
      disk).1.truth with
    | none => simp
    | some first =>
      cases second : (PulpStorage.forkProject world action).truth with
      | none => simp
      | some ok =>
        cases ok with
        | true => exact absurd second never
        | false => simp

/-- A fork of a project in the backend storage succeeds when the steps other than copying do. -/
theorem run_backend_success (backend : action.storage = .backend) {after : Disk Results} :
    action.run world disk = (.success, after) ↔ action.OtherSteps world disk ∧
      after = action.forkedChroots world action.buildsMap.entries disk := by
  have forked := @forkProject_spec _ world action true disk after
  have steps : action.OtherSteps world disk ↔
      (world.doSign = true → world.pubkeyDir = true ∧ world.getPubkey = true) ∧
        world.sourceExists = true ∧ ∀ chroot ∈ action.buildsMap.entries,
          (∀ pair ∈ chroot.2.entries, Forkable pair →
            action.BuildPasses world disk chroot.1 pair.1 pair.2) ∧
              ChrootPasses world true chroot.1 := by
    constructor
    · rintro ⟨signing, source, builds, chroots⟩
      simp only [backend, decide_true] at chroots
      exact ⟨signing, source, fun chroot member => ⟨builds chroot member, chroots chroot member⟩⟩
    · rintro ⟨signing, source, both⟩
      refine ⟨signing, source, fun chroot member => (both chroot member).1, ?_⟩
      simp only [backend, decide_true]
      exact fun chroot member => (both chroot member).2
  rw [steps, and_assoc, ← forked]
  unfold ForkAction.run
  split
  · rename_i unsigned
    simp only [Bool.and_eq_true, Bool.not_eq_true'] at unsigned
    have fails : ¬ (world.doSign = true →
        world.pubkeyDir = true ∧ world.getPubkey = true) := by
      intro signing
      have both := signing unsigned.1
      simp [both] at unsigned
    simp [fails]
  · rename_i signed
    have passes : world.doSign = true → world.pubkeyDir = true ∧ world.getPubkey = true := by
      intro signing
      simpa [signing] using signed
    rw [and_iff_right passes]
    simp only [backend, decide_true, BackendResultEnum.of_eq_success,
      Returned.truth_eq_some_true, Prod.ext_iff]

/-- A fork is truthful in the backend storage when every build is copied or another step fails,
and in Pulp when a step fails. -/
theorem truthful_iff : ((action.run world disk).1 = .success ↔ action.StepsSucceed world disk) ↔
    action.storage = .backend ∧
        (action.Copies world disk ∨ ¬ action.OtherSteps world disk) ∨
      action.storage = .pulp ∧ ¬ action.StepsSucceed world disk := by
  cases storage : action.storage with
  | backend =>
    have succeeds : (action.run world disk).1 = .success ↔ action.OtherSteps world disk := by
      constructor
      · intro succeeded
        exact ((run_backend_success storage).mp (Prod.ext succeeded rfl)).1
      · intro steps
        rw [(run_backend_success storage).mpr ⟨steps, rfl⟩]
    simp only [succeeds, StepsSucceed, storage, reduceCtorEq, false_implies, and_true, true_and,
      false_and, or_false]
    tauto
  | pulp =>
    have fails : ¬ (action.run world disk).1 = .success := run_pulp_ne storage
    simp [fails]

end ForkAction

/-! ## All three actions -/

/-- The result of a createrepo action is true except in Pulp when there is something to do and
every step succeeds; that of a fork except in the backend storage when copying of a build fails
and no other step does, and in Pulp when every step succeeds; that of deleting builds always. -/
theorem action_results_truthful_iff (createrepo : CreaterepoData)
    (calls : ChrootPath → Nat → InitCalls) {Results : Type} (world : Forking Results)
    (fork : ForkAction) (disk : Disk Results) (deletion : BuildsDeleteData) (env : Deletion)
    (before : Stored) :
    ((createrepo.run calls = .success ↔ createrepo.StepsSucceed calls) ↔
      createrepo.storage = .backend ∨ createrepo.requests = [] ∨
        ¬ createrepo.StepsSucceed calls) ∧
    (((fork.run world disk).1 = .success ↔ fork.StepsSucceed world disk) ↔
      fork.storage = .backend ∧ (fork.Copies world disk ∨ ¬ fork.OtherSteps world disk) ∨
        fork.storage = .pulp ∧ ¬ fork.StepsSucceed world disk) ∧
    (((DeleteAction.builds deletion).run env before).1 = .success ↔
      (DeleteAction.builds deletion).Unhindered env before) := by
  refine ⟨createrepo_truthful_iff createrepo calls, ForkAction.truthful_iff, ?_, ?_⟩
  · intro succeeded
    exact (DeleteAction.run_success.mp (Prod.ext succeeded rfl)).1
  · intro unhindered
    rw [DeleteAction.run_success.mpr ⟨unhindered, rfl⟩]

namespace Sample

/-- Every step succeeds. -/
def initialized : InitCalls where
  makedirs := true
  coprRepo := true
  createRepository := .created
  getRepository := true
  createDistribution := .created
  waitForRepo := true
  getPublication := true
  getDistribution := true
  usesPublication := false
  updateDistribution := true
  publish := true
  redirect := true

/-- A new chroot of a project in Pulp. -/
def newChroot : CreaterepoData where
  ownername := "owner"
  projectDirnames := ["project"]
  chroots := ["fedora-42-x86_64"]
  devel := false
  storage := .pulp
  reason := some .newChroot

/-- Every step succeeds, with the possible exception of copying. -/
def forking (copies : Bool) : Forking String where
  doSign := true
  pubkeyDir := true
  getPubkey := true
  sourceExists := true
  buildDir _ _ := true
  copyTree _ _ _ := copies
  resign _ _ := true
  resigned _ results := results
  chrootDir _ := true
  coprRepo _ := true
  init _ := initialized
  pulpBuild _ _ _ := ⟨true, [.saved], true, true, true⟩
  pulpPublish _ := true

/-- A fork of a project with one build. -/
def fork (storage : StorageEnum) : ForkAction where
  source := ⟨"owner", "project"⟩
  destination := ⟨"owner", "fork"⟩
  differ := by decide
  storage := storage
  buildsMap :=
    AList.singleton "fedora-42-x86_64" (AList.singleton "00000002-hello" "00000003-hello")

/-- The directory of the build has results. -/
def results : Disk String := fun _ _ => some "hello.rpm"

end Sample

/-- In Pulp neither a createrepo action nor a fork succeeds when every step does; in the backend
storage a fork succeeds when a build could not be copied. -/
theorem action_results_not_truthful :
    (¬ ∀ (data : CreaterepoData) (calls : ChrootPath → Nat → InitCalls),
      data.run calls = .success ↔ data.StepsSucceed calls) ∧
    (¬ ∀ (world : Forking String) (action : ForkAction) (disk : Disk String),
      action.storage = .backend →
        ((action.run world disk).1 = .success ↔ action.StepsSucceed world disk)) ∧
    ¬ ∀ (world : Forking String) (action : ForkAction) (disk : Disk String),
      action.storage = .pulp →
        ((action.run world disk).1 = .success ↔ action.StepsSucceed world disk) := by
  have entries : ∀ storage, ∀ chroot ∈ (Sample.fork storage).buildsMap.entries,
      chroot = ⟨"fedora-42-x86_64", AList.singleton "00000002-hello" "00000003-hello"⟩ :=
    fun _ _ member => List.mem_singleton.mp member
  have builds : ∀ copies storage, (Sample.fork storage).OtherSteps (Sample.forking copies)
      Sample.results := by
    intro copies storage
    refine ⟨fun _ => ⟨rfl, rfl⟩, rfl, fun _ _ _ _ _ => ⟨rfl, fun _ => rfl⟩, ?_⟩
    exact fun _ _ _ => ⟨rfl, fun _ => rfl⟩
  refine ⟨fun claimed => ?_, fun claimed => ?_, fun claimed => ?_⟩
  · have steps : Sample.newChroot.StepsSucceed fun _ _ => Sample.initialized := by
      unfold CreaterepoData.StepsSucceed Succeed
      decide
    have failed : Sample.newChroot.run (fun _ _ => Sample.initialized) = .failure := by decide
    have succeeded := (claimed Sample.newChroot fun _ _ => Sample.initialized).mpr steps
    exact absurd (failed.symm.trans succeeded) (by decide)
  · have succeeded : ((Sample.fork .backend).run (Sample.forking false) Sample.results).1 =
        .success := by
      rw [(ForkAction.run_backend_success rfl).mpr ⟨builds false .backend, rfl⟩]
    have steps := (claimed _ _ _ rfl).mp succeeded
    have copied := steps.2.1 _ (List.mem_singleton_self _) _ (List.mem_singleton_self _)
      ⟨by decide, by decide⟩
    exact absurd copied.1 (by decide)
  · have steps : (Sample.fork .pulp).StepsSucceed (Sample.forking true) Sample.results := by
      refine ⟨builds true .pulp, fun _ _ _ _ _ => ⟨rfl, rfl⟩, fun _ chroot member => ?_⟩
      have here : Succeed (PulpStorage.initSteps false none Sample.initialized) := by
        unfold Succeed
        decide
      have built : Succeed (PulpForkCalls.steps ⟨true, [.saved], true, true, true⟩) := by
        unfold Succeed
        decide
      exact ⟨here, fun _ _ _ => built, rfl⟩
    exact ForkAction.run_pulp_ne rfl ((claimed _ _ _ rfl).mpr steps)

end Copr
