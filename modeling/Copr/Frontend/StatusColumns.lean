import Copr.Frontend.Operations

/-!
# The columns that decide about statuses

A row also has logs, results, times and links, which no operation looks at when it decides about
statuses, packages or batches. So a row can be reduced to the deciding columns before an
operation or after it, and databases that agree in these columns stay in agreement.
-/

namespace Copr

/-- The mock chroot and the status of a build chroot. -/
def BuildChroot.statusOnly (c : BuildChroot) : BuildChroot :=
  { mockChroot := c.mockChroot, status := c.status }

/-- Reduced chroots are the same if the mock chroots and the statuses are. -/
theorem BuildChroot.statusOnly_eq {c d : BuildChroot} (mock : c.mockChroot = d.mockChroot)
    (status : c.status = d.status) : c.statusOnly = d.statusOnly := by
  unfold statusOnly
  rw [mock, status]

namespace Build

open BuildsLogic

/-- The columns of a build that decide about statuses. -/
def statusOnly (b : Build) : Build where
  id := b.id
  canceled := b.canceled
  sourceStatus := b.sourceStatus
  failType := b.failType
  package := b.package
  isBackground := b.isBackground
  batchId := b.batchId
  buildChroots := b.buildChroots.map BuildChroot.statusOnly

variable {b b' : Build} {env : Surroundings} {upd : UpdDict}

/-- Reducing twice is reducing once. -/
@[simp] theorem statusOnly_twice (b : Build) : b.statusOnly.statusOnly = b.statusOnly := by
  unfold statusOnly
  simp only [List.map_map, Build.mk.injEq, true_and]
  rfl

/-- Reduced chroots stay as they are. -/
theorem chroots_twice (b : Build) :
    b.buildChroots.map BuildChroot.statusOnly =
      b.statusOnly.buildChroots.map BuildChroot.statusOnly :=
  congrArg Build.buildChroots (statusOnly_twice b).symm

/-- Rows are reduced to the same if the deciding columns are the same. -/
theorem statusOnly_congr (row : b.id = b'.id ∧ b.canceled = b'.canceled)
    (status : b.sourceStatus = b'.sourceStatus ∧ b.failType = b'.failType)
    (package : b.package = b'.package) (background : b.isBackground = b'.isBackground)
    (batchId : b.batchId = b'.batchId)
    (chroots : b.buildChroots.map BuildChroot.statusOnly =
      b'.buildChroots.map BuildChroot.statusOnly) : b.statusOnly = b'.statusOnly := by
  unfold statusOnly
  rw [row.1, row.2, status.1, status.2, package, background, batchId, chroots]

/-- Chroots changed one by one can be reduced before. -/
theorem map_statusOnly {f g : BuildChroot → BuildChroot} (chroots : List BuildChroot)
    (agree : ∀ c, (f c).statusOnly = (g c.statusOnly).statusOnly) :
    (chroots.map f).map BuildChroot.statusOnly =
      ((chroots.map BuildChroot.statusOnly).map g).map BuildChroot.statusOnly := by
  simp only [List.map_map]
  exact List.map_congr_left fun c _ => agree c

/-- Whether a build is finished is decided by these columns. -/
@[simp] theorem statusOnly_finished (b : Build) : b.statusOnly.finished = b.finished := by
  have all : (b.buildChroots.map BuildChroot.statusOnly).all
      (fun c => decide c.status.Finished) =
      b.buildChroots.all fun c => decide c.status.Finished := by
    rw [List.all_map]
    rfl
  have empty : (b.buildChroots.map BuildChroot.statusOnly).isEmpty = b.buildChroots.isEmpty := by
    cases b.buildChroots <;> rfl
  unfold finished finishedEarly
  simp only [statusOnly, all, empty]
  rfl

/-! ## Reports -/

/-- The package is assigned to the reduced row as well. -/
theorem withPackage_statusOnly (b : Build) (upd : UpdDict) :
    withPackage b.statusOnly upd = (withPackage b upd).statusOnly := by
  have same : b.statusOnly.package = b.package := rfl
  unfold withPackage
  rw [same]
  cases b.package with
  | some name => rfl
  | none => cases truthyText upd.pkgName <;> rfl

/-- A report about the source build is about the same chroots. -/
theorem sourceChroots_statusOnly (env : Surroundings) (b : Build) (upd : UpdDict) :
    (sourceChroots env b.statusOnly upd).map BuildChroot.statusOnly =
      (sourceChroots env b upd).map BuildChroot.statusOnly := by
  have empty : b.statusOnly.buildChroots = [] ↔ b.buildChroots = [] := List.map_eq_nil_iff
  unfold sourceChroots
  simp only [empty]
  split
  · rfl
  · show (b.buildChroots.map _).map _ = _
    rw [List.map_map]
    rfl

/-- A report does the same to the reduced chroot. -/
theorem sourceChroot_statusOnly (env : Surroundings) (upd : UpdDict) (c : BuildChroot) :
    (sourceChroot env upd c).statusOnly = (sourceChroot env upd c.statusOnly).statusOnly := by
  apply BuildChroot.statusOnly_eq
  · rw [(sourceChroot_keeps env upd c).1, (sourceChroot_keeps env upd c.statusOnly).1]
    rfl
  · rw [sourceChroot_status, sourceChroot_status]
    rfl

/-- A report about a chroot does the same to the reduced one. -/
theorem updateChroot_statusOnly (env : Surroundings) (upd : UpdDict) (c : BuildChroot) :
    (updateChroot env upd c).statusOnly = (updateChroot env upd c.statusOnly).statusOnly := by
  apply BuildChroot.statusOnly_eq
  · rw [updateChroot_mockChroot, updateChroot_mockChroot]
    rfl
  · rw [updateChroot_status, updateChroot_status]
    rfl

/-- A report about the source build needs the deciding columns only. -/
theorem updateSource_statusOnly (env : Surroundings) (b : Build) (upd : UpdDict) :
    (updateSource env b upd).map statusOnly =
      (updateSource env b.statusOnly upd).map statusOnly := by
  have chroots := sourceChroots_statusOnly env b upd
  have known : ∀ l : List BuildChroot,
      (l.map BuildChroot.statusOnly).all (tagsKnown upd) = l.all (tagsKnown upd) := by
    intro l
    rw [List.all_map]
    rfl
  have sameKnown : (sourceChroots env b.statusOnly upd).all (tagsKnown upd) =
      (sourceChroots env b upd).all (tagsKnown upd) := by
    rw [← known, chroots, known]
  have empty : sourceChroots env b.statusOnly upd = [] ↔ sourceChroots env b upd = [] := by
    rw [← List.map_eq_nil_iff (f := BuildChroot.statusOnly), chroots, List.map_eq_nil_iff]
  have becomes : sourceBecomes env b.statusOnly upd = sourceBecomes env b upd := by
    unfold sourceBecomes
    simp only [empty]
  rw [updateSource_eq, updateSource_eq, sameKnown, becomes]
  split
  · simp only [Option.map_some, Option.some.injEq]
    refine statusOnly_congr ⟨rfl, rfl⟩ ⟨rfl, rfl⟩ rfl rfl rfl ?_
    dsimp only
    rw [map_statusOnly _ (sourceChroot_statusOnly env upd), ← chroots,
      ← map_statusOnly _ (sourceChroot_statusOnly env upd)]
  · rfl

/-- Reports need the deciding columns only. -/
theorem report_statusOnly (env : Surroundings) (b : Build) (upd : UpdDict) :
    (updateStateFromDict env b upd).map statusOnly =
      (updateStateFromDict env b.statusOnly upd).map statusOnly := by
  have answer : packageAnswer env b.statusOnly upd = packageAnswer env b upd := rfl
  rw [updateStateFromDict_eq, updateStateFromDict_eq, answer, withPackage_statusOnly]
  cases packageAnswer env b upd with
  | raced => simp
  | refused => rfl
  | present =>
    have task : (withPackage b upd).statusOnly.taskId = (withPackage b upd).taskId := rfl
    have reduced : (setAttributes (withPackage b upd) upd).statusOnly =
        (setAttributes (withPackage b upd).statusOnly upd).statusOnly :=
      (statusOnly_twice (withPackage b upd)).symm
    unfold updateAssigned
    dsimp only
    rw [task]
    split
    · rw [updateSource_statusOnly, reduced, ← updateSource_statusOnly]
    · simp only [Option.map_some, Option.some.injEq]
      refine statusOnly_congr ⟨rfl, rfl⟩ ⟨rfl, rfl⟩ rfl rfl rfl ?_
      exact map_statusOnly _ (updateChroot_statusOnly env upd)

/-! ## Messages -/

/-- A request that is an error leaves the row as it is. -/
theorem getD_statusOnly {updated reduced : Option Build}
    (same : updated.map statusOnly = reduced.map statusOnly) :
    (updated.getD b).statusOnly = (reduced.getD b.statusOnly).statusOnly := by
  cases updated with
  | none =>
    have none : reduced = none := Option.map_eq_none_iff.mp same.symm
    simp [none]
  | some new =>
    obtain ⟨other, rfl, equal⟩ := Option.map_eq_some_iff.mp same.symm
    exact equal.symm

/-- Starting a build needs the deciding columns only. -/
theorem startingBuild_statusOnly (env : Surroundings) (b : Build) (upd : UpdDict) :
    ((b.startingBuild env upd).map Prod.snd).map statusOnly =
      ((b.statusOnly.startingBuild env upd).map Prod.snd).map statusOnly := by
  have same : b.statusOnly.canceled = b.canceled := rfl
  have reported := report_statusOnly env b upd
  unfold startingBuild
  rw [same]
  split
  · simp
  · simpa [Option.map_map, Function.comp_def] using reported

/-- Rescheduling needs the deciding columns only. -/
theorem reschedule_statusOnly (env : Surroundings) (b : Build) (taskId : String)
    (chroot : Option String) :
    (b.rescheduleBuildChroot env taskId chroot).map statusOnly =
      (b.statusOnly.rescheduleBuildChroot env taskId chroot).map statusOnly := by
  have running : (b.buildChroots.map BuildChroot.statusOnly).any (fun c =>
        decide (some c.name = chroot) && decide (c.status ∈ StatusEnum.runStatuses)) =
      b.buildChroots.any fun c =>
        decide (some c.name = chroot) && decide (c.status ∈ StatusEnum.runStatuses) := by
    rw [List.any_map]
    rfl
  have kept : some b.statusOnly = some b.statusOnly.statusOnly := by rw [statusOnly_twice]
  unfold rescheduleBuildChroot
  rw [show b.statusOnly.canceled = b.canceled from rfl,
    show b.statusOnly.taskId = b.taskId from rfl,
    show b.statusOnly.sourceStatus = b.sourceStatus from rfl,
    show b.statusOnly.buildChroots = b.buildChroots.map BuildChroot.statusOnly from rfl, running]
  split
  · exact kept
  · split
    · split
      · exact report_statusOnly env b _
      · exact kept
    · split
      · exact report_statusOnly env b _
      · exact kept

/-- The import of a chroot needs the deciding columns only. -/
theorem importChroot_statusOnly (branchCommits : List (String × String)) (c : BuildChroot) :
    (importChroot branchCommits c).statusOnly =
      (importChroot branchCommits c.statusOnly).statusOnly := by
  have mock : c.statusOnly.mockChroot = c.mockChroot := rfl
  have status : c.statusOnly.status = c.status := rfl
  unfold importChroot
  rw [mock]
  cases branchCommits.lookup c.mockChroot.distgitBranchName with
  | none => rfl
  | some gitHash =>
    dsimp only
    rw [status]
    split <;> rfl

/-- The import needs the deciding columns only. -/
theorem import_statusOnly (b : Build) (branchCommits : List (String × String)) :
    (b.distGitUploadCompleted branchCommits).map statusOnly =
      (b.statusOnly.distGitUploadCompleted branchCommits).map statusOnly := by
  have all : (b.buildChroots.map BuildChroot.statusOnly).all (collected branchCommits) =
      b.buildChroots.all (collected branchCommits) := by
    rw [List.all_map]
    rfl
  have empty : (b.buildChroots.map BuildChroot.statusOnly).isEmpty = b.buildChroots.isEmpty := by
    cases b.buildChroots <;> rfl
  have chroots := map_statusOnly b.buildChroots (importChroot_statusOnly branchCommits)
  unfold distGitUploadCompleted
  rw [show b.statusOnly.buildChroots = b.buildChroots.map BuildChroot.statusOnly from rfl,
    show b.statusOnly.package = b.package from rfl, all, empty]
  dsimp only
  split
  · split
    · rfl
    · simp only [Option.map_some, Option.some.injEq]
      exact statusOnly_congr ⟨rfl, rfl⟩ ⟨rfl, rfl⟩ rfl rfl rfl chroots
  · simp only [Option.map_some, Option.some.injEq]
    exact statusOnly_congr ⟨rfl, rfl⟩ ⟨rfl, rfl⟩ rfl rfl rfl chroots

/-- Every message needs the deciding columns only. -/
theorem receive_statusOnly (b : Build) (m : Message) :
    (b.receive m).statusOnly = (b.statusOnly.receive m).statusOnly := by
  have addressed : b.statusOnly.addressed m = b.addressed m := by cases m <;> rfl
  unfold receive
  rw [addressed]
  split
  · apply getD_statusOnly
    cases m with
    | update env buildId upd => exact report_statusOnly env b upd
    | startingBuild env buildId upd => exact startingBuild_statusOnly env b upd
    | rescheduleBuildChroot env buildId taskId chroot =>
      exact reschedule_statusOnly env b taskId chroot
    | importCompleted buildId branchCommits => exact import_statusOnly b branchCommits
    | buildTaskCanceled taskId =>
      simp only [handle, buildTaskCanceled, Option.map_some, Option.some.injEq]
      split
      · refine statusOnly_congr ⟨rfl, rfl⟩ ⟨rfl, rfl⟩ rfl rfl rfl ?_
        refine map_statusOnly _ fun c => ?_
        rw [show b.statusOnly.chrootTaskId c.statusOnly = b.chrootTaskId c from rfl,
          show c.statusOnly.status = c.status from rfl]
        split <;> rfl
      · rw [show b.statusOnly.taskId = b.taskId from rfl,
          show b.statusOnly.sourceStatus = b.sourceStatus from rfl]
        split
        · exact statusOnly_congr ⟨rfl, rfl⟩ ⟨rfl, rfl⟩ rfl rfl rfl (chroots_twice b)
        · rw [statusOnly_twice]
    | cancelBuild buildId =>
      simp only [handle, BuildsLogic.cancelBuild, cancelable, statusOnly_finished]
      by_cases finished : b.finished = true
      · simp [finished]
      · simp only [eq_false_of_ne_true finished, Bool.not_false, if_true]
        exact congrArg some
          (statusOnly_congr ⟨rfl, rfl⟩ ⟨rfl, rfl⟩ rfl rfl rfl (chroots_twice b))
    | cancelBuildChrootsByMock mockChroot =>
      refine congrArg some (statusOnly_congr ⟨rfl, rfl⟩ ⟨rfl, rfl⟩ rfl rfl rfl ?_)
      refine map_statusOnly _ fun c => ?_
      rw [show canceledByMock mockChroot c.statusOnly = canceledByMock mockChroot c from rfl]
      split <;> rfl
  · rw [statusOnly_twice]

/-- The cancel requests of a message are decided by these columns. -/
theorem addedRequests_statusOnly (b : Build) (m : Message) :
    b.statusOnly.addedRequests m = b.addedRequests m := by
  have ids : ∀ l : List BuildChroot,
      (l.map BuildChroot.statusOnly).map b.statusOnly.chrootTaskId = l.map b.chrootTaskId := by
    intro l
    rw [List.map_map]
    rfl
  cases m with
  | cancelBuild buildId =>
    unfold addedRequests cancelBuildRequests cancelable
    rw [statusOnly_finished,
      show b.statusOnly.buildChroots = b.buildChroots.map BuildChroot.statusOnly from rfl, ids]
    rfl
  | cancelBuildChrootsByMock mockChroot =>
    show ((b.buildChroots.map BuildChroot.statusOnly).filter (canceledByMock mockChroot)).map
      b.statusOnly.chrootTaskId = (b.buildChroots.filter (canceledByMock mockChroot)).map
        b.chrootTaskId
    rw [List.filter_map, ids]
    rfl
  | _ => rfl

end Build

namespace Database

/-- A database with the deciding columns only. -/
def statusOnly (db : Database) : Database := { db with builds := db.builds.map Build.statusOnly }

variable {db db' : Database}

/-- Reducing twice is reducing once. -/
@[simp] theorem statusOnly_twice (db : Database) : db.statusOnly.statusOnly = db.statusOnly := by
  unfold statusOnly
  simp only [List.map_map, Database.mk.injEq, and_self, and_true]
  exact List.map_congr_left fun b _ => b.statusOnly_twice

/-- Builds changed one by one can be reduced before. -/
theorem map_statusOnly {f g : Build → Build} (builds : List Build)
    (agree : ∀ b, (f b).statusOnly = (g b.statusOnly).statusOnly) :
    (builds.map f).map Build.statusOnly =
      ((builds.map Build.statusOnly).map g).map Build.statusOnly := by
  simp only [List.map_map]
  exact List.map_congr_left fun b _ => agree b

/-- A build is found by its id among the reduced ones. -/
theorem find?_statusOnly (buildId : Nat) :
    db.statusOnly.builds.find? (fun b => decide (b.id = buildId)) =
      (db.builds.find? fun b => decide (b.id = buildId)).map Build.statusOnly := by
  unfold statusOnly
  rw [List.find?_map]
  rfl

/-- Whether a batch is finished is decided by these columns. -/
theorem batchFinished_statusOnly (cached : Nat → Bool) (batchId : Nat) :
    db.statusOnly.batchFinished cached batchId = db.batchFinished cached batchId := by
  have builds : db.statusOnly.batchBuilds batchId =
      (db.batchBuilds batchId).map Build.statusOnly := by
    unfold batchBuilds statusOnly
    rw [List.filter_map]
    rfl
  have all : ((db.batchBuilds batchId).map Build.statusOnly).all Build.finished =
      (db.batchBuilds batchId).all Build.finished := by
    rw [List.all_map]
    exact congrArg _ (funext fun b => b.statusOnly_finished)
  have empty : ((db.batchBuilds batchId).map Build.statusOnly).isEmpty =
      (db.batchBuilds batchId).isEmpty := by
    cases db.batchBuilds batchId <;> rfl
  unfold batchFinished
  rw [builds, all, empty]

/-- Whether a build may be used for batches is decided by these columns. -/
theorem batchingUserError_statusOnly (cached : Nat → Bool) (b : Build) (modify allowed : Bool) :
    db.statusOnly.batchingUserError cached b.statusOnly modify allowed =
      db.batchingUserError cached b modify allowed := by
  unfold batchingUserError
  rw [show b.statusOnly.batchId = b.batchId from rfl, b.statusOnly_finished]
  cases b.batchId with
  | none => rfl
  | some batchId => simp only [batchFinished_statusOnly]

/-- The batch of a build is found or created in the reduced database as well. -/
theorem getBatchOrCreate_statusOnly (db : Database) (cached : Nat → Bool) (buildId : Nat)
    (modify allowed : Bool) :
    (db.getBatchOrCreate cached buildId modify allowed).map (Prod.map id statusOnly) =
      (db.statusOnly.getBatchOrCreate cached buildId modify allowed).map
        (Prod.map id statusOnly) := by
  unfold getBatchOrCreate
  rw [find?_statusOnly]
  cases db.builds.find? fun b => decide (b.id = buildId) with
  | none => rfl
  | some b =>
    simp only [Option.map_some, batchingUserError_statusOnly]
    rw [show b.statusOnly.batchId = b.batchId from rfl]
    split
    · rfl
    cases b.batchId with
    | some batchId => simp
    | none =>
      simp only [Option.map_some, Prod.map_apply, Option.some.injEq, Prod.mk.injEq]
      refine ⟨rfl, ?_⟩
      unfold statusOnly newBatch
      dsimp only
      rw [map_statusOnly _ fun other => ?_]
      rw [show other.statusOnly.id = other.id from rfl]
      split
      · exact Build.statusOnly_congr ⟨rfl, rfl⟩ ⟨rfl, rfl⟩ rfl rfl rfl (Build.chroots_twice other)
      · exact other.statusOnly_twice.symm

/-- The batch options do the same to the reduced database. -/
theorem setupBatch_statusOnly (db : Database) (cached : Nat → Bool) (batching : Option Batching) :
    (db.setupBatch cached batching).map (Prod.map id statusOnly) =
      (db.statusOnly.setupBatch cached batching).map (Prod.map id statusOnly) := by
  have got := fun buildId modify allowed =>
    db.getBatchOrCreate_statusOnly cached buildId modify allowed
  cases batching with
  | none => simp [setupBatch]
  | some option =>
    cases option with
    | withBuild buildId allowed =>
      have same := congrArg (Option.map (Prod.map some id)) (got buildId true allowed)
      simpa [setupBatch, Option.map_map, Function.comp_def, Prod.map] using same
    | afterBuild buildId allowed =>
      have same := congrArg (Option.map fun found =>
        (some (newBatch found.2 (some found.1)).1, (newBatch found.2 (some found.1)).2))
        (got buildId false allowed)
      simpa [setupBatch, Option.map_map, Function.comp_def, Prod.map, newBatch, statusOnly]
        using same

/-- A forked build needs the deciding columns only. -/
theorem forkBuild_statusOnly (id : Nat) (b : Build) (chroots : List String) :
    (forkBuild id b chroots).statusOnly = (forkBuild id b.statusOnly chroots).statusOnly := by
  refine Build.statusOnly_congr ⟨rfl, rfl⟩ ⟨rfl, rfl⟩ rfl rfl rfl ?_
  unfold forkBuild
  dsimp only
  rw [show b.statusOnly.buildChroots = b.buildChroots.map BuildChroot.statusOnly from rfl,
    List.filter_map]
  simp only [List.map_map]
  rfl

/-- Forking a chroot needs the deciding columns only. -/
theorem forkRawhideChroot_statusOnly (rawhide dest : MockChroot) (b : Build) :
    (forkRawhideChroot rawhide dest b).statusOnly =
      (forkRawhideChroot rawhide dest b.statusOnly).statusOnly := by
  have found : b.statusOnly.buildChroots.find? (fun c => decide (c.name = rawhide.name)) =
      (b.buildChroots.find? fun c => decide (c.name = rawhide.name)).map
        BuildChroot.statusOnly := by
    show (b.buildChroots.map BuildChroot.statusOnly).find? _ = _
    rw [List.find?_map]
    rfl
  have apart : (∀ other ∈ b.statusOnly.buildChroots, other.name ≠ dest.name) ↔
      ∀ other ∈ b.buildChroots, other.name ≠ dest.name := by
    show (∀ other ∈ b.buildChroots.map BuildChroot.statusOnly, other.name ≠ dest.name) ↔ _
    rw [List.forall_mem_map]
    rfl
  unfold forkRawhideChroot
  rw [found]
  cases b.buildChroots.find? fun c => decide (c.name = rawhide.name) with
  | none => exact (b.statusOnly_twice).symm
  | some c =>
    simp only [Option.map_some, apart]
    rw [show c.statusOnly.status = c.status from rfl]
    split
    · refine Build.statusOnly_congr ⟨rfl, rfl⟩ ⟨rfl, rfl⟩ rfl rfl rfl ?_
      simp only [List.map_append, List.map_singleton]
      rw [Build.chroots_twice]
      rfl
    · exact (b.statusOnly_twice).symm

/-- Marking as failed needs the deciding columns only. -/
theorem markAsFailed_statusOnly (b : Build) :
    (BuildsLogic.markAsFailed b).statusOnly =
      (BuildsLogic.markAsFailed b.statusOnly).statusOnly := by
  refine Build.statusOnly_congr ⟨rfl, rfl⟩ ⟨rfl, rfl⟩ rfl rfl rfl ?_
  refine Build.map_statusOnly _ fun c => ?_
  rw [show c.statusOnly.status = c.status from rfl]
  split <;> rfl

/-- Every operation needs the deciding columns only. -/
theorem operate_statusOnly (db : Database) (op : Operation) :
    (db.operate op).map statusOnly = (db.statusOnly.operate op).map statusOnly := by
  have one : ∀ {f g : Build → Build},
      (∀ b, (f b).statusOnly = (g b.statusOnly).statusOnly) → ∀ buildId,
      (db.builds.map fun b => if b.id = buildId then f b else b).map Build.statusOnly =
        ((db.builds.map Build.statusOnly).map fun b =>
          if b.id = buildId then g b else b).map Build.statusOnly := by
    intro f g agree buildId
    refine map_statusOnly _ fun b => ?_
    rw [show b.statusOnly.id = b.id from rfl]
    split
    · exact agree b
    · exact b.statusOnly_twice.symm
  cases op with
  | message m =>
    have requests : (db.builds.map Build.statusOnly).flatMap (fun b => b.addedRequests m) =
        db.builds.flatMap fun b => b.addedRequests m := by
      simp only [List.flatMap_map, Build.addedRequests_statusOnly]
    have builds := map_statusOnly (f := fun b => b.receive m) (g := fun b => b.receive m) db.builds
      fun b => b.receive_statusOnly m
    simp only [operate, receive, statusOnly, requests, builds, Option.map_some]
  | add cached submission =>
    have set := db.setupBatch_statusOnly cached submission.batching
    simp only [operate, add]
    split
    · rfl
    · split
      · rfl
      · have same := congrArg (Option.map fun batched => statusOnly
          { batched.2 with
            builds := batched.2.builds ++
              [skipPreviouslySkipped submission.skipped
                (addedBuild batched.2.nextBuildId batched.1 submission)]
            nextBuildId := batched.2.nextBuildId + 1 }) set
        simpa [Option.map_map, Function.comp_def, Prod.map, statusOnly] using same
  | fork buildId chroots =>
    simp only [operate, find?_statusOnly, Option.map_map]
    cases db.builds.find? fun b => decide (b.id = buildId) with
    | none => rfl
    | some b =>
      have forked := forkBuild_statusOnly db.nextBuildId b chroots
      simp [statusOnly, forked]
  | rawhideToRelease buildId rawhide dest =>
    simp only [operate, statusOnly, Option.map_some]
    rw [one (forkRawhideChroot_statusOnly rawhide dest)]
  | markAsFailed buildId =>
    simp only [operate, statusOnly, Option.map_some]
    rw [one markAsFailed_statusOnly]
  | deleteBuild buildId =>
    have all : (db.builds.map Build.statusOnly).all
        (fun b => !decide (b.id = buildId) || b.finished) =
        db.builds.all fun b => !decide (b.id = buildId) || b.finished := by
      rw [List.all_map]
      refine congrArg _ (funext fun b => ?_)
      rw [Function.comp_apply, Build.statusOnly_finished]
      rfl
    simp only [operate, statusOnly, all]
    split
    · simp only [Option.map_some, List.filter_map, Option.some.injEq]
      exact (statusOnly_twice { db with
        builds := db.builds.filter fun b => decide (b.id ≠ buildId) }).symm
    · rfl

/-- Operations one after another; one that is an error changes nothing. -/
def operateAll (db : Database) (ops : List Operation) : Database :=
  ops.foldl (fun db op => (db.operate op).getD db) db

/-- Databases that agree in the deciding columns agree after any operations. -/
theorem operateAll_statusOnly (agree : db.statusOnly = db'.statusOnly) (ops : List Operation) :
    (db.operateAll ops).statusOnly = (db'.operateAll ops).statusOnly := by
  induction ops generalizing db db' with
  | nil => exact agree
  | cons op rest ih =>
    apply ih
    show ((db.operate op).getD db).statusOnly = ((db'.operate op).getD db').statusOnly
    have same : (db.operate op).map statusOnly = (db'.operate op).map statusOnly := by
      rw [operate_statusOnly db, operate_statusOnly db', agree]
    cases first : db.operate op with
    | none =>
      rw [first] at same
      rw [Option.map_eq_none_iff.mp same.symm]
      exact agree
    | some next =>
      rw [first] at same
      obtain ⟨other, second, equal⟩ := Option.map_eq_some_iff.mp same.symm
      rw [second]
      exact equal.symm

end Database

end Copr
