import Copr.Frontend.Operations

/-!
# Finished builds and the queue

`Build.finished` is derived from the canceled flag, the source status and all chroot statuses,
while `pending_jobs` looks at the canceled flag and one status at a time. They agree as long as
a failed or canceled source build has no chroot to be built and a build whose chroots are all
finished has no source build to be done. The condition on an operation says when it keeps this.
-/

namespace Copr

open Runs

namespace Build

open BuildsLogic

/-- The source task or a chroot task of the build would be listed, were it not blocked. -/
def Queued (b : Build) : Prop :=
  b.canceled = false ∧ (b.sourceStatus.Todo ∨ ∃ c ∈ b.buildChroots, c.status.Todo)

/-- What keeps a finished build out of the queue. -/
def QueueConsistent (b : Build) : Prop :=
  b.canceled = true ∨
    ((b.sourceStatus = .failed ∨ b.sourceStatus = .canceled →
        ∀ c ∈ b.buildChroots, ¬ c.status.Todo) ∧
      (b.sourceStatus.Todo → b.buildChroots = [] ∨ ∃ c ∈ b.buildChroots, ¬ c.status.Finished))

/-- Consistency is exactly that a finished build is not in the queue. -/
theorem queueConsistent_iff (b : Build) :
    b.QueueConsistent ↔ (b.finished = true → ¬ b.Queued) := by
  unfold QueueConsistent Queued finished finishedEarly
  by_cases canceled : b.canceled = true
  · simp [canceled]
  · have active : b.canceled = false := by simpa using canceled
    simp only [active, Bool.false_eq_true, false_or, true_and, Bool.false_or, decide_eq_true_eq]
    by_cases early : b.sourceStatus = .failed ∨ b.sourceStatus = .canceled
    · have notTodo : ¬ b.sourceStatus.Todo := by
        rcases early with same | same <;> rw [same] <;> decide
      simp [early, notTodo]
    · by_cases empty : b.buildChroots = []
      · have apart : b.sourceStatus.Finished → ¬ b.sourceStatus.Todo := fun finished =>
          finished.not_todo
        simpa [early, empty] using apart
      · simp only [early, empty, false_implies, true_and, false_or, if_false, List.isEmpty_iff,
          List.all_eq_true, decide_eq_true_eq, not_or]
        constructor
        · intro unfinished finished
          refine ⟨fun todo => ?_, fun ⟨c, member, todo⟩ => (finished c member).not_todo todo⟩
          obtain ⟨c, member, still⟩ := unfinished todo
          exact still (finished c member)
        · intro apart todo
          by_contra none
          push Not at none
          exact (apart none).1 todo

/-- The consistency of a build that is not canceled, whose chroots are changed one by one. -/
theorem queueConsistent_map {b' : Build} {chroots : List BuildChroot}
    {f : BuildChroot → BuildChroot} (active : b'.canceled = false)
    (changed : b'.buildChroots = chroots.map f) :
    b'.QueueConsistent ↔
      (b'.sourceStatus = .failed ∨ b'.sourceStatus = .canceled →
        ∀ c ∈ chroots, ¬ (f c).status.Todo) ∧
      (b'.sourceStatus.Todo → chroots = [] ∨ ∃ c ∈ chroots, ¬ (f c).status.Finished) := by
  simp [QueueConsistent, active, changed]

/-! ## The condition on a message -/

/-- A report that the source build is to be done leaves a chroot unfinished, one that it was
canceled leaves none to be built; a report that a chroot is to be built does not find the
source build failed or canceled, and one that it is finished does not find the source build to
be done and all other chroots finished. -/
def reportKeepsQueue (env : Surroundings) (b : Build) (upd : UpdDict) : Bool :=
  !taken env b upd ||
    if upd.taskId = b.taskId then
      if upd.status.Todo then
        b.buildChroots.isEmpty ||
          b.buildChroots.any fun c => !decide c.status.Finished && !skips upd c
      else if upd.status = .canceled then
        b.buildChroots.all fun c => !decide c.status.Todo || skips upd c
      else true
    else
      b.buildChroots.all fun c =>
        decide (upd.chroot ≠ some c.name) || decide c.status.Terminal ||
          if upd.status.Todo then
            decide (b.sourceStatus ≠ .failed ∧ b.sourceStatus ≠ .canceled)
          else if upd.status.Finished then
            !decide b.sourceStatus.Todo ||
              b.buildChroots.any fun d => decide (d.name ≠ c.name) && !decide d.status.Finished
          else true

/-- All branches are imported, or none of a chroot that is not skipped. -/
def importKeepsQueue (branchCommits : List (String × String)) (b : Build) : Bool :=
  b.buildChroots.all (collected branchCommits) ||
    b.buildChroots.all fun c => !collected branchCommits c || decide (c.status = .skipped)

/-- The chroots that are canceled are not the last unfinished ones of a build whose source
build is to be done. -/
def cancelKeepsQueue (canceled : BuildChroot → Bool) (b : Build) : Bool :=
  !decide b.sourceStatus.Todo || !b.buildChroots.any canceled ||
    b.buildChroots.any fun c => !decide c.status.Finished && !canceled c

/-- `build_task_canceled` cancels this chroot. -/
def ackCancels (taskId : String) (b : Build) (c : BuildChroot) : Bool :=
  decide (b.chrootTaskId c = taskId) && !decide c.status.Finished

/-- The message finds the build in a state in which it keeps the queue consistent. -/
def keepsQueue (b : Build) (m : Message) : Bool :=
  b.canceled ||
    match m with
    | .update env _ upd => reportKeepsQueue env b upd
    | .startingBuild env _ upd => reportKeepsQueue env b upd
    | .importCompleted _ branchCommits => importKeepsQueue branchCommits b
    | .buildTaskCanceled taskId =>
      if '-' ∈ taskId.toList then cancelKeepsQueue (ackCancels taskId b) b
      else decide (taskId ≠ b.taskId) || decide b.sourceStatus.Finished ||
        b.buildChroots.all fun c => !decide c.status.Todo
    | .cancelBuildChrootsByMock mockChroot => cancelKeepsQueue (canceledByMock mockChroot) b
    | _ => true

/-! ## Every message keeps the queue consistent -/

section Messages

variable {b : Build} {env : Surroundings} {upd : UpdDict} (active : b.canceled = false)

include active

/-- A report about the source build. -/
theorem sourceReport_queueConsistent {b' : Build} (accepted : taken env b upd = true)
    (task : upd.taskId = b.taskId) (row : SameRow b b')
    (status : b'.sourceStatus = sourceBecomes env (withPackage b upd) upd)
    (chroots : b'.buildChroots =
      (sourceChroots env (withPackage b upd) upd).map (sourceChroot env upd)) :
    b'.QueueConsistent ↔ reportKeepsQueue env b upd = true := by
  have sameChroots := (withPackage_keeps b upd).2.2
  rw [queueConsistent_map (row.canceled.trans active) chroots, reportKeepsQueue, accepted,
    if_pos task]
  simp only [sourceChroot_status, status, Bool.not_true, Bool.false_or]
  by_cases settles : upd.status = .succeeded ∨ upd.status = .failed ∨ upd.status = .skipped
  · have todo := sourceBecomes_settled env (withPackage b upd) settles
    have other : ¬ upd.status.Todo ∧ upd.status ≠ .canceled := by
      rcases settles with same | same | same <;> rw [same] <;> decide
    simp only [if_neg other.1, if_neg other.2, iff_true]
    exact ⟨fun _ c _ => sourceGives_settled settles, fun handed => absurd handed todo⟩
  · have succeeded : upd.status ≠ .succeeded := fun same => settles (.inl same)
    have failed : upd.status ≠ .failed := fun same => settles (.inr (.inl same))
    have old : sourceChroots env (withPackage b upd) upd = b.buildChroots := by
      rw [sourceChroots, sameChroots, if_neg (fun both => succeeded both.1)]
    simp only [old, sourceBecomes, if_neg succeeded, failed, false_or, sourceGives_other settles]
    by_cases todo : upd.status.Todo
    · have canceled : upd.status ≠ .canceled := by
        intro same
        rw [same] at todo
        revert todo
        decide
      simp only [canceled, todo, if_pos, false_implies, true_and, true_implies, Bool.or_eq_true,
        List.isEmpty_iff, List.any_eq_true, Bool.and_eq_true, Bool.not_eq_true',
        decide_eq_false_iff_not]
      refine or_congr_right (exists_congr fun c => and_congr_right fun _ => ?_)
      have finished : StatusEnum.skipped.Finished := by decide
      by_cases skipped : skips upd c = true <;> simp [skipped, finished]
    · by_cases canceled : upd.status = .canceled
      · rw [if_neg todo, if_pos canceled, and_iff_left fun handed => absurd handed todo]
        simp only [canceled, true_implies, List.all_eq_true, Bool.or_eq_true, Bool.not_eq_true',
          decide_eq_false_iff_not]
        refine forall₂_congr fun c _ => ?_
        have handed : ¬ StatusEnum.skipped.Todo := by decide
        by_cases skipped : skips upd c = true <;> simp [skipped, handed]
      · simp [todo, canceled]

variable (consistent : b.QueueConsistent)

include consistent

/-- Consistency of a build that is not canceled. -/
theorem queueConsistent_parts :
    (b.sourceStatus = .failed ∨ b.sourceStatus = .canceled →
        ∀ c ∈ b.buildChroots, ¬ c.status.Todo) ∧
      (b.sourceStatus.Todo → b.buildChroots = [] ∨ ∃ c ∈ b.buildChroots, ¬ c.status.Finished) := by
  rcases consistent with canceled | parts
  · rw [active] at canceled
    contradiction
  · exact parts

/-- Chroots with the statuses they had keep the queue consistent. -/
theorem sameStatuses_queueConsistent {b' : Build} {f : BuildChroot → BuildChroot}
    (row : SameRow b b') (status : b'.sourceStatus = b.sourceStatus)
    (chroots : b'.buildChroots = b.buildChroots.map f)
    (same : ∀ c ∈ b.buildChroots, (f c).status = c.status) : b'.QueueConsistent := by
  obtain ⟨early, late⟩ := queueConsistent_parts active consistent
  rw [queueConsistent_map (row.canceled.trans active) chroots, status]
  refine ⟨fun failed c member => (same c member).symm ▸ early failed c member, fun todo => ?_⟩
  rcases late todo with empty | ⟨c, member, unfinished⟩
  · exact .inl empty
  · exact .inr ⟨c, member, (same c member).symm ▸ unfinished⟩

section Touched

variable {b' : Build} {c : BuildChroot} (row : SameRow b b')
  (status : b'.sourceStatus = b.sourceStatus)
  (chroots : b'.buildChroots = b.buildChroots.map (updateChroot env upd))
  (member : c ∈ b.buildChroots) (named : upd.chroot = some c.name)
  (unsettled : ¬ c.status.Terminal)

include row status chroots member named unsettled

omit consistent in
/-- A report that a chroot is to be built. -/
theorem todoReport_queueConsistent (todo : upd.status.Todo) :
    b'.QueueConsistent ↔ b.sourceStatus ≠ .failed ∧ b.sourceStatus ≠ .canceled := by
  have becomes : (updateChroot env upd c).status = upd.status := by
    rw [updateChroot_status, if_pos ⟨named, unsettled⟩]
  rw [queueConsistent_map (row.canceled.trans active) chroots, status]
  constructor
  · rintro ⟨early, -⟩
    exact ⟨fun failed => early (.inl failed) c member (becomes ▸ todo),
      fun canceled => early (.inr canceled) c member (becomes ▸ todo)⟩
  · rintro ⟨notFailed, notCanceled⟩
    refine ⟨fun failed => ?_, fun _ => .inr ⟨c, member, fun finished => ?_⟩⟩
    · exact failed.elim (absurd · notFailed) (absurd · notCanceled)
    · exact (becomes ▸ finished).not_todo todo

omit unsettled in
/-- A report that a chroot is finished. -/
theorem finishedReport_queueConsistent (finished : upd.status.Finished) :
    b'.QueueConsistent ↔ ¬ b.sourceStatus.Todo ∨
      ∃ d ∈ b.buildChroots, d.name ≠ c.name ∧ ¬ d.status.Finished := by
  obtain ⟨early, -⟩ := queueConsistent_parts active consistent
  rw [queueConsistent_map (row.canceled.trans active) chroots, status, and_iff_right ?_,
    Decidable.imp_iff_not_or]
  · refine or_congr_right ⟨fun left => ?_, ?_⟩
    · obtain ⟨d, memberD, unfinished⟩ := left.resolve_left (List.ne_nil_of_mem member)
      -- Otherwise the report would have finished this chroot as well.
      have untouched : ¬ (upd.chroot = some d.name ∧ ¬ d.status.Terminal) := fun both =>
        unfinished (by rwa [updateChroot_status, if_pos both])
      rw [updateChroot_status, if_neg untouched] at unfinished
      refine ⟨d, memberD, fun same => untouched ⟨same ▸ named, ?_⟩, unfinished⟩
      exact fun terminal => unfinished terminal.finished
    · rintro ⟨d, memberD, other, unfinished⟩
      refine .inr ⟨d, memberD, ?_⟩
      rwa [updateChroot_status,
        if_neg fun both => other (Option.some.inj (both.1.symm.trans named))]
  · intro failed d memberD
    rw [updateChroot_status]
    split
    · exact finished.not_todo
    · exact early failed d memberD

/-- A report that a chroot is neither to be built nor finished. -/
theorem otherReport_queueConsistent (todo : ¬ upd.status.Todo)
    (finished : ¬ upd.status.Finished) : b'.QueueConsistent := by
  obtain ⟨early, -⟩ := queueConsistent_parts active consistent
  rw [queueConsistent_map (row.canceled.trans active) chroots, status]
  refine ⟨fun failed d memberD => ?_, fun _ => .inr ⟨c, member, ?_⟩⟩
  · rw [updateChroot_status]
    split
    · exact todo
    · exact early failed d memberD
  · rwa [updateChroot_status, if_pos ⟨named, unsettled⟩]

end Touched

/-- A report about a chroot. -/
theorem chrootReport_queueConsistent {b' : Build} (accepted : taken env b upd = true)
    (task : upd.taskId ≠ b.taskId) (row : SameRow b b') (status : b'.sourceStatus = b.sourceStatus)
    (chroots : b'.buildChroots = b.buildChroots.map (updateChroot env upd)) :
    b'.QueueConsistent ↔ reportKeepsQueue env b upd = true := by
  rw [reportKeepsQueue, accepted, if_neg task]
  simp only [Bool.not_true, Bool.false_or, List.all_eq_true, Bool.or_eq_true, decide_eq_true_eq]
  by_cases touched : ∃ c ∈ b.buildChroots, upd.chroot = some c.name ∧ ¬ c.status.Terminal
  · obtain ⟨c, member, named, unsettled⟩ := touched
    -- All touched chroots bear the name of this one, so one condition covers them.
    have one : ∀ K : String → Prop, (∀ d ∈ b.buildChroots,
        (upd.chroot ≠ some d.name ∨ d.status.Terminal) ∨ K d.name) ↔ K c.name := by
      intro K
      constructor
      · intro each
        exact (each c member).resolve_left
          (not_or.mpr ⟨fun unnamed => unnamed named, unsettled⟩)
      · intro kept d _
        by_cases same : upd.chroot = some d.name
        · exact .inr (Option.some.inj (named.symm.trans same) ▸ kept)
        · exact .inl (.inl same)
    by_cases todo : upd.status.Todo
    · simp only [if_pos todo, decide_eq_true_eq]
      rw [todoReport_queueConsistent active row status chroots member named unsettled todo]
      exact (one fun _ => _).symm
    · by_cases finished : upd.status.Finished
      · simp only [if_neg todo, if_pos finished, Bool.or_eq_true, Bool.not_eq_true',
          decide_eq_false_iff_not, List.any_eq_true, Bool.and_eq_true, decide_eq_true_eq]
        rw [finishedReport_queueConsistent active consistent row status chroots member named
          finished]
        exact (one fun name => ¬ b.sourceStatus.Todo ∨
          ∃ d ∈ b.buildChroots, d.name ≠ name ∧ ¬ d.status.Finished).symm
      · simp only [if_neg todo, if_neg finished, or_true, implies_true, iff_true]
        exact otherReport_queueConsistent active consistent row status chroots member named
          unsettled todo finished
  · push Not at touched
    refine iff_of_true (sameStatuses_queueConsistent active consistent row status chroots ?_) ?_
    · intro c member
      rw [updateChroot_status, if_neg fun both => both.2 (touched c member both.1)]
    · intro c member
      by_cases named : upd.chroot = some c.name
      · exact .inl (.inr (touched c member named))
      · exact .inl (.inl named)

/-- An import leaves what keeps a finished build out of the queue exactly under its condition. -/
theorem import_queueConsistent (branchCommits : List (String × String)) :
    ((b.distGitUploadCompleted branchCommits).getD b).QueueConsistent ↔
      importKeepsQueue branchCommits b = true := by
  have failed : ∀ b' : Build, b'.canceled = false → b'.sourceStatus = .failed →
      b'.buildChroots = b.buildChroots.map (importChroot branchCommits) →
      (b'.QueueConsistent ↔ (b.buildChroots.all fun c =>
        !collected branchCommits c || decide (c.status = .skipped)) = true) := by
    intro b' active' status chroots
    have notTodo : ¬ StatusEnum.failed.Todo := by decide
    rw [queueConsistent_map active' chroots, status]
    simp only [notTodo, true_or, true_implies, false_implies, and_true, List.all_eq_true,
      Bool.or_eq_true, Bool.not_eq_true', decide_eq_true_eq]
    refine forall₂_congr fun c _ => ?_
    unfold importChroot collected
    cases branchCommits.lookup c.mockChroot.distgitBranchName with
    | none => simp [notTodo]
    | some gitHash =>
      have pending : StatusEnum.pending.Todo := by decide
      have skipped : ¬ StatusEnum.skipped.Todo := by decide
      by_cases same : c.status = .skipped <;> simp [same, pending, skipped]
  unfold distGitUploadCompleted importKeepsQueue
  by_cases all : b.buildChroots.all (collected branchCommits) = true
  · have notTodo : ¬ StatusEnum.succeeded.Todo := by decide
    rw [if_pos all, all, Bool.true_or, eq_self, iff_true]
    split
    · exact consistent
    · exact .inr ⟨fun early => by simp at early, fun todo => absurd todo notTodo⟩
  · rw [if_neg all, Option.getD_some]
    refine (failed _ ?_ ?_ ?_).trans ?_
    · exact active
    · rfl
    · rfl
    · simp [all]

/-- The cancelation of some chroots. -/
theorem cancel_queueConsistent {b' : Build} {canceled : BuildChroot → Bool}
    {f : BuildChroot → BuildChroot} (row : SameRow b b')
    (status : b'.sourceStatus = b.sourceStatus) (chroots : b'.buildChroots = b.buildChroots.map f)
    (marks : ∀ c, (f c).status = if canceled c then .canceled else c.status) :
    b'.QueueConsistent ↔ cancelKeepsQueue canceled b = true := by
  unfold cancelKeepsQueue
  by_cases some : b.buildChroots.any canceled = true
  · obtain ⟨early, -⟩ := queueConsistent_parts active consistent
    obtain ⟨c, member, -⟩ := List.any_eq_true.mp some
    have nonempty : b.buildChroots ≠ [] := List.ne_nil_of_mem member
    have notTodo : ¬ StatusEnum.canceled.Todo := by decide
    have finished : StatusEnum.canceled.Finished := by decide
    rw [queueConsistent_map (row.canceled.trans active) chroots, status, and_iff_right ?_]
    · simp only [nonempty, false_or, some, Bool.not_true, Bool.or_false, Bool.or_eq_true,
        Bool.not_eq_true', decide_eq_false_iff_not, List.any_eq_true, Bool.and_eq_true,
        Decidable.imp_iff_not_or, marks]
      refine or_congr_right (exists_congr fun c => and_congr_right fun _ => ?_)
      by_cases same : canceled c = true <;> simp [same, finished]
    · intro failed c member
      rw [marks]
      split
      · exact notTodo
      · exact early failed c member
  · have none : ∀ c ∈ b.buildChroots, ¬ canceled c = true := by simpa using some
    refine iff_of_true (sameStatuses_queueConsistent active consistent row status chroots ?_)
      (by simp [some])
    intro c member
    rw [marks, if_neg (none c member)]

/-- A report leaves what keeps a finished build out of the queue exactly under its condition. -/
theorem report_queueConsistent (env : Surroundings) (upd : UpdDict) :
    ((updateStateFromDict env b upd).getD b).QueueConsistent ↔
      reportKeepsQueue env b upd = true := by
  cases updateStateFromDict_reported env b upd with
  | ignored refused same =>
    rw [same, reportKeepsQueue, refused]
    simp [consistent]
  | source accepted task row _ status chroots =>
    exact sourceReport_queueConsistent active accepted task row status chroots
  | chroot accepted task row _ status chroots =>
    exact chrootReport_queueConsistent active consistent accepted task row status chroots

/-- Rescheduling a running task. -/
theorem reschedule_queueConsistent (env : Surroundings) (taskId : String)
    (chroot : Option String) :
    ((b.rescheduleBuildChroot env taskId chroot).getD b).QueueConsistent := by
  rcases b.reschedule_cases env taskId chroot with same | ⟨upd, pending, plain, -, same, kind⟩
  · rw [same]
    exact consistent
  · obtain ⟨early, late⟩ := queueConsistent_parts active consistent
    have todo : upd.status.Todo := by
      rw [pending]
      decide
    rw [same, report_queueConsistent active consistent, reportKeepsQueue]
    rcases kind with ⟨task, running⟩ | ⟨task, c, member, -, running⟩
    · rw [if_pos task, if_pos todo]
      have skipsNone : ∀ c, skips upd c = false := fun c => by simp [skips, plain]
      rcases late (StatusEnum.todo_of_run running) with empty | ⟨c, member, unfinished⟩
      · simp [empty]
      · simp only [skipsNone, Bool.or_eq_true, List.any_eq_true, Bool.not_false, Bool.and_true,
          Bool.not_eq_true', decide_eq_false_iff_not]
        exact .inr (.inr ⟨c, member, unfinished⟩)
    · have alive : b.sourceStatus ≠ .failed ∧ b.sourceStatus ≠ .canceled :=
        ⟨fun failed => early (.inl failed) c member (StatusEnum.todo_of_run running),
          fun canceled => early (.inr canceled) c member (StatusEnum.todo_of_run running)⟩
      simp [task, todo, alive]

/-- The acknowledgement of a canceled task. -/
theorem ack_queueConsistent (taskId : String) :
    (b.buildTaskCanceled taskId).QueueConsistent ↔
      keepsQueue b (.buildTaskCanceled taskId) = true := by
  unfold keepsQueue
  rw [active, Bool.false_or, buildTaskCanceled]
  by_cases chroot : '-' ∈ taskId.toList
  · simp only [if_pos chroot]
    refine cancel_queueConsistent active consistent ⟨rfl, rfl, rfl, rfl⟩ rfl rfl fun c => ?_
    unfold ackCancels
    by_cases same : b.chrootTaskId c = taskId ∧ ¬ c.status.Finished
    · simp [same]
    · rw [if_neg same, if_neg (by simpa using same)]
  · simp only [if_neg chroot]
    by_cases source : taskId = b.taskId ∧ ¬ b.sourceStatus.Finished
    · have notTodo : ¬ StatusEnum.canceled.Todo := by decide
      rw [if_pos source]
      simp [QueueConsistent, active, source, notTodo]
    · rw [if_neg source]
      rw [not_and_or, not_not] at source
      refine iff_of_true consistent ?_
      rcases source with other | finished
      · simp [other]
      · simp [finished]

end Messages

/-- A message keeps the queue consistent exactly under its condition. -/
theorem receive_queueConsistent {b : Build} (consistent : b.QueueConsistent) (m : Message) :
    (b.receive m).QueueConsistent ↔ (b.addressed m = true → b.keepsQueue m = true) := by
  by_cases canceled : b.canceled = true
  · exact iff_of_true (.inl (receive_canceled canceled m)) fun _ => by simp [keepsQueue, canceled]
  · have active : b.canceled = false := by simpa using canceled
    unfold receive
    by_cases addressed : b.addressed m = true
    · rw [if_pos addressed]
      simp only [addressed, true_implies]
      cases m with
      | update env buildId upd =>
        simp only [keepsQueue, active, Bool.false_or]
        exact report_queueConsistent active consistent env upd
      | startingBuild env buildId upd =>
        rw [handle_startingBuild, if_neg canceled]
        simp only [keepsQueue, active, Bool.false_or]
        exact report_queueConsistent active consistent env upd
      | rescheduleBuildChroot env buildId taskId chroot =>
        simp only [keepsQueue, Bool.or_true, iff_true]
        exact reschedule_queueConsistent active consistent env taskId chroot
      | importCompleted buildId branchCommits =>
        simp only [keepsQueue, active, Bool.false_or]
        exact import_queueConsistent active consistent branchCommits
      | buildTaskCanceled taskId => exact ack_queueConsistent active consistent taskId
      | cancelBuild buildId =>
        simp only [keepsQueue, Bool.or_true, iff_true, handle, BuildsLogic.cancelBuild]
        split
        · exact .inl rfl
        · exact consistent
      | cancelBuildChrootsByMock mockChroot =>
        simp only [keepsQueue, active, Bool.false_or]
        refine cancel_queueConsistent active consistent ⟨rfl, rfl, rfl, rfl⟩ rfl rfl fun c => ?_
        split <;> simp_all
    · rw [if_neg addressed]
      simp [addressed, consistent]

/-- Builds that differ in id and batch only. -/
theorem QueueConsistent.congr {b b' : Build} (consistent : b.QueueConsistent)
    (canceled : b'.canceled = b.canceled) (status : b'.sourceStatus = b.sourceStatus)
    (chroots : b'.buildChroots = b.buildChroots) : b'.QueueConsistent := by
  unfold QueueConsistent
  rw [canceled, status, chroots]
  exact consistent

/-- A build whose source status neither failed nor is to be done is consistent. -/
theorem queueConsistent_of_apart {b : Build}
    (status : b.sourceStatus ≠ .failed ∧ b.sourceStatus ≠ .canceled ∧ ¬ b.sourceStatus.Todo) :
    b.QueueConsistent :=
  .inr ⟨fun early => early.elim (absurd · status.1) (absurd · status.2.1),
    fun todo => absurd todo status.2.2⟩

/-- Marking a build as failed leaves nothing to be done. -/
theorem markAsFailed_queueConsistent (b : Build) :
    (BuildsLogic.markAsFailed b).QueueConsistent := by
  have failed : ¬ StatusEnum.failed.Todo := by decide
  refine .inr ⟨fun _ c member => ?_, fun todo => ?_⟩
  · obtain ⟨d, -, rfl⟩ := List.mem_map.mp member
    by_cases succeeded : d.status = .succeeded
    · rw [if_pos succeeded, succeeded]
      decide
    · rw [if_neg succeeded]
      exact failed
  · have apart : ¬ (BuildsLogic.markAsFailed b).sourceStatus.Todo := by
      unfold BuildsLogic.markAsFailed
      dsimp only
      by_cases succeeded : b.sourceStatus = .succeeded
      · rw [if_pos succeeded, succeeded]
        decide
      · rw [if_neg succeeded]
        exact failed
    exact absurd todo apart

/-- A forked chroot comes to a build that has a succeeded one. -/
theorem forkRawhideChroot_queueConsistent {b : Build} (consistent : b.QueueConsistent)
    (rawhide dest : MockChroot) :
    (Database.forkRawhideChroot rawhide dest b).QueueConsistent := by
  unfold Database.forkRawhideChroot
  split
  · exact consistent
  · rename_i c found
    have forked : ¬ StatusEnum.forked.Todo := by decide
    split
    · refine consistent.imp_right fun ⟨early, late⟩ => ⟨fun failed d member => ?_, fun todo => ?_⟩
      · rcases List.mem_append.mp member with old | new
        · exact early failed d old
        · rw [List.mem_singleton.mp new]
          exact forked
      · rcases late todo with empty | ⟨d, member, unfinished⟩
        · exact absurd empty (List.ne_nil_of_mem (List.mem_of_find?_eq_some found))
        · exact .inr ⟨d, List.mem_append_left _ member, unfinished⟩
    · exact consistent

end Build

namespace Database

/-- A submission leaves a chroot to be built, unless it has none or is imported already. -/
def submissionKeepsQueue (s : Submission) : Bool :=
  s.skipImport || s.chroots.chroots.isEmpty ||
    s.chroots.chroots.any fun m => decide (m.name ∉ s.skipped)

/-- The operation finds the database in a state in which it keeps the queue consistent. -/
def keepsQueue (db : Database) : Operation → Bool
  | .message m => db.builds.all fun b => !b.addressed m || b.keepsQueue m
  | .add _ s => submissionKeepsQueue s
  | _ => true

/-- All builds keep out of the queue once they are finished. -/
def QueueConsistent (db : Database) : Prop := ∀ b ∈ db.builds, b.QueueConsistent

/-- A new build is consistent exactly under its condition. -/
theorem added_queueConsistent (id : Nat) (batchId : Option Nat) (s : Submission) :
    (skipPreviouslySkipped s.skipped (addedBuild id batchId s)).QueueConsistent ↔
      submissionKeepsQueue s = true := by
  unfold submissionKeepsQueue
  by_cases imported : s.skipImport = true
  · refine iff_of_true (Build.queueConsistent_of_apart ?_) (by simp [imported])
    have apart : StatusEnum.succeeded ≠ .failed ∧ StatusEnum.succeeded ≠ .canceled ∧
        ¬ StatusEnum.succeeded.Todo := by decide
    simpa [skipPreviouslySkipped, addedBuild, imported] using apart
  · have pending : StatusEnum.pending.Todo := by decide
    have skipped : StatusEnum.skipped.Finished := by decide
    have waiting : ¬ StatusEnum.waiting.Finished := by decide
    simp only [Build.QueueConsistent, skipPreviouslySkipped, addedBuild, imported,
      Bool.false_eq_true, if_false, BuildChroot.name, List.map_map, reduceCtorEq, or_self,
      List.mem_map, Function.comp_apply, false_implies, pending, List.map_eq_nil_iff,
      exists_exists_and_eq_and, true_implies, true_and, false_or, Bool.false_or, Bool.or_eq_true,
      List.isEmpty_iff, List.any_eq_true, decide_eq_true_eq]
    refine or_congr_right (exists_congr fun m => and_congr_right fun _ => not_congr ?_)
    by_cases named : m.name ∈ s.skipped
    · simp [named, skipped]
    · simp [named, waiting]

/-- An operation keeps the queue consistent exactly under its condition. -/
theorem operate_queueConsistent {db db' : Database} {op : Operation}
    (consistent : db.QueueConsistent) (operated : db.operate op = some db') :
    db'.QueueConsistent ↔ db.keepsQueue op = true := by
  unfold QueueConsistent
  cases operate_operated operated with
  | message m =>
    simp only [receive, List.forall_mem_map, keepsQueue, List.all_eq_true, Bool.or_eq_true,
      Bool.not_eq_true']
    refine forall₂_congr fun b member => ?_
    rw [Build.receive_queueConsistent (consistent b member) m]
    by_cases addressed : b.addressed m = true <;> simp [addressed]
  | add cached s grown batchId set =>
    obtain ⟨batch, builds⟩ := (setupBatch_rebatched set).builds
    have old : ∀ b ∈ grown.builds, b.QueueConsistent := by
      intro b member
      rw [builds] at member
      obtain ⟨c, inside, rfl⟩ := List.mem_map.mp member
      exact (consistent c inside).congr rfl rfl rfl
    simp only [List.forall_mem_append, List.forall_mem_singleton, keepsQueue]
    rw [and_iff_right old, added_queueConsistent]
  | fork b chroots member =>
    refine iff_of_true ?_ rfl
    simp only [List.forall_mem_append, List.forall_mem_singleton]
    exact ⟨consistent, Build.queueConsistent_of_apart (by simp [forkBuild]; decide)⟩
  | rawhideToRelease buildId rawhide dest =>
    refine iff_of_true ?_ rfl
    simp only [List.forall_mem_map]
    intro b member
    split
    · exact Build.forkRawhideChroot_queueConsistent (consistent b member) rawhide dest
    · exact consistent b member
  | markAsFailed buildId =>
    refine iff_of_true ?_ rfl
    simp only [List.forall_mem_map]
    intro b member
    split
    · exact Build.markAsFailed_queueConsistent b
    · exact consistent b member
  | deleteBuild buildId finished =>
    exact iff_of_true (fun b member => consistent b (List.mem_of_mem_filter member)) rfl

/-- What is listed belongs to a build in the queue. -/
theorem listed_queued {db : Database} {cached : Nat → Bool} {record : JobRecord}
    (listed : record ∈ db.pendingJobs cached) :
    ∃ b ∈ db.builds, record.buildId = b.id ∧ b.Queued := by
  obtain ⟨b, member, active, -, ⟨rfl, todo⟩ | ⟨c, inside, rfl, todo⟩⟩ := mem_pendingJobs.mp listed
  · exact ⟨b, member, rfl, active, .inl todo⟩
  · exact ⟨b, member, rfl, active, .inr ⟨c, inside, todo⟩⟩

/-- In every run of operations that each find the rows they are about in a state in which they
keep the queue consistent, no task of a finished build is listed; and from the state reached an
operation leads to such a state exactly if it does so as well. -/
theorem finished_builds_not_queued {db : Database}
    (run : Run operate (fun db op => db.keepsQueue op = true) empty db) :
    (∀ cached, ∀ b ∈ db.builds, b.finished = true →
        ∀ record ∈ db.pendingJobs cached, record.buildId ≠ b.id) ∧
      ∀ op db', db.operate op = some db' →
        ((∀ b ∈ db'.builds, b.finished = true → ¬ b.Queued) ↔ db.keepsQueue op = true) := by
  have both : db.IdsKnown ∧ db.QueueConsistent := by
    refine run_invariant (fun t => t.IdsKnown ∧ t.QueueConsistent) ?_ run
      ⟨⟨List.nodup_nil, by simp [empty]⟩, by simp [QueueConsistent, empty]⟩
    rintro t op u ⟨ids, consistent⟩ keeps operated
    exact ⟨operate_idsKnown ids operated, (operate_queueConsistent consistent operated).mpr keeps⟩
  constructor
  · intro cached b member finished record listed same
    obtain ⟨c, inside, known, queued⟩ := listed_queued listed
    obtain rfl := both.1.eq inside member (known.symm.trans same)
    exact c.queueConsistent_iff.mp (both.2 c inside) finished queued
  · intro op db' operated
    rw [← operate_queueConsistent both.2 operated]
    exact forall₂_congr fun b _ => b.queueConsistent_iff.symm

/-- A build whose chroots end in different ways is finished, and nothing of it is listed. -/
theorem finished_builds_not_queued_ended :
    ∃ db : Database, db.builds.map Build.finished = [true] ∧
      ∀ b ∈ db.builds, ∀ record ∈ db.pendingJobs fun _ => false, record.buildId ≠ b.id := by
  obtain ⟨db, run, finished⟩ := exec_observe operate keepsQueue empty
    [Sample.submitted, .message (Sample.sourceReport .running),
      .message (Sample.sourceReport .succeeded), .message Sample.imported,
      .message (Sample.chrootReport .running), .message (Sample.chrootReport .succeeded),
      .message (.buildTaskCanceled "1-epel-9-x86_64")]
    (fun db => db.builds.map Build.finished) [true] rfl
  refine ⟨db, finished, fun b member record listed => ?_⟩
  have all : ∀ f ∈ db.builds.map Build.finished, f = true := by simp [finished]
  exact (finished_builds_not_queued run).1 _ b member (all _ (List.mem_map_of_mem member)) record
    listed

/-- When dist-git imports one of two branches, the build has failed, and yet the chroot on this
branch is handed to the backend. -/
theorem failed_import_still_queued : ¬ ∀ db : Database, Run operate anyEvent empty db →
    ∀ cached, ∀ b ∈ db.builds, b.finished = true →
      ∀ record ∈ db.pendingJobs cached, record.buildId ≠ b.id := by
  intro claimed
  obtain ⟨db, run, seen⟩ := exec_observe operate (fun _ _ => true) empty
    [Sample.submitted, .message (Sample.sourceReport .succeeded),
      .message (.importCompleted 1 [("f39", "c0ffee")])]
    (fun db => (db.builds.map fun b => (b.id, b.finished),
      (db.pendingJobs fun _ => false).map JobRecord.buildId)) ([(1, true)], [1]) rfl
  simp only [Prod.mk.injEq] at seen
  obtain ⟨builds, listed⟩ := seen
  obtain ⟨b, member, same⟩ := List.mem_map.mp (builds ▸ List.mem_singleton_self (1, true))
  obtain ⟨record, inside, buildId⟩ := List.mem_map.mp (listed ▸ List.mem_singleton_self 1)
  simp only [Prod.mk.injEq] at same
  exact claimed db (run_weaken (fun _ _ _ => trivial) run) _ b member same.2 record inside
    (buildId.trans same.1.symm)

end Database

end Copr
