import Copr.Frontend.Batches

/-!
# Open tasks

A task is open while its build is not canceled and its status is one that is handed to the
backend. Here is which operations take an open task back, so that all others leave it in the
queue.
-/

namespace Copr

namespace Build

open BuildsLogic

/-- The build has an open task of this id. -/
def Carries (b : Build) (taskId : String) : Prop :=
  (taskId = b.taskId ∧ b.sourceStatus.Todo) ∨
    ∃ c ∈ b.buildChroots, taskId = b.chrootTaskId c ∧ c.status.Todo

/-- A report that the source task is not to be done any more. -/
def reportTakesSource (env : Surroundings) (b : Build) (upd : UpdDict) : Bool :=
  taken env b upd && decide (upd.taskId = b.taskId) && !decide upd.status.Todo

/-- A report that the chroot task is not to be done any more, or that the source build came to
an end or excludes the architecture. -/
def reportTakesChroot (env : Surroundings) (b : Build) (c : BuildChroot) (upd : UpdDict) : Bool :=
  taken env b upd &&
    if upd.taskId = b.taskId then
      skips upd c || decide (upd.status = .succeeded ∨ upd.status = .failed ∨ upd.status = .skipped)
    else decide (upd.chroot = some c.name) && !decide upd.status.Todo

/-- The message takes the source task back. -/
def takesSource (b : Build) : Message → Bool
  | .update env _ upd => reportTakesSource env b upd
  | .startingBuild env _ upd => reportTakesSource env b upd
  | .rescheduleBuildChroot _ _ _ _ => false
  | .importCompleted _ _ => true
  | .buildTaskCanceled taskId => decide (taskId = b.taskId)
  | .cancelBuild _ => b.cancelable
  | .cancelBuildChrootsByMock _ => false

/-- The message takes the task of a chroot back. -/
def takesChroot (b : Build) (c : BuildChroot) : Message → Bool
  | .update env _ upd => reportTakesChroot env b c upd
  | .startingBuild env _ upd => reportTakesChroot env b c upd
  | .rescheduleBuildChroot _ _ _ _ => false
  | .importCompleted _ branchCommits => !collected branchCommits c
  | .buildTaskCanceled taskId => decide (taskId = b.chrootTaskId c)
  | .cancelBuild _ => b.cancelable
  | .cancelBuildChrootsByMock mockChroot => decide (c.name = mockChroot.name)

/-- The message takes the task back. -/
def takesBack (b : Build) (taskId : String) (m : Message) : Bool :=
  (decide (taskId = b.taskId) && b.takesSource m) ||
    b.buildChroots.any fun c => decide (taskId = b.chrootTaskId c) && b.takesChroot c m

variable {b : Build}

/-- A report that does not take the source task back leaves it open. -/
theorem report_sourceTodo {env : Surroundings} {upd : UpdDict} (todo : b.sourceStatus.Todo)
    (kept : reportTakesSource env b upd = false) :
    ((updateStateFromDict env b upd).getD b).sourceStatus.Todo := by
  cases updateStateFromDict_reported env b upd with
  | ignored _ same => rwa [same]
  | source accepted task _ _ status _ =>
    have reported : upd.status.Todo := by simpa [reportTakesSource, accepted, task] using kept
    have running : upd.status ≠ .succeeded := by
      intro same
      rw [same] at reported
      revert reported
      decide
    rwa [status, sourceBecomes, if_neg running]
  | chroot _ _ _ _ status _ => rwa [status]

/-- A report that does not take a chroot task back leaves it open. -/
theorem report_chrootTodo {env : Surroundings} {upd : UpdDict} {c : BuildChroot}
    (member : c ∈ b.buildChroots) (todo : c.status.Todo)
    (kept : reportTakesChroot env b c upd = false) :
    ∃ d ∈ ((updateStateFromDict env b upd).getD b).buildChroots,
      d.name = c.name ∧ d.status.Todo := by
  cases updateStateFromDict_reported env b upd with
  | ignored _ same => exact ⟨c, by rwa [same], rfl, todo⟩
  | source accepted task _ _ _ chroots =>
    rw [reportTakesChroot, accepted, if_pos task, Bool.true_and, Bool.or_eq_false_iff,
      decide_eq_false_iff_not] at kept
    have old : sourceChroots env (withPackage b upd) upd = b.buildChroots := by
      rw [sourceChroots, (withPackage_keeps b upd).2.2, if_neg fun both => kept.2 (.inl both.1)]
    rw [chroots, old]
    refine ⟨_, List.mem_map_of_mem member,
      congrArg MockChroot.name (sourceChroot_keeps env upd c).1, ?_⟩
    rwa [sourceChroot_status, sourceGives_other kept.2, kept.1]
  | chroot accepted task _ _ _ chroots =>
    rw [chroots]
    refine ⟨_, List.mem_map_of_mem member,
      congrArg MockChroot.name (updateChroot_mockChroot env upd c), ?_⟩
    rw [updateChroot_status]
    split
    · rename_i both
      simpa [reportTakesChroot, accepted, task, both.1] using kept
    · exact todo

/-- Rescheduling leaves the source task open. -/
theorem reschedule_sourceTodo (todo : b.sourceStatus.Todo) (env : Surroundings) (taskId : String)
    (chroot : Option String) :
    ((b.rescheduleBuildChroot env taskId chroot).getD b).sourceStatus.Todo := by
  rcases b.reschedule_cases env taskId chroot with same | ⟨upd, pending, -, -, same, -⟩
  · rwa [same]
  · have pendingTodo : StatusEnum.pending.Todo := by decide
    rw [same]
    exact report_sourceTodo todo (by simp [reportTakesSource, pending, pendingTodo])

/-- Rescheduling leaves a chroot task open. -/
theorem reschedule_chrootTodo {c : BuildChroot} (member : c ∈ b.buildChroots)
    (todo : c.status.Todo) (env : Surroundings) (taskId : String) (chroot : Option String) :
    ∃ d ∈ ((b.rescheduleBuildChroot env taskId chroot).getD b).buildChroots,
      d.name = c.name ∧ d.status.Todo := by
  rcases b.reschedule_cases env taskId chroot with same | ⟨upd, pending, plain, -, same, -⟩
  · exact ⟨c, by rwa [same], rfl, todo⟩
  · have pendingTodo : StatusEnum.pending.Todo := by decide
    have unskipped : skips upd c = false := by simp [skips, plain]
    rw [same]
    exact report_chrootTodo member todo
      (by simp [reportTakesChroot, pending, pendingTodo, unskipped])

/-- A message that does not take the source task of an active build back leaves it open. -/
theorem receive_sourceTodo (active : b.canceled = false) (todo : b.sourceStatus.Todo)
    {m : Message} (kept : b.addressed m = true → b.takesSource m = false) :
    (b.receive m).sourceStatus.Todo := by
  unfold receive
  by_cases addressed : b.addressed m = true
  · rw [if_pos addressed]
    specialize kept addressed
    cases m with
    | update env buildId upd => exact report_sourceTodo todo kept
    | startingBuild env buildId upd =>
      rw [handle_startingBuild, active]
      exact report_sourceTodo todo kept
    | rescheduleBuildChroot env buildId taskId chroot =>
      exact reschedule_sourceTodo todo env taskId chroot
    | importCompleted buildId branchCommits => simp [takesSource] at kept
    | buildTaskCanceled taskId =>
      simp only [takesSource, decide_eq_false_iff_not] at kept
      simp only [handle, buildTaskCanceled, Option.getD_some]
      split
      · exact todo
      · rwa [if_neg fun both => kept both.1]
    | cancelBuild buildId =>
      simp only [takesSource] at kept
      simpa [handle, BuildsLogic.cancelBuild, kept] using todo
    | cancelBuildChrootsByMock mockChroot => exact todo
  · rwa [if_neg addressed]

/-- A message that does not take a chroot task of an active build back leaves it open. -/
theorem receive_chrootTodo (active : b.canceled = false) {c : BuildChroot}
    (member : c ∈ b.buildChroots) (todo : c.status.Todo) {m : Message}
    (kept : b.addressed m = true → b.takesChroot c m = false) :
    ∃ d ∈ (b.receive m).buildChroots, d.name = c.name ∧ d.status.Todo := by
  have unfinished : ¬ c.status.Finished := fun finished => finished.not_todo todo
  unfold receive
  by_cases addressed : b.addressed m = true
  · rw [if_pos addressed]
    specialize kept addressed
    cases m with
    | update env buildId upd => exact report_chrootTodo member todo kept
    | startingBuild env buildId upd =>
      rw [handle_startingBuild, active]
      exact report_chrootTodo member todo kept
    | rescheduleBuildChroot env buildId taskId chroot =>
      exact reschedule_chrootTodo member todo env taskId chroot
    | importCompleted buildId branchCommits =>
      have pending : StatusEnum.pending.Todo := by decide
      have imported : (importChroot branchCommits c).status.Todo := by
        simp only [takesChroot, collected, Bool.not_eq_false', Option.isSome_iff_exists] at kept
        obtain ⟨gitHash, found⟩ := kept
        simp only [importChroot, found]
        split
        · exact todo
        · exact pending
      have moved : ∃ d ∈ b.buildChroots.map (importChroot branchCommits),
          d.name = c.name ∧ d.status.Todo :=
        ⟨_, List.mem_map_of_mem member,
          congrArg MockChroot.name (importChroot_mockChroot branchCommits c), imported⟩
      simp only [handle, distGitUploadCompleted]
      split
      · split
        · exact ⟨c, member, rfl, todo⟩
        · exact moved
      · exact moved
    | buildTaskCanceled taskId =>
      simp only [takesChroot, decide_eq_false_iff_not] at kept
      simp only [handle, buildTaskCanceled, Option.getD_some]
      split
      · refine ⟨c, List.mem_map.mpr ⟨c, member, if_neg ?_⟩, rfl, todo⟩
        exact fun both => kept both.1.symm
      · split <;> exact ⟨c, member, rfl, todo⟩
    | cancelBuild buildId =>
      simp only [takesChroot] at kept
      simp only [handle, BuildsLogic.cancelBuild, kept, Bool.false_eq_true, if_false,
        Option.getD_none]
      exact ⟨c, member, rfl, todo⟩
    | cancelBuildChrootsByMock mockChroot =>
      simp only [takesChroot, decide_eq_false_iff_not] at kept
      refine ⟨c, List.mem_map.mpr ⟨c, member, if_neg ?_⟩, rfl, todo⟩
      simp [canceledByMock, kept]
  · rw [if_neg addressed]
    exact ⟨c, member, rfl, todo⟩

/-- A message that cancels nothing leaves the build active. -/
theorem receive_active (active : b.canceled = false) {m : Message}
    (kept : b.addressed m = true → ∀ buildId, m = .cancelBuild buildId → b.cancelable = false) :
    (b.receive m).canceled = false := by
  rcases b.receive_row m with row | ⟨⟨buildId, rfl⟩, -⟩
  · rw [row.canceled, active]
  · unfold receive
    by_cases addressed : b.addressed (.cancelBuild buildId) = true
    · have finished := kept addressed buildId rfl
      rw [if_pos addressed]
      simpa [handle, BuildsLogic.cancelBuild, finished] using active
    · rwa [if_neg addressed]

/-- A message that does not take a task back leaves it open. -/
theorem receive_carries (active : b.canceled = false) {taskId : String}
    (carries : b.Carries taskId) {m : Message}
    (kept : b.addressed m = true → b.takesBack taskId m = false) :
    (b.receive m).canceled = false ∧ (b.receive m).Carries taskId := by
  simp only [takesBack, Bool.or_eq_false_iff, Bool.and_eq_false_iff, List.any_eq_false,
    Bool.and_eq_true, decide_eq_false_iff_not, decide_eq_true_eq, not_and] at kept
  rcases carries with ⟨source, todo⟩ | ⟨c, member, own, todo⟩
  · have spared : b.addressed m = true → b.takesSource m = false := fun addressed =>
      (kept addressed).1.resolve_left (not_not.mpr source)
    refine ⟨receive_active active fun addressed buildId same => ?_,
      .inl ⟨?_, receive_sourceTodo active todo spared⟩⟩
    · have uncanceled := spared addressed
      rwa [same] at uncanceled
    · rw [source, Build.taskId, Build.taskId, receive_id]
  · have spared : b.addressed m = true → b.takesChroot c m = false := fun addressed =>
      eq_false_of_ne_true ((kept addressed).2 c member own)
    obtain ⟨d, inside, name, stillTodo⟩ := receive_chrootTodo active member todo spared
    refine ⟨receive_active active fun addressed buildId same => ?_, .inr ⟨d, inside, ?_, stillTodo⟩⟩
    · have uncanceled := spared addressed
      rwa [same] at uncanceled
    · rw [own, chrootTaskId, chrootTaskId, receive_id, name]

end Build

namespace Database

variable {db db' : Database}

/-- The task is one of the build. -/
def owns (b : Build) (taskId : String) : Bool :=
  decide (taskId = b.taskId) || b.buildChroots.any fun c => decide (taskId = b.chrootTaskId c)

/-- The operation takes the task back. -/
def takesBack (db : Database) (taskId : String) : Operation → Bool
  | .message m => db.builds.any fun b => b.addressed m && b.takesBack taskId m
  | .markAsFailed buildId => db.builds.any fun b => decide (b.id = buildId) && owns b taskId
  | .deleteBuild buildId => db.builds.any fun b => decide (b.id = buildId) && owns b taskId
  | _ => false

/-- The task is open in a build that is behind batches that are all in a list. -/
def Open (db : Database) (done : List Nat) (taskId : String) : Prop :=
  ∃ b ∈ db.builds, b.canceled = false ∧ b.Carries taskId ∧ db.Ready done b

/-- A task that is listed is open, behind batches that are finished. -/
theorem open_of_listed {cached : Nat → Bool} {done : List Nat} {record : JobRecord}
    (known : db.BatchesKnown) (listed : record ∈ db.pendingJobs cached)
    (all : ∀ batch ∈ db.batches, db.batchFinished cached batch.id = true → batch.id ∈ done) :
    db.Open done record.taskId := by
  obtain ⟨b, member, active, free, kind⟩ := mem_pendingJobs.mp listed
  refine ⟨b, member, active, ?_, ready_of_not_blocked known member free all⟩
  rcases kind with ⟨rfl, todo⟩ | ⟨c, inside, rfl, todo⟩
  · exact .inl ⟨rfl, todo⟩
  · exact .inr ⟨c, inside, rfl, todo⟩

/-- An open task is listed while the batches before it are finished. -/
theorem listed_of_open {cached : Nat → Bool} {done : List Nat} {taskId : String}
    (known : db.BatchesKnown) (opened : db.Open done taskId)
    (still : ∀ n ∈ done, db.batchFinished cached n = true) :
    ∃ record ∈ db.pendingJobs cached, record.taskId = taskId := by
  obtain ⟨b, member, active, carries, ready⟩ := opened
  have free := not_blocked_of_ready known member ready still
  rcases carries with ⟨rfl, todo⟩ | ⟨c, inside, rfl, todo⟩
  · exact ⟨_, mem_pendingJobs.mpr ⟨b, member, active, free, .inl ⟨rfl, todo⟩⟩, rfl⟩
  · exact ⟨_, mem_pendingJobs.mpr ⟨b, member, active, free, .inr ⟨c, inside, rfl, todo⟩⟩, rfl⟩

/-- A task that a build carries is its own. -/
theorem owns_of_carries {b : Build} {taskId : String} (carries : b.Carries taskId) :
    owns b taskId = true := by
  unfold owns
  rcases carries with ⟨source, -⟩ | ⟨c, member, own, -⟩
  · simp [source]
  · simp only [Bool.or_eq_true, List.any_eq_true, decide_eq_true_eq]
    exact .inr ⟨c, member, own⟩

/-- An operation that does not take an open task back leaves it open. -/
theorem operate_open {op : Operation} {done : List Nat} {taskId : String}
    (known : db.BatchesKnown) (opened : db.Open done taskId)
    (operated : db.operate op = some db') (kept : db.takesBack taskId op = false) :
    db'.Open done taskId := by
  obtain ⟨b, member, active, carries, ready⟩ := opened
  have batches := (operate_batches known operated).2
  have stays : ∀ b' ∈ db'.builds, b'.canceled = false → b'.Carries taskId →
      b'.batchId = b.batchId → db'.Open done taskId := fun b' inside active' carries' same =>
    ⟨b', inside, active', carries', ready.grow known member same batches fun _ listed => listed⟩
  cases operate_operated operated with
  | message m =>
    have spared : b.addressed m = true → b.takesBack taskId m = false := by
      intro addressed
      simpa [addressed] using List.any_eq_false.mp kept b member
    obtain ⟨active', carries'⟩ := Build.receive_carries active carries spared
    refine stays _ (List.mem_map_of_mem member) active' carries' ?_
    rcases b.receive_row m with row | ⟨-, same⟩
    · exact row.batchId
    · rw [same]
  | add cached s grown batchId set =>
    obtain ⟨n, inside, same | ⟨fresh, rfl, free⟩⟩ := (setupBatch_joined known set).1.builds b member
    · exact stays _ (List.mem_append_left _ inside) active carries same
    · refine ⟨_, List.mem_append_left _ inside, active, carries, fun m joined => ?_⟩
      obtain rfl := Option.some.inj joined
      exact chainBlocked_free free
  | fork c chroots _ => exact stays b (List.mem_append_left _ member) active carries rfl
  | rawhideToRelease buildId rawhide dest =>
    by_cases named : b.id = buildId
    · obtain ⟨added, same⟩ := forkRawhideChroot_adds rawhide dest b
      refine stays _ (List.mem_map.mpr ⟨b, member, (if_pos named).trans same⟩) active ?_ rfl
      refine carries.imp_right fun ⟨c, inside, own, todo⟩ => ?_
      exact ⟨c, List.mem_append_left _ inside, own, todo⟩
    · exact stays b (List.mem_map.mpr ⟨b, member, if_neg named⟩) active carries rfl
  | markAsFailed buildId =>
    have other : b.id ≠ buildId := by
      simpa [owns_of_carries carries] using List.any_eq_false.mp kept b member
    exact stays b (List.mem_map.mpr ⟨b, member, if_neg other⟩) active carries rfl
  | deleteBuild buildId _ =>
    have other : b.id ≠ buildId := by
      simpa [owns_of_carries carries] using List.any_eq_false.mp kept b member
    exact stays b (List.mem_filter.mpr ⟨member, decide_eq_true other⟩) active carries rfl

end Database

end Copr
