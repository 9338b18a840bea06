import Copr.Frontend.ReopenedBuilds

/-!
# Tasks that a worker may start

A worker asks `/starting_build/` before it starts a task. The answer looks at the flag of a
canceled build only, while a task also ends by a report, by the end of a chroot's life or
because its architecture is excluded. Here is exactly which allowed starts are for a task that
is still to be done, and leave it in the status `starting`.
-/

namespace Copr

open Runs

/-- A task of a build. -/
inductive BuildTask
  /-- The source build. -/
  | source
  /-- The build in the chroot of this name. -/
  | chroot (name : String)
  deriving DecidableEq, Repr

/-- `chroot` of the job; `BuildJob` sets the one of a source task. -/
def BuildTask.jobChroot : BuildTask → String
  | .source => "srpm-builds"
  | .chroot name => name

namespace Build

open BuildsLogic

/-- `task_id` of a task of the build. -/
def taskIdOf (b : Build) : BuildTask → String
  | .source => b.taskId
  | .chroot name => toString b.id ++ "-" ++ name

/-- The status of a task of the build; a chroot has to be one of its chroots. -/
def taskStatus (b : Build) : BuildTask → Option StatusEnum
  | .source => some b.sourceStatus
  | .chroot name =>
    (b.buildChroots.find? fun c => decide (c.name = name)).map BuildChroot.status

/-- The data that `_mark_starting` sends about a task of the build. -/
structure Starts (b : Build) (upd : UpdDict) (task : BuildTask) : Prop where
  /-- `task_id`. -/
  taskId : upd.taskId = b.taskIdOf task
  /-- `chroot`. -/
  chroot : upd.chroot = some task.jobChroot
  /-- `status`. -/
  status : upd.status = .starting
  /-- The build has the task. -/
  there : (b.taskStatus task).isSome = true

/-- If the start is allowed, neither the build nor the task was finished before, and the task
is starting afterwards. -/
def StartsRightly (env : Surroundings) (b : Build) (upd : UpdDict) (task : BuildTask) : Prop :=
  ∀ b', b.startingBuild env upd = some (true, b') →
    b.finished = false ∧ (∀ s, b.taskStatus task = some s → ¬ s.Finished) ∧
      b'.taskStatus task = some .starting

/-- The task has no finished status; for a source task a chroot is left to be built, for a chroot
the source build has neither failed nor been canceled. -/
def taskDue (b : Build) (task : BuildTask) : Bool :=
  ((b.taskStatus task).any fun s => !decide s.Finished) &&
    match task with
    | .source => b.buildChroots.isEmpty || b.buildChroots.any fun c => !decide c.status.Finished
    | .chroot _ => decide (b.sourceStatus ≠ .failed ∧ b.sourceStatus ≠ .canceled)

/-- The report is not an error: its package is not refused, and the chroots have their tags. -/
def answered (env : Surroundings) (b : Build) (upd : UpdDict) : Bool :=
  decide (packageAnswer env b upd ≠ .refused) &&
    (decide (packageAnswer env b upd = .raced) || taken env b upd)

/-- The build is canceled, the request is an error, or the task is due; and should another
request create the package at the same time, the task is starting already. -/
def startDue (env : Surroundings) (b : Build) (upd : UpdDict) (task : BuildTask) : Bool :=
  b.canceled || !answered env b upd ||
    (b.taskDue task && (taken env b upd || decide (b.taskStatus task = some .starting)))

variable {b b' : Build} {env : Surroundings} {upd : UpdDict} {task : BuildTask}

/-- Which reports are errors. -/
theorem updateStateFromDict_isSome (env : Surroundings) (b : Build) (upd : UpdDict) :
    (updateStateFromDict env b upd).isSome = answered env b upd := by
  rw [updateStateFromDict_eq]
  unfold answered taken
  cases answer : packageAnswer env b upd with
  | raced => rfl
  | refused => rfl
  | present =>
    have row := (withPackage_keeps b upd).1
    have sameTask : (withPackage b upd).taskId = b.taskId := congrArg toString row.id
    have sameChroots : sourceChroots env (setAttributes (withPackage b upd) upd) upd =
        sourceChroots env (withPackage b upd) upd := rfl
    simp only [updateAssigned, sameTask, updateSource_eq, sameChroots]
    by_cases own : upd.taskId = b.taskId
    · by_cases known : (sourceChroots env (withPackage b upd) upd).all (tagsKnown upd) = true
      · simp [own, known]
      · simp [own, known]
    · simp [own]

/-- A start is allowed for a build that is not canceled, when the report is no error. -/
theorem startingBuild_allowed (active : b.canceled = false) :
    b.startingBuild env upd = some (true, b') ↔
      answered env b upd = true ∧ b' = (updateStateFromDict env b upd).getD b := by
  unfold startingBuild
  rw [if_neg (by simp [active]), ← updateStateFromDict_isSome]
  cases updateStateFromDict env b upd with
  | none => simp
  | some updated => simp [eq_comm]

/-- A chroot is found by its name after the chroots are changed one by one. -/
theorem find?_map_name {f : BuildChroot → BuildChroot}
    (keeps : ∀ c, (f c).mockChroot = c.mockChroot) (name : String) (chroots : List BuildChroot) :
    (chroots.map f).find? (fun c => decide (c.name = name)) =
      (chroots.find? fun c => decide (c.name = name)).map f := by
  rw [List.find?_map]
  congr 2
  funext c
  have same : (f c).name = c.name := congrArg MockChroot.name (keeps c)
  simp [same]

/-- A task is due exactly if neither it nor its build is finished. -/
theorem taskDue_iff (active : b.canceled = false) (there : (b.taskStatus task).isSome = true) :
    b.taskDue task = true ↔
      b.finished = false ∧ ∀ s, b.taskStatus task = some s → ¬ s.Finished := by
  obtain ⟨s, found⟩ := Option.isSome_iff_exists.mp there
  have finished := finished_iff active
  have failed : StatusEnum.failed.Finished := by decide
  have canceled : StatusEnum.canceled.Finished := by decide
  rw [← Bool.not_eq_true, finished]
  cases task with
  | source =>
    by_cases ended : b.sourceStatus.Finished
    · simp [taskDue, taskStatus, ended]
    · have late : b.sourceStatus ≠ .failed ∧ b.sourceStatus ≠ .canceled := by
        constructor <;> (intro same; rw [same] at ended; contradiction)
      by_cases empty : b.buildChroots = []
      · simp [taskDue, taskStatus, ended, late, empty]
      · simp [taskDue, taskStatus, ended, late, empty]
  | chroot name =>
    obtain ⟨c, first, status⟩ := Option.map_eq_some_iff.mp found
    have member := List.mem_of_find?_eq_some first
    have inhabited : b.buildChroots ≠ [] := List.ne_nil_of_mem member
    simp only [taskDue, found, Option.any_some, Option.some.injEq, forall_eq']
    by_cases ended : s.Finished
    · simp [ended]
    · have stillOpen : ¬ ∀ d ∈ b.buildChroots, d.status.Finished := by
        intro all
        exact ended (status ▸ all c member)
      simp [ended, inhabited, stillOpen]

/-- What an allowed start makes of a task that is due. -/
theorem starts_status (starts : b.Starts upd task) (due : b.taskDue task = true)
    (accepted : taken env b upd = true) :
    ((updateStateFromDict env b upd).getD b).taskStatus task = some .starting := by
  have other : upd.status ≠ .succeeded := by
    rw [starts.status]
    decide
  cases updateStateFromDict_reported env b upd with
  | ignored refused _ =>
    rw [accepted] at refused
    contradiction
  | source _ own _ _ status _ =>
    cases task with
    | source =>
      show some _ = some _
      rw [status, sourceBecomes, if_neg other, starts.status]
    | chroot name =>
      -- The id of a chroot task is longer than that of its build.
      have longer := congrArg String.length (starts.taskId.symm.trans own)
      have dash : "-".length = 1 := rfl
      simp only [taskIdOf, taskId, String.length_append] at longer
      omega
  | chroot _ own _ _ _ chroots =>
    cases task with
    | source => exact absurd starts.taskId own
    | chroot name =>
      obtain ⟨s, found⟩ := Option.isSome_iff_exists.mp starts.there
      obtain ⟨c, first, status⟩ := Option.map_eq_some_iff.mp found
      have named : c.name = name := by simpa using List.find?_some first
      have unfinished : ¬ c.status.Finished := by
        simp only [taskDue, found, Option.any_some, Bool.and_eq_true] at due
        rw [status]
        simpa using due.1
      simp only [taskStatus, chroots, find?_map_name (updateChroot_mockChroot env upd), first,
        Option.map_some, Option.some.injEq]
      rw [updateChroot_status, if_pos, starts.status]
      exact ⟨starts.chroot.trans (congrArg some named.symm), fun terminal =>
        unfinished terminal.finished⟩

/-- An allowed start is for a task still to be done, and leaves it starting, exactly if the build
is canceled, the request is an error, or the task is due and is not left as it was because of
a race for the package. -/
theorem start_is_of_due_task (env : Surroundings) (b : Build) (upd : UpdDict) (task : BuildTask)
    (starts : b.Starts upd task) :
    b.StartsRightly env upd task ↔ b.startDue env upd task = true := by
  unfold StartsRightly startDue
  by_cases canceled : b.canceled = true
  · simp [startingBuild, canceled]
  · have active : b.canceled = false := by simpa using canceled
    simp only [startingBuild_allowed active, active, Bool.false_or]
    by_cases answer : answered env b upd = true
    · simp only [answer, true_and, forall_eq, Bool.not_true, Bool.false_or, Bool.and_eq_true]
      rw [taskDue_iff active starts.there, and_assoc]
      refine and_congr_right fun unfinished => and_congr_right fun stillOpen => ?_
      have due := (taskDue_iff active starts.there).mpr ⟨unfinished, stillOpen⟩
      by_cases accepted : taken env b upd = true
      · simp [starts_status starts due accepted, accepted]
      · cases updateStateFromDict_reported env b upd with
        | ignored _ same => simp [same, accepted]
        | source taken _ _ _ _ _ => contradiction
        | chroot taken _ _ _ _ _ => contradiction
    · simp [answer]

/-- What is seen of a build when a worker asks to start its first chroot. -/
structure StartSeen where
  /-- `task_id`. -/
  taskId : String
  /-- The status before. -/
  status : Option StatusEnum
  /-- `can_start`. -/
  canStart : Option Bool
  /-- The status afterwards. -/
  started : Option StatusEnum
  deriving DecidableEq, Repr

/-- A worker asks to start the first chroot. -/
def startSeen (b : Build) : StartSeen where
  taskId := b.taskIdOf (.chroot "fedora-39-x86_64")
  status := b.taskStatus (.chroot "fedora-39-x86_64")
  canStart := (b.startingBuild Sample.project (Sample.chrootUpd .starting)).map Prod.fst
  started := (b.startingBuild Sample.project (Sample.chrootUpd .starting)).bind fun answer =>
    answer.2.taskStatus (.chroot "fedora-39-x86_64")

/-- A request for a task of the build whose id and status are seen. -/
theorem starts_seen {s : StatusEnum} {canStart : Option Bool} {started : Option StatusEnum}
    (seen : b.startSeen = ⟨"1-fedora-39-x86_64", some s, canStart, started⟩) :
    b.Starts (Sample.chrootUpd .starting) (.chroot "fedora-39-x86_64") := by
  have own := congrArg StartSeen.taskId seen
  have status := congrArg StartSeen.status seen
  exact ⟨own.symm, rfl, rfl, Option.isSome_iff_exists.mpr ⟨s, status⟩⟩

/-- A worker asks to start a chroot of a build that was imported. -/
theorem start_is_of_due_task_pending :
    ∃ db : Database, Run Database.operate anyEvent Database.empty db ∧
      ∃ b ∈ db.builds,
        b.StartsRightly Sample.project (Sample.chrootUpd .starting) (.chroot "fedora-39-x86_64") ↔
          b.startDue Sample.project (Sample.chrootUpd .starting) (.chroot "fedora-39-x86_64") =
            true := by
  obtain ⟨db, run, seen⟩ := exec_observe Database.operate (fun _ _ => true) Database.empty
    [Sample.submitted, .message (Sample.sourceReport .succeeded), .message Sample.imported]
    (fun db => db.builds.map startSeen)
    [⟨"1-fedora-39-x86_64", some .pending, some true, some .starting⟩] (by decide)
  obtain ⟨b, builds, answer⟩ := List.map_eq_singleton_iff.mp seen
  refine ⟨db, run_weaken (fun _ _ _ => trivial) run, b, ?_, ?_⟩
  · rw [builds]
    exact List.mem_singleton_self b
  · exact start_is_of_due_task _ _ _ _ (starts_seen answer)

/-- A chroot has succeeded, and a worker that asks late may start it once more. -/
theorem succeeded_task_is_started :
    ¬ ∀ db : Database, Run Database.operate anyEvent Database.empty db → ∀ b ∈ db.builds,
      ∀ env upd task, b.Starts upd task → b.StartsRightly env upd task := by
  intro always
  obtain ⟨db, run, seen⟩ := exec_observe Database.operate (fun _ _ => true) Database.empty
    [Sample.submitted, .message (Sample.sourceReport .succeeded), .message Sample.imported,
      .message (Sample.chrootReport .succeeded)]
    (fun db => db.builds.map startSeen)
    [⟨"1-fedora-39-x86_64", some .succeeded, some true, some .succeeded⟩] (by decide)
  obtain ⟨b, builds, answer⟩ := List.map_eq_singleton_iff.mp seen
  have member : b ∈ db.builds := by
    rw [builds]
    exact List.mem_singleton_self b
  have reached := run_weaken (fun _ _ _ => trivial) run
  have status : b.taskStatus (.chroot "fedora-39-x86_64") = some .succeeded :=
    congrArg StartSeen.status answer
  have allowed : (b.startingBuild Sample.project (Sample.chrootUpd .starting)).map Prod.fst =
      some true := congrArg StartSeen.canStart answer
  obtain ⟨⟨canStart, b'⟩, asked, same⟩ := Option.map_eq_some_iff.mp allowed
  obtain rfl : canStart = true := same
  have wrong := always db reached b member _ _ _ (starts_seen answer) b' asked
  exact wrong.2.1 .succeeded status (by decide)

end Build

end Copr
