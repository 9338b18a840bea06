import Copr.Frontend.Operations

/-!
# Builds that are finished no longer

A finished build counts as finished until a late message reopens it: a report about its source
build, a report about a chroot that was skipped or forked, or the import of its sources. Here
is exactly which messages do so. No other operation reopens a build.
-/

namespace Copr

namespace Build

open BuildsLogic

/-- A report about the source build hands a chroot on to the import, or puts the source build
of a build without chroots back to work, or takes back a failure that left chroots unfinished;
a report about a chroot puts one back to work that was skipped or forked. -/
def reportReopens (env : Surroundings) (b : Build) (upd : UpdDict) : Bool :=
  taken env b upd &&
    if upd.taskId = b.taskId then
      if upd.status = .succeeded then
        (sourceChroots env (withPackage b upd) upd).any fun c => !skips upd c
      else if upd.status = .failed ∨ upd.status = .skipped ∨ upd.status = .canceled then false
      else if b.buildChroots = [] then !decide upd.status.Finished
      else b.buildChroots.any fun c => !decide c.status.Finished && !skips upd c
    else
      !decide upd.status.Finished &&
        !decide (b.sourceStatus = .failed ∨ b.sourceStatus = .canceled) &&
        b.buildChroots.any fun c => decide (upd.chroot = some c.name) && !decide c.status.Terminal

/-- All branches are imported, and a chroot is not skipped. -/
def importReopens (branchCommits : List (String × String)) (b : Build) : Bool :=
  b.buildChroots.all (collected branchCommits) && b.package.isSome &&
    b.buildChroots.any fun c => decide (c.status ≠ .skipped)

/-- The message reopens the build, should it be finished. -/
def reopens (b : Build) (m : Message) : Bool :=
  !b.canceled &&
    match m with
    | .update env _ upd => reportReopens env b upd
    | .startingBuild env _ upd => reportReopens env b upd
    | .importCompleted _ branchCommits => importReopens branchCommits b
    | _ => false

/-! ## When a build is finished -/

/-- A build is finished early, or its source build or all its chroots are. -/
theorem finished_iff_of_map {b : Build} {chroots : List BuildChroot}
    {f : BuildChroot → BuildChroot} (active : b.canceled = false)
    (changed : b.buildChroots = chroots.map f) :
    b.finished = true ↔
      (b.sourceStatus = .failed ∨ b.sourceStatus = .canceled) ∨
        (chroots = [] ∧ b.sourceStatus.Finished) ∨
          (chroots ≠ [] ∧ ∀ c ∈ chroots, (f c).status.Finished) := by
  unfold finished finishedEarly
  rw [active, changed]
  by_cases early : b.sourceStatus = .failed ∨ b.sourceStatus = .canceled
  · simp [early]
  · by_cases empty : chroots = []
    · simp [early, empty]
    · simp [early, empty]

/-- The same for the chroots as they are. -/
theorem finished_iff {b : Build} (active : b.canceled = false) :
    b.finished = true ↔
      (b.sourceStatus = .failed ∨ b.sourceStatus = .canceled) ∨
        (b.buildChroots = [] ∧ b.sourceStatus.Finished) ∨
          (b.buildChroots ≠ [] ∧ ∀ c ∈ b.buildChroots, c.status.Finished) :=
  finished_iff_of_map active (List.map_id _).symm

/-- A canceled build is finished. -/
theorem finished_of_canceled {b : Build} (canceled : b.canceled = true) : b.finished = true := by
  simp [finished, finishedEarly, canceled]

/-! ## Which messages reopen a build -/

section Messages

variable {b b' : Build} {env : Surroundings} {upd : UpdDict} (active : b.canceled = false)

include active

/-- A report about the source build. -/
theorem sourceReport_finished (accepted : taken env b upd = true) (task : upd.taskId = b.taskId)
    (row : SameRow b b')
    (status : b'.sourceStatus = sourceBecomes env (withPackage b upd) upd)
    (chroots : b'.buildChroots =
      (sourceChroots env (withPackage b upd) upd).map (sourceChroot env upd)) :
    b'.finished = true ↔ reportReopens env b upd = false := by
  have old : upd.status ≠ .succeeded →
      sourceChroots env (withPackage b upd) upd = b.buildChroots := by
    intro other
    rw [sourceChroots, (withPackage_keeps b upd).2.2, if_neg fun both => other both.1]
  have waiting : ¬ StatusEnum.waiting.Finished := by decide
  have skipped : StatusEnum.skipped.Finished := by decide
  rw [finished_iff_of_map (row.canceled.trans active) chroots, reportReopens, accepted,
    if_pos task]
  simp only [sourceChroot_status, status, Bool.true_and]
  by_cases succeeded : upd.status = .succeeded
  · rw [if_pos succeeded]
    by_cases empty : sourceChroots env (withPackage b upd) upd = []
    · simp [sourceBecomes, succeeded, empty]
    · simp only [sourceBecomes, succeeded, empty, sourceGives, if_true, if_false, reduceCtorEq,
        or_self, false_and, ne_eq, not_false_eq_true, true_and, false_or, List.any_eq_false,
        Bool.not_eq_true, Bool.not_eq_false']
      refine forall₂_congr fun c _ => ?_
      by_cases excluded : skips upd c = true <;> simp [excluded, waiting, skipped]
  · rw [if_neg succeeded, old succeeded, sourceBecomes, if_neg succeeded]
    by_cases ends : upd.status = .failed ∨ upd.status = .skipped ∨ upd.status = .canceled
    · rw [if_pos ends]
      refine iff_of_true ?_ rfl
      rcases ends with same | same | same
      · exact Or.inl (Or.inl same)
      · have gives : ∀ c, sourceGives upd c = .skipped := by
          intro c
          simp [sourceGives, same]
        right
        by_cases empty : b.buildChroots = []
        · exact Or.inl ⟨empty, same ▸ skipped⟩
        · exact Or.inr ⟨empty, fun c _ => (gives c).symm ▸ skipped⟩
      · exact Or.inl (Or.inr same)
    · rw [if_neg ends]
      simp only [not_or] at ends
      have gives : ∀ c, sourceGives upd c = if skips upd c then .skipped else c.status := by
        intro c
        exact sourceGives_other (by simp [succeeded, ends.1, ends.2.1])
      by_cases empty : b.buildChroots = []
      · simp [ends.1, ends.2.2, empty]
      · simp only [ends.1, ends.2.2, empty, or_self, false_and, ne_eq, not_false_eq_true,
          true_and, false_or, if_false, gives, List.any_eq_false, Bool.and_eq_true, not_and,
          Bool.not_eq_true', decide_eq_false_iff_not, Bool.not_eq_false]
        refine forall₂_congr fun c _ => ?_
        by_cases excluded : skips upd c = true
        · simp [excluded, skipped]
        · simp [excluded]

variable (finished : b.finished = true)

include finished

/-- A report about a chroot leaves a finished build finished exactly when it does not reopen it. -/
theorem chrootReport_finished (accepted : taken env b upd = true) (task : upd.taskId ≠ b.taskId)
    (row : SameRow b b') (status : b'.sourceStatus = b.sourceStatus)
    (chroots : b'.buildChroots = b.buildChroots.map (updateChroot env upd)) :
    b'.finished = true ↔ reportReopens env b upd = false := by
  rw [finished_iff_of_map (row.canceled.trans active) chroots, reportReopens, accepted,
    if_neg task, status]
  rw [finished_iff active] at finished
  simp only [updateChroot_status, Bool.true_and]
  by_cases early : b.sourceStatus = .failed ∨ b.sourceStatus = .canceled
  · simp [early]
  · rcases finished with same | ⟨empty, ended⟩ | ⟨inhabited, ended⟩
    · contradiction
    · simp [empty, ended]
    · by_cases reported : upd.status.Finished
      · refine iff_of_true (Or.inr (Or.inr ⟨inhabited, fun c member => ?_⟩)) (by simp [reported])
        split
        · exact reported
        · exact ended c member
      · simp only [early, inhabited, reported, false_and, ne_eq, not_false_eq_true, true_and,
          false_or, decide_false, Bool.not_false, Bool.true_and, List.any_eq_false,
          Bool.and_eq_true, decide_eq_true_eq, Bool.not_eq_true', decide_eq_false_iff_not]
        refine forall₂_congr fun c member => ?_
        by_cases touched : upd.chroot = some c.name ∧ ¬ c.status.Terminal
        · rw [if_pos touched]
          exact iff_of_false reported (not_not_intro touched)
        · rw [if_neg touched]
          exact iff_of_true (ended c member) touched

/-- After any report a build is finished exactly when the report does not reopen it. -/
theorem report_finished (env : Surroundings) (upd : UpdDict) :
    ((updateStateFromDict env b upd).getD b).finished = true ↔
      reportReopens env b upd = false := by
  cases updateStateFromDict_reported env b upd with
  | ignored refused same =>
    rw [same]
    exact iff_of_true finished (by simp [reportReopens, refused])
  | source accepted task row _ status chroots =>
    exact sourceReport_finished active accepted task row status chroots
  | chroot accepted task row _ status chroots =>
    exact chrootReport_finished active finished accepted task row status chroots

/-- Rescheduling concerns tasks in work, so it reopens nothing. -/
theorem reschedule_finished (env : Surroundings) (taskId : String) (chroot : Option String) :
    ((b.rescheduleBuildChroot env taskId chroot).getD b).finished = true := by
  rcases b.reschedule_cases env taskId chroot with same | ⟨upd, pending, plain, -, same, kind⟩
  · rw [same]
    exact finished
  · rw [same, report_finished active finished, reportReopens]
    rw [finished_iff active] at finished
    have unfinished : ∀ s ∈ StatusEnum.runStatuses, ¬ s.Finished := by
      intro s running ended
      exact ended.not_todo (StatusEnum.todo_of_run running)
    have other : upd.status ≠ .succeeded ∧
        ¬ (upd.status = .failed ∨ upd.status = .skipped ∨ upd.status = .canceled) := by
      rw [pending]
      decide
    rcases kind with ⟨task, running⟩ | ⟨task, c, member, -, running⟩
    · have late : ¬ (b.sourceStatus = .failed ∨ b.sourceStatus = .canceled) := by
        intro early
        have ended : b.sourceStatus.Finished := by
          rcases early with same | same <;> rw [same] <;> decide
        exact unfinished _ running ended
      rcases finished with early | ⟨-, ended⟩ | ⟨inhabited, ended⟩
      · contradiction
      · exact absurd ended (unfinished _ running)
      · rw [if_pos task, if_neg other.1, if_neg other.2, if_neg inhabited, Bool.and_eq_false_iff]
        right
        rw [List.any_eq_false]
        intro d inside
        simp [ended d inside]
    · rcases finished with early | ⟨empty, -⟩ | ⟨-, ended⟩
      · simp [task, early]
      · exact absurd empty (List.ne_nil_of_mem member)
      · exact absurd (ended c member) (unfinished _ running)

/-- After an import a build is finished exactly when the import does not reopen it. -/
theorem import_finished (branchCommits : List (String × String)) :
    ((b.distGitUploadCompleted branchCommits).getD b).finished = true ↔
      importReopens branchCommits b = false := by
  have pending : ¬ StatusEnum.pending.Finished := by decide
  have skipped : StatusEnum.skipped.Finished := by decide
  unfold distGitUploadCompleted importReopens
  by_cases all : b.buildChroots.all (collected branchCommits) = true
  · rw [if_pos all, all, Bool.true_and]
    by_cases unnamed : (b.package.isNone && !b.buildChroots.isEmpty) = true
    · rw [if_pos unnamed]
      refine iff_of_true finished ?_
      have none : b.package = none := by
        simp only [Bool.and_eq_true, Option.isNone_iff_eq_none] at unnamed
        exact unnamed.1
      rw [none]
      rfl
    · rw [if_neg unnamed, Option.getD_some, finished_iff_of_map (by exact active) (by rfl)]
      by_cases empty : b.buildChroots = []
      · have ended : StatusEnum.succeeded.Finished := by decide
        simp [empty, ended]
      · have named : b.package.isSome = true := by
          cases package : b.package with
          | none => simp [package, empty] at unnamed
          | some name => rfl
        simp only [reduceCtorEq, or_self, empty, false_and, ne_eq, not_false_eq_true, true_and,
          false_or, named, Bool.true_and, List.any_eq_false, decide_eq_true_eq, not_not]
        refine forall₂_congr fun c member => ?_
        have there : (branchCommits.lookup c.mockChroot.distgitBranchName).isSome = true :=
          List.all_eq_true.mp all c member
        obtain ⟨gitHash, found⟩ := Option.isSome_iff_exists.mp there
        unfold importChroot
        simp only [found]
        by_cases skip : c.status = .skipped
        · simp [skip, skipped]
        · simp [skip, pending]
  · rw [if_neg all, eq_false_of_ne_true all, Bool.false_and, Option.getD_some,
      finished_iff_of_map (by exact active) (by rfl)]
    exact iff_of_true (Or.inl (Or.inl rfl)) rfl

/-- A cancelation of chroots finishes them. -/
theorem cancel_finished {f : BuildChroot → BuildChroot} (canceled : b'.canceled = false)
    (status : b'.sourceStatus = b.sourceStatus) (chroots : b'.buildChroots = b.buildChroots.map f)
    (keeps : ∀ c, c.status.Finished → (f c).status.Finished) : b'.finished = true := by
  rw [finished_iff_of_map canceled chroots, status]
  rw [finished_iff active] at finished
  refine finished.imp_right (Or.imp_right fun ⟨inhabited, ended⟩ => ?_)
  exact ⟨inhabited, fun c member => keeps c (ended c member)⟩

end Messages

/-- A message leaves a finished build finished exactly if it does not reopen it. -/
theorem receive_finished {b : Build} (finished : b.finished = true) (m : Message) :
    (b.receive m).finished = true ↔ (b.addressed m = true → b.reopens m = false) := by
  by_cases canceled : b.canceled = true
  · refine iff_of_true (finished_of_canceled (receive_canceled canceled m)) fun _ => ?_
    simp [reopens, canceled]
  · have active : b.canceled = false := by simpa using canceled
    have ended : StatusEnum.canceled.Finished := by decide
    unfold receive
    by_cases addressed : b.addressed m = true
    · rw [if_pos addressed]
      simp only [addressed, true_implies, reopens, active, Bool.not_false, Bool.true_and]
      cases m with
      | update env buildId upd => exact report_finished active finished env upd
      | startingBuild env buildId upd =>
        rw [handle_startingBuild, if_neg canceled]
        exact report_finished active finished env upd
      | rescheduleBuildChroot env buildId taskId chroot =>
        exact iff_of_true (reschedule_finished active finished env taskId chroot) rfl
      | importCompleted buildId branchCommits => exact import_finished active finished branchCommits
      | buildTaskCanceled taskId =>
        refine iff_of_true ?_ rfl
        simp only [handle, Option.getD_some, buildTaskCanceled]
        split
        · refine cancel_finished active finished (by exact active) rfl rfl fun c kept => ?_
          split
          · exact ended
          · exact kept
        · split
          · rw [finished_iff (by exact active)]
            exact Or.inl (Or.inr rfl)
          · exact finished
      | cancelBuild buildId =>
        refine iff_of_true ?_ rfl
        simp only [handle, BuildsLogic.cancelBuild]
        split
        · exact finished_of_canceled rfl
        · exact finished
      | cancelBuildChrootsByMock mockChroot =>
        refine iff_of_true ?_ rfl
        simp only [handle, Option.getD_some]
        refine cancel_finished active finished (by exact active) rfl rfl fun c kept => ?_
        split
        · exact ended
        · exact kept
    · rw [if_neg addressed]
      exact iff_of_true finished fun both => absurd both addressed

/-! ## The other operations -/

/-- A forked build is finished. -/
theorem forkBuild_finished (id : Nat) (b : Build) (chroots : List String) :
    (Database.forkBuild id b chroots).finished = true := by
  have forked : StatusEnum.forked.Finished := by decide
  unfold finished
  split
  · rfl
  · split
    · exact decide_eq_true forked
    · rw [List.all_eq_true]
      intro c member
      obtain ⟨d, -, rfl⟩ := List.mem_map.mp member
      exact decide_eq_true forked

/-- A build that gets a forked chroot stays finished. -/
theorem forkRawhideChroot_finished {b : Build} (finished : b.finished = true)
    (rawhide dest : MockChroot) :
    (Database.forkRawhideChroot rawhide dest b).finished = true := by
  by_cases canceled : b.canceled = true
  · obtain ⟨added, same⟩ := Database.forkRawhideChroot_adds rawhide dest b
    rw [same]
    exact finished_of_canceled canceled
  · have active : b.canceled = false := by simpa using canceled
    have forked : StatusEnum.forked.Finished := by decide
    unfold Database.forkRawhideChroot
    split
    · exact finished
    · rename_i c found
      split
      · rw [finished_iff active] at finished
        rw [finished_iff (by exact active)]
        refine finished.imp_right fun ended => Or.inr ?_
        rcases ended with ⟨empty, -⟩ | ⟨-, ended⟩
        · exact absurd empty (List.ne_nil_of_mem (List.mem_of_find?_eq_some found))
        · refine ⟨by simp, fun d member => ?_⟩
          rcases List.mem_append.mp member with old | new
          · exact ended d old
          · rw [List.mem_singleton.mp new]
            exact forked
      · exact finished

/-- A build marked as failed stays finished. -/
theorem markAsFailed_finished {b : Build} (finished : b.finished = true) :
    (BuildsLogic.markAsFailed b).finished = true := by
  by_cases canceled : b.canceled = true
  · exact finished_of_canceled canceled
  · have active : b.canceled = false := by simpa using canceled
    have failed : StatusEnum.failed.Finished := by decide
    have keeps : ∀ c : BuildChroot, c.status.Finished →
        (if c.status = .succeeded then c else { c with status := .failed }).status.Finished := by
      intro c kept
      split
      · exact kept
      · exact failed
    rw [finished_iff_of_map (by exact active) (by rfl)]
    rw [finished_iff active] at finished
    unfold BuildsLogic.markAsFailed
    dsimp only
    by_cases succeeded : b.sourceStatus = .succeeded
    · rw [if_pos succeeded]
      refine finished.imp_right (Or.imp_right fun ⟨inhabited, ended⟩ => ?_)
      exact ⟨inhabited, fun c member => keeps c (ended c member)⟩
    · rw [if_neg succeeded]
      exact Or.inl (Or.inl rfl)

end Build

end Copr
