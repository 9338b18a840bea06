import Copr.Frontend.ProjectBuilds
import Copr.Frontend.ReopenedBuilds

/-!
# The state of a build

`Build.state` is shown to users and sent to them in messages, `Build.finished` decides what may be
done with a build. Both fold the same columns, in their own order. Here is exactly which rows
give the same answer.
-/

namespace Copr

open Runs

namespace StatusEnum

/-- `use_src_states` of `Build.status`. -/
def srcStates : List StatusEnum := [.starting, .pending, .running, .importing, .failed]

/-- The states of chroots in work, which `Build.status` looks for first. -/
def workStates : List StatusEnum := [.running, .starting, .pending]

/-- The finished states that `Build.status` looks for next; it does not look for `canceled`. -/
def settledStates : List StatusEnum := [.failed, .succeeded, .skipped, .forked]

/-- A state of work is not finished. -/
theorem not_finished_of_work {s : StatusEnum} (work : s ∈ workStates) : ¬ s.Finished := by
  cases s <;> revert work <;> decide

/-- A settled state is finished. -/
theorem finished_of_settled {s : StatusEnum} (settled : s ∈ settledStates) : s.Finished := by
  cases s <;> revert settled <;> decide

end StatusEnum

namespace Build

open StatusEnum

/-- `chroot_states`. -/
def chrootStates (b : Build) : List StatusEnum := b.buildChroots.map BuildChroot.status

/-- `state`. -/
def state (b : Build) : StatusEnum := b.status.getD .unknown

/-- The state is known, and it is a finished one exactly if the build is finished. -/
def StateAgrees (b : Build) : Prop :=
  (b.finished = true ↔ b.state.Finished) ∧ b.state ≠ .unknown

/-- A chroot is in work. -/
def working (b : Build) : Bool := b.chrootStates.any fun s => decide (s ∈ workStates)

/-- A chroot is in a finished state other than canceled. -/
def settled (b : Build) : Bool := b.chrootStates.any fun s => decide (s ∈ settledStates)

/-- A chroot is not finished. -/
def unfinished (b : Build) : Bool := b.chrootStates.any fun s => !decide s.Finished

/-- The columns give the same answer: the build is canceled or its source build failed; or the
source build is in work and a chroot, should there be any, is not finished; or the source build
was canceled, and of the chroots none is in work and one has settled; or neither, and there is a
chroot in work, or a settled one and all are finished, or a waiting one and none has settled, or
no chroot at all and the source build is not finished. -/
def columnsAgree (b : Build) : Bool :=
  b.canceled || decide (b.sourceStatus = .failed) ||
    if b.sourceStatus ∈ srcStates then b.chrootStates.isEmpty || b.unfinished
    else if b.sourceStatus = .canceled then !b.working && b.settled
    else if b.chrootStates = [] then !decide b.sourceStatus.Finished
    else b.working || (if b.settled then !b.unfinished else decide (.waiting ∈ b.chrootStates))

/-- What the fold over chroots finds is one of the first states that a chroot has. -/
theorem find?_states (states l : List StatusEnum) :
    (∃ s ∈ states, states.find? (fun s => decide (s ∈ l)) = some s ∧ s ∈ l) ∨
      (states.find? (fun s => decide (s ∈ l)) = none ∧ l.any (fun s => decide (s ∈ states)) = false)
        := by
  cases found : states.find? fun s => decide (s ∈ l) with
  | some s =>
    have listed : s ∈ l := by simpa using List.find?_some found
    exact Or.inl ⟨s, List.mem_of_find?_eq_some found, rfl, listed⟩
  | none =>
    refine Or.inr ⟨rfl, ?_⟩
    rw [List.any_eq_false]
    intro s listed
    rw [List.find?_eq_none] at found
    simp only [decide_eq_true_eq] at found ⊢
    exact fun member => found s member listed

/-- `status` with names for its lists. -/
theorem status_eq (b : Build) : b.status =
    if b.canceled then some .canceled
    else if b.sourceStatus ∈ srcStates then some b.sourceStatus
    else if b.chrootStates = [] then some .waiting
    else
      (((workStates.find? fun s => decide (s ∈ b.chrootStates)).or
        (settledStates.find? fun s => decide (s ∈ b.chrootStates))).or
          (if .waiting ∈ b.chrootStates then some .pending else none)) := by
  unfold status
  rw [← List.find?_append]
  show (if b.canceled then _ else if b.sourceStatus ∈ srcStates then _ else
    if b.chrootStates = [] then _ else _) = _
  cases b.canceled with
  | true => rfl
  | false =>
    refine if_congr Iff.rfl rfl (if_congr Iff.rfl rfl (if_congr Iff.rfl rfl ?_))
    split
    · rename_i state found
      have found : (workStates ++ settledStates).find? (fun s => decide (s ∈ b.chrootStates)) =
          some state := found
      rw [found, Option.some_or]
    · rename_i found
      have found : (workStates ++ settledStates).find? (fun s => decide (s ∈ b.chrootStates)) =
          none := found
      rw [found, Option.none_or]
      rfl

/-- When the chroots decide about the state. -/
theorem state_of_chroots {b : Build} (active : b.canceled = false)
    (late : b.sourceStatus ∉ srcStates) (inhabited : b.chrootStates ≠ []) :
    (b.state.Finished ↔ b.working = false ∧ b.settled = true) ∧
      (b.state = .unknown ↔ b.working = false ∧ b.settled = false ∧
        .waiting ∉ b.chrootStates) := by
  unfold state working settled
  rw [status_eq, if_neg (by simp [active]), if_neg late, if_neg inhabited]
  rcases find?_states workStates b.chrootStates with
    ⟨s, work, found, listed⟩ | ⟨none, idle⟩
  · have busy : (b.chrootStates.any fun s => decide (s ∈ workStates)) = true :=
      List.any_eq_true.mpr ⟨s, listed, decide_eq_true work⟩
    have known : s ≠ .unknown := by
      intro same
      rw [same] at work
      revert work
      decide
    rw [found, busy]
    simp [not_finished_of_work work, known]
  · rw [none, idle]
    rcases find?_states settledStates b.chrootStates with
      ⟨s, member, found, listed⟩ | ⟨none, unsettled⟩
    · have done : (b.chrootStates.any fun s => decide (s ∈ settledStates)) = true :=
        List.any_eq_true.mpr ⟨s, listed, decide_eq_true member⟩
      have known : s ≠ .unknown := by
        intro same
        rw [same] at member
        revert member
        decide
      rw [found, done]
      simp [finished_of_settled member, known]
    · have pending : ¬ StatusEnum.pending.Finished := by decide
      have unknown : ¬ StatusEnum.unknown.Finished := by decide
      rw [none, unsettled]
      by_cases waiting : .waiting ∈ b.chrootStates
      · simp [waiting, pending]
      · simp [waiting, unknown]

/-- The states of the chroots say whether all of them are finished. -/
theorem unfinished_iff (b : Build) :
    b.unfinished = false ↔ ∀ c ∈ b.buildChroots, c.status.Finished := by
  unfold unfinished chrootStates
  simp

/-- A chroot in work is not finished. -/
theorem unfinished_of_working {b : Build} (working : b.working = true) : b.unfinished = true := by
  obtain ⟨s, listed, work⟩ := List.any_eq_true.mp working
  refine List.any_eq_true.mpr ⟨s, listed, ?_⟩
  simpa using not_finished_of_work (of_decide_eq_true work)

/-- A waiting chroot is not finished. -/
theorem unfinished_of_waiting {b : Build} (waiting : .waiting ∈ b.chrootStates) :
    b.unfinished = true :=
  List.any_eq_true.mpr ⟨.waiting, waiting, rfl⟩

/-- The state of a build is known and says whether it is finished, exactly if its columns agree. -/
theorem state_agrees_iff (b : Build) : b.StateAgrees ↔ b.columnsAgree = true := by
  unfold StateAgrees columnsAgree
  by_cases canceled : b.canceled = true
  · have ended : StatusEnum.canceled.Finished := by decide
    simp [canceled, finished_of_canceled, state, status_eq, ended]
  · have active : b.canceled = false := by simpa using canceled
    have nochroot : b.chrootStates = [] ↔ b.buildChroots = [] := List.map_eq_nil_iff
    rw [finished_iff active, ← unfinished_iff, active, Bool.false_or]
    simp only [ne_eq, ← nochroot]
    by_cases source : b.sourceStatus ∈ srcStates
    · have shown : b.state = b.sourceStatus := by
        unfold state
        rw [status_eq, if_neg (by simp [active]), if_pos source]
        rfl
      have known : b.sourceStatus ≠ .unknown := by
        intro same
        rw [same] at source
        revert source
        decide
      have kept : b.sourceStatus ≠ .canceled := by
        intro same
        rw [same] at source
        revert source
        decide
      rw [shown, if_pos source]
      by_cases failed : b.sourceStatus = .failed
      · have ended : StatusEnum.failed.Finished := by decide
        simp [failed, ended]
      · have going : ¬ b.sourceStatus.Finished := by
          revert source failed
          cases b.sourceStatus <;> decide
        by_cases empty : b.chrootStates = []
        · simp [failed, kept, going, known, empty]
        · simp [failed, kept, going, known, empty]
    · have unfailed : b.sourceStatus ≠ .failed := by
        intro same
        rw [same] at source
        exact source (by decide)
      rw [if_neg source]
      by_cases empty : b.chrootStates = []
      · have shown : b.state = .waiting := by
          unfold state
          rw [status_eq, if_neg (by simp [active]), if_neg source, if_pos empty]
          rfl
        have waiting : ¬ StatusEnum.waiting.Finished := by decide
        rw [shown]
        by_cases dropped : b.sourceStatus = .canceled
        · simp [dropped, waiting, settled, empty]
        · simp [unfailed, dropped, waiting, empty]
      · obtain ⟨ended, unknown⟩ := state_of_chroots active source empty
        rw [ended, unknown]
        have work := unfinished_of_working (b := b)
        have wait := unfinished_of_waiting (b := b)
        by_cases dropped : b.sourceStatus = .canceled
        · cases working : b.working <;> cases settled : b.settled <;>
            simp_all
        · by_cases waiting : .waiting ∈ b.chrootStates
          · cases working : b.working <;> cases settled : b.settled <;>
              simp_all
          · cases working : b.working <;> cases settled : b.settled <;>
              simp_all

/-- Both chroots of an imported build come to the end of their lives: the build is finished, and its
state is unknown. -/
theorem canceled_chroots_disagree :
    ¬ ∀ db : Database, Run Database.operate anyEvent Database.empty db →
      ∀ b ∈ db.builds, b.StateAgrees := by
  intro always
  obtain ⟨db, run, seen⟩ := exec_observe Database.operate (fun _ _ => true) Database.empty
    [Sample.submitted, .message (Sample.sourceReport .succeeded), .message Sample.imported,
      .message (.cancelBuildChrootsByMock Sample.fedora),
      .message (.cancelBuildChrootsByMock Sample.epel)]
    (fun db => db.builds.map Build.state) [.unknown] (by decide)
  obtain ⟨b, builds, state⟩ := List.map_eq_singleton_iff.mp seen
  have member : b ∈ db.builds := by
    rw [builds]
    exact List.mem_singleton_self b
  exact (always db (run_weaken (fun _ _ _ => trivial) run) b member).2 state

end Build

end Copr
