import Copr.Backend.ActionDispatcher

/-!
# Deletions of projects are exclusive

An action that is created while a project of the same namespace is being deleted has to wait. It
does when it sorts behind the deletion in the list of waiting actions; here is why that is enough,
through fetching, queueing and executing, and where it is not the case.
-/

namespace Copr.ActionSystem

open Runs Tables

variable {cfg : WorkerConfig} {limits : List (WorkerLimit ActionQueueTask)}

/-- While a project is being deleted no other action of its namespace is executed. -/
def ExclusiveDeletions (cfg : WorkerConfig) (s : ActionSystem) : Prop :=
  ∀ p ∈ s.backend.procs, ∀ q ∈ s.backend.procs, p.pc = .handling → q.pc = .handling →
    ∀ d ∈ s.actions.rows, ∀ a ∈ s.actions.rows,
      d.worker cfg = p.workerId → a.worker cfg = q.workerId →
        d.isDeleteCopr = true → a.fullName = d.fullName → a.id = d.id

/-- A new action is no deletion of a project whose namespace has waiting actions, and it is newer
than the waiting deletions of its namespace; the manager abandons nobody. -/
def separates (s : ActionSystem) : ActionEvent → Prop
  | .create a => a.isWaiting = true → ∀ b ∈ s.actions.rows, b.isWaiting = true →
      a.copr.isSome = true → b.fullName = a.fullName →
        a.isDeleteCopr = false ∧ (b.isDeleteCopr = true → b.createdOn < a.createdOn)
  | e => s.abandonsNobody e = true

instance (s : ActionSystem) : ∀ e, Decidable (s.separates e)
  | .create a => inferInstanceAs (Decidable (a.isWaiting = true → ∀ b ∈ s.actions.rows,
      b.isWaiting = true → a.copr.isSome = true → b.fullName = a.fullName →
        a.isDeleteCopr = false ∧ (b.isDeleteCopr = true → b.createdOn < a.createdOn)))
  | .fetch _ => inferInstanceAs (Decidable (_ = true))
  | .fetchFails => inferInstanceAs (Decidable (_ = true))
  | .refill => inferInstanceAs (Decidable (_ = true))
  | .finish _ _ _ => inferInstanceAs (Decidable (_ = true))
  | .backend _ => inferInstanceAs (Decidable (_ = true))

/-- A waiting deletion of a project and another action of its namespace. -/
structure Rivals (s : ActionSystem) (d a : Action) : Prop where
  /-- The deletion is known. -/
  deletion : d ∈ s.actions.rows
  /-- The other action is known. -/
  other : a ∈ s.actions.rows
  /-- The deletion waits. -/
  waiting : d.isWaiting = true
  /-- It deletes a project. -/
  deletes : d.isDeleteCopr = true
  /-- They are not the same. -/
  differ : a.id ≠ d.id
  /-- They have the same namespace. -/
  same : a.fullName = d.fullName

/-- Waiting deletions of projects are alone in their namespace or in front. -/
structure Separate (cfg : WorkerConfig) (s : ActionSystem) : Prop where
  /-- Other waiting actions of the namespace are newer. -/
  newer : ∀ d a, s.Rivals d a → a.isWaiting = true →
    a.isDeleteCopr = false ∧ d.createdOn < a.createdOn
  /-- The backend has taken none of them up. -/
  held : ∀ d a, s.Rivals d a → ¬ s.Underway cfg (a.worker cfg)

variable {s t : ActionSystem} {e : ActionEvent}

/-- A deletion of a project belongs to one. -/
theorem copr_of_isDeleteCopr {d : Action} (deletes : d.isDeleteCopr = true) :
    d.copr.isSome = true := by
  rw [Action.isDeleteCopr, Bool.and_eq_true, decide_eq_true_eq, decide_eq_true_eq] at deletes
  exact d.deletes deletes.1 deletes.2

/-- What `separates` says about the step that the backend makes. -/
theorem abandonsNobody_of_separates (separates : s.separates e) : s.abandonsNobody e = true := by
  cases e with
  | create a => rfl
  | _ => exact separates

/-- Rivals were rivals before, or one of them has just been created. -/
theorem rivals_of_step {d a : Action} (stepped : s.step cfg limits e = some t)
    (rivals : t.Rivals d a) :
    (∃ d' a', s.Rivals d' a' ∧ a'.id = a.id ∧ d'.createdOn = d.createdOn ∧
      a'.isDeleteCopr = a.isDeleteCopr ∧ a'.createdOn = a.createdOn ∧
        (a.isWaiting = true → a'.isWaiting = true)) ∨
      (e = .create d ∧ ∃ a' ∈ s.actions.rows, a'.id = a.id ∧ a'.fullName = d.fullName ∧
        (a.isWaiting = true → a'.isWaiting = true)) ∨
        e = .create a ∧ s.actions.find a.id = none ∧ ∃ d' ∈ s.actions.rows,
          d'.isWaiting = true ∧ d'.isDeleteCopr = true ∧ d'.fullName = a.fullName ∧
            d'.createdOn = d.createdOn := by
  rcases action_of_step stepped rivals.deletion with ⟨d', old, idD, nameD, deleteD, timeD, waitD⟩ |
    ⟨rfl, freshD⟩
  · rcases action_of_step stepped rivals.other with ⟨a', old', idA, nameA, deleteA, timeA, waitA⟩ |
      ⟨rfl, freshA⟩
    · left
      refine ⟨d', a', ⟨old, old', waitD rivals.waiting, deleteD.trans rivals.deletes, ?_, ?_⟩,
        idA, timeD, deleteA, timeA, waitA⟩
      · rw [idA, idD]
        exact rivals.differ
      · rw [nameA, nameD]
        exact rivals.same
    · refine Or.inr (Or.inr ⟨rfl, freshA, d', old, waitD rivals.waiting,
        deleteD.trans rivals.deletes, ?_, timeD⟩)
      rw [nameD]
      exact rivals.same.symm
  · right
    left
    rcases action_of_step stepped rivals.other with ⟨a', old', idA, nameA, -, -, waitA⟩ |
      ⟨same, -⟩
    · exact ⟨rfl, a', old', idA, nameA.trans rivals.same, waitA⟩
    · cases same
      exact absurd rfl rivals.differ

/-- An action that is fetched while a project of its namespace waits for its deletion is not a
rival of the deletion. -/
theorem not_rivals_of_fetched {d a : Action} {waiting : List Action}
    (separate : s.Separate cfg) (rivals : s.Rivals d a)
    (valid : IsWaitingList s.actions.rows waiting) : a ∉ listPending [] waiting := by
  intro pending
  have member := mem_listPending pending
  have waits := (List.mem_filter.mp (valid.1.mem_iff.mp member)).2
  obtain ⟨plain, newer⟩ := separate.newer d a rivals waits
  have there : d ∈ waiting :=
    valid.1.mem_iff.mpr (List.mem_filter.mpr ⟨rivals.deletion, rivals.waiting⟩)
  obtain ⟨copr, project⟩ := Option.isSome_iff_exists.mp (copr_of_isDeleteCopr rivals.deletes)
  have named : d.fullName = some copr.fullName := by rw [Action.fullName, project]; rfl
  exact not_mem_listPending valid.2 there rivals.deletes named (rivals.same.trans named) newer
    plain pending

/-- A step that separates keeps waiting deletions separate. -/
theorem step_separate (consistent : s.Consistent cfg) (separate : s.Separate cfg)
    (separates : s.separates e) (stepped : s.step cfg limits e = some t) : t.Separate cfg := by
  have spares := abandonsNobody_of_separates separates
  constructor
  · intro d a rivals waits
    rcases rivals_of_step stepped rivals with ⟨d', a', before, -, timeD, deleteA, timeA, waitA⟩ |
      ⟨rfl, a', old, -, name, waitA⟩ | ⟨rfl, -, d', old, waitD, deleteD, name, timeD⟩
    · have kept := separate.newer d' a' before (waitA waits)
      rwa [deleteA, timeD, timeA] at kept
    · have refused := separates rivals.waiting a' old (waitA waits)
        (copr_of_isDeleteCopr rivals.deletes) name
      rw [rivals.deletes] at refused
      exact absurd refused.1 (by decide)
    · have project : a.copr.isSome = true := by
        have some_ := copr_of_isDeleteCopr deleteD
        have names := congrArg Option.isSome name
        simpa [Action.fullName, some_] using names.symm
      have kept := separates waits d' old waitD project name
      rw [timeD] at kept
      exact ⟨kept.1, kept.2 deleteD⟩
  · intro d a rivals underway
    rcases underway_of_step consistent spares stepped underway with before |
      ⟨waiting, rfl, valid, x, pending, own⟩
    · rcases rivals_of_step stepped rivals with ⟨d', a', old, ids, -⟩ |
        ⟨rfl, a', old, ids, name, waitA⟩ | ⟨rfl, fresh, -⟩
      · refine separate.held d' a' old ?_
        rwa [Action.worker, ids]
      · -- The deletion has just been created: the other action was waiting.
        obtain ⟨b, listed, waits, same⟩ := consistent.waits _ before
        have ids' : b.id = a'.id := (worker_inj same).trans ids.symm
        obtain rfl := Table.eq_of_key listed old ids'
        have refused := separates rivals.waiting b old waits
          (copr_of_isDeleteCopr rivals.deletes) name
        rw [rivals.deletes] at refused
        exact absurd refused.1 (by decide)
      · obtain ⟨b, listed, -, same⟩ := consistent.waits _ before
        exact Table.find_eq_none.mp fresh b listed (worker_inj same)
    · obtain ⟨-, same⟩ := Option.ite_none_right_eq_some.mp stepped
      cases same
      have member := valid.1.mem_iff.mp (mem_listPending pending)
      have listed := (List.mem_filter.mp member).1
      obtain rfl := Table.eq_of_key listed rivals.other (worker_inj own)
      exact not_rivals_of_fetched separate ⟨rivals.deletion, rivals.other, rivals.waiting,
        rivals.deletes, rivals.differ, rivals.same⟩ valid pending

/-- A process that handles a task has its action underway. -/
theorem underway_of_handling {p : Proc} (consistent : s.Consistent cfg)
    (member : p ∈ s.backend.procs) (handling : p.pc = .handling) :
    s.Underway cfg p.workerId := by
  have charge : World.InCharge p := ⟨by simp [handling], by simp [handling],
    consistent.orderly.handling p member handling⟩
  exact Or.inl (Or.inr (Or.inr ⟨p, member, charge, rfl⟩))

/-- In every run in which no deletion of a project is created while actions of its namespace wait,
actions created behind a waiting deletion are newer than it, and the manager abandons nobody, no
other action of the namespace is executed while the project is being deleted. -/
theorem deletions_exclusive (run : Run (step cfg limits) separates (initial cfg limits) s) :
    s.ExclusiveDeletions cfg := by
  have start : (initial cfg limits).Separate cfg := by
    constructor
    · intro d a rivals
      exact absurd rivals.deletion List.not_mem_nil
    · intro d a rivals
      exact absurd rivals.deletion List.not_mem_nil
  have holds : s.Consistent cfg ∧ s.Separate cfg := by
    refine run_invariant (fun s => s.Consistent cfg ∧ s.Separate cfg) ?_ run
      ⟨initial_consistent, start⟩
    intro s e t both separates stepped
    exact ⟨step_consistent both.1 (abandonsNobody_of_separates separates) stepped,
      step_separate both.1 both.2 separates stepped⟩
  obtain ⟨consistent, separate⟩ := holds
  intro p inP q inQ handlingP handlingQ d listedD a listedA ownD ownA deletes same
  by_contra differ
  obtain ⟨b, listed, waits, own⟩ :=
    consistent.waits _ (underway_of_handling consistent inP handlingP)
  obtain rfl := Table.eq_of_key listed listedD (worker_inj (own.trans ownD.symm))
  have underway := underway_of_handling consistent inQ handlingQ
  rw [← ownA] at underway
  exact separate.held b a ⟨listed, listedA, waits, deletes, differ, same⟩ underway

end Copr.ActionSystem

namespace Copr

open Runs

namespace Sample

/-- `ActionWorkerManager` with the default of `actions_max_workers`. -/
def actionWorkerManager : WorkerConfig :=
  { World.defaultConfig with workerPrefix := "action_worker", maxWorkers := some 10 }

/-- The project `frostyx/hello`. -/
def helloProject : ActionCopr := ⟨"frostyx", "hello"⟩

/-- The project is deleted. -/
def deleteHello : Action :=
  ⟨1, .delete, "copr", some 0, 10, some helloProject, none, fun _ _ => rfl⟩

/-- A project is forked to the same name in the same second. -/
def forkHello : Action :=
  ⟨2, .fork, "copr", some 0, 10, some helloProject, none, fun _ wrong => by cases wrong⟩

/-- A project is forked to the same name later. -/
def forkHelloLater : Action :=
  ⟨2, .fork, "copr", some 0, 11, some helloProject, none, fun _ wrong => by cases wrong⟩

/-- The dispatcher starts a worker for the first task of the queue. -/
def startsWorker (now : Time) (pid : Nat) : List ActionEvent :=
  [.backend (.manager now), .backend (.manager now), .backend (.startTask pid)]

/-- A background process gets to handle its task. -/
def getsToWork (index : Nat) : List ActionEvent :=
  [.backend (.proc index .next), .backend (.proc index .next), .backend (.proc index .next)]

end Sample

/-- `copr delete` and `copr fork` in one second: both actions are listed, and both are executed at
the same time. -/
theorem ActionSystem.deletion_not_exclusive : ¬ ∀ s : ActionSystem,
    Run (ActionSystem.step Sample.actionWorkerManager []) anyEvent
      (.initial Sample.actionWorkerManager []) s →
        s.ExclusiveDeletions Sample.actionWorkerManager := by
  intro claimed
  obtain ⟨s, run, seen⟩ := exec_observe (ActionSystem.step Sample.actionWorkerManager [])
    (fun _ _ => true) (.initial Sample.actionWorkerManager [])
    ([.create Sample.deleteHello, .create Sample.forkHello,
      .fetch [Sample.forkHello, Sample.deleteHello], .refill, .backend .run,
      .backend (.cleanup 100 [])] ++ Sample.startsWorker 100 7 ++ Sample.startsWorker 101 8 ++
      Sample.getsToWork 0 ++ Sample.getsToWork 1)
    (fun s => (s.backend.procs.map fun p => (p.workerId, p.pc), s.actions.rows))
    ([("action_worker:2", .handling), ("action_worker:1", .handling)],
      [Sample.deleteHello, Sample.forkHello]) (by decide)
  simp only [Prod.mk.injEq] at seen
  obtain ⟨procs, rows⟩ := seen
  have inP : ("action_worker:1", ProcPc.handling) ∈
      s.backend.procs.map fun p => (p.workerId, p.pc) := by simp [procs]
  have inQ : ("action_worker:2", ProcPc.handling) ∈
      s.backend.procs.map fun p => (p.workerId, p.pc) := by simp [procs]
  obtain ⟨p, memberP, sameP⟩ := List.mem_map.mp inP
  obtain ⟨q, memberQ, sameQ⟩ := List.mem_map.mp inQ
  simp only [Prod.mk.injEq] at sameP sameQ
  have exclusive := claimed s (run_weaken (fun _ _ _ => trivial) run)
  have same := exclusive p memberP q memberQ sameP.2 sameQ.2 Sample.deleteHello (by simp [rows])
    Sample.forkHello (by simp [rows]) (sameP.1 ▸ by decide) (sameQ.1 ▸ by decide) (by decide)
    (by decide)
  exact absurd same (by decide)

/-- A fork that is created later is held back while the deletion is executed. -/
theorem ActionSystem.deletions_exclusive_later : ∃ s : ActionSystem,
    s.backend.procs.map (fun p => (p.workerId, p.pc)) = [("action_worker:1", .handling)] ∧
      s.ExclusiveDeletions Sample.actionWorkerManager := by
  obtain ⟨s, run, seen⟩ := exec_observe (ActionSystem.step Sample.actionWorkerManager [])
    (fun s e => decide (s.separates e)) (.initial Sample.actionWorkerManager [])
    ([.create Sample.deleteHello, .create Sample.forkHelloLater,
      .fetch [Sample.deleteHello, Sample.forkHelloLater], .refill, .backend .run,
      .backend (.cleanup 100 [])] ++ Sample.startsWorker 100 7 ++ Sample.getsToWork 0)
    (fun s => s.backend.procs.map fun p => (p.workerId, p.pc)) [("action_worker:1", .handling)]
    (by decide)
  exact ⟨s, seen, deletions_exclusive (run_weaken (fun _ _ => of_decide_eq_true) run)⟩

end Copr
