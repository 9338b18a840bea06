import Copr.Backend.NamespaceExclusion

/-!
# Results of actions are delivered

A background worker leaves the result of its action in Redis, where it has to stay until the
frontend has accepted it: an action that still waits on the frontend is fetched and executed
again. `_cleanup_workers` does not look at what `finish_task` returns, so every report has to be
accepted at once.
-/

namespace Copr.ActionSystem

open Runs Tables

variable {cfg : WorkerConfig} {limits : List (WorkerLimit ActionQueueTask)}

/-- Results are kept until they are reported, and nothing is done twice. -/
structure ResultsDelivered (cfg : WorkerConfig) (limits : List (WorkerLimit ActionQueueTask))
    (s : ActionSystem) : Prop where
  /-- A result leaves Redis only after `finish_task` has returned `True` for it. -/
  kept : ∀ e t id, s.step cfg limits e = some t → s.backend.HasResult id →
    ¬ t.backend.HasResult id → id ∈ s.confirmed ∧ ¬ s.Waits cfg id
  /-- An action that was executed to its end is not started again. -/
  once : ∀ e t id, s.step cfg limits e = some t → t.backend.pc = .spawning id →
    s.backend.pc ≠ t.backend.pc → id ∉ s.executed

/-- The manager has decided to delete the worker. -/
def condemned (w : World ActionQueueTask) (id : String) : Bool :=
  match w.pc with
  | .deleting worker _ => decide (worker = id)
  | _ => false

/-- The frontend accepts every report; the manager abandons nobody, and no process stores its
result when the manager has already decided to delete its worker. -/
def delivers (s : ActionSystem) : ActionEvent → Bool
  | .finish _ _ reply => decide (reply = .accepted)
  | .backend (.proc index .next) =>
    s.abandonsNobody (.backend (.proc index .next)) &&
      (s.backend.procs[index]?).all fun p =>
        !(decide (p.pc = .handling) && condemned s.backend p.workerId)
  | e => s.abandonsNobody e

/-- What is known of actions that were executed. -/
structure Delivered (cfg : WorkerConfig) (s : ActionSystem) : Prop where
  /-- They are in the table. -/
  known : ∀ id ∈ s.executed, ∃ a ∈ s.actions.rows, a.worker cfg = id
  /-- They are all those with a result. -/
  counted : ∀ id, s.backend.HasResult id → id ∈ s.executed
  /-- A result that is about to be deleted was accepted. -/
  reported : ∀ id ids, s.backend.pc = .deleting id ids → s.backend.HasResult id →
    id ∈ s.confirmed ∧ ¬ s.Waits cfg id
  /-- They do not wait, unless Redis still has the result. -/
  done : ∀ id ∈ s.executed, s.backend.HasResult id ∨ ¬ s.Waits cfg id

variable {s t : ActionSystem} {e : ActionEvent} {id : String}

/-- Delivering includes to abandon nobody. -/
theorem abandonsNobody_of_delivers (delivers : s.delivers e = true)
    (stepped : s.step cfg limits e = some t) : s.abandonsNobody e = true := by
  cases e with
  | finish now result reply =>
    obtain ⟨-, some_⟩ := Option.ite_none_right_eq_some.mp stepped
    obtain ⟨worker, reads, -⟩ := Option.bind_eq_some_iff.mp some_
    obtain ⟨ids, stood⟩ := (hasResult_of_finishing reads).2
    simp [abandonsNobody, backendEvent, World.abandonsNobody, stood]
  | backend event =>
    cases event with
    | proc index event =>
      cases event with
      | next => exact (Bool.and_eq_true _ _ ▸ delivers).1
      | cancel => rfl
      | die => rfl
    | _ => exact delivers
  | _ => exact delivers

/-- What is executed after a step was executed before, or a process has just stored its result. -/
theorem executed_of_step (stepped : s.step cfg limits e = some t) :
    id ∈ t.executed ↔ id ∈ s.executed ∨
      ∃ event, s.backendEvent e = some event ∧ s.backend.Stores event id := by
  have quiet : (∀ event, s.backendEvent e = some event → ∀ index, event ≠ .proc index .next) →
      ¬ ∃ event, s.backendEvent e = some event ∧ s.backend.Stores event id := by
    rintro other ⟨event, happens, index, p, rfl, -⟩
    exact other _ happens index rfl
  cases e with
  | create a =>
    obtain ⟨-, same⟩ := Option.ite_none_right_eq_some.mp stepped
    cases same
    simp [quiet fun event happens => by contradiction]
  | fetch waiting =>
    obtain ⟨-, same⟩ := Option.ite_none_right_eq_some.mp stepped
    cases same
    simp [quiet fun event happens => by contradiction]
  | fetchFails =>
    obtain ⟨-, same⟩ := Option.ite_none_right_eq_some.mp stepped
    cases same
    simp [quiet fun event happens => by contradiction]
  | refill =>
    have none := quiet fun event happens index same => by
      obtain ⟨tasks, -, rfl⟩ := Option.map_eq_some_iff.mp happens
      contradiction
    simp only [step] at stepped
    split at stepped
    · contradiction
    · obtain ⟨w, -, rfl⟩ := Option.map_eq_some_iff.mp stepped
      simp [none]
  | finish now result reply =>
    have none := quiet fun event happens index same => by
      cases happens
      contradiction
    obtain ⟨-, some_⟩ := Option.ite_none_right_eq_some.mp stepped
    obtain ⟨worker, -, more⟩ := Option.bind_eq_some_iff.mp some_
    obtain ⟨w, -, rfl⟩ := Option.map_eq_some_iff.mp more
    simp [none]
  | backend event =>
    obtain ⟨-, some_⟩ := Option.ite_none_right_eq_some.mp stepped
    obtain ⟨w, -, rfl⟩ := Option.map_eq_some_iff.mp some_
    have stored : id ∈ storing s.backend event ↔ s.backend.Stores event id := by
      constructor
      · intro inside
        unfold storing at inside
        split at inside
        · rename_i index
          obtain ⟨p, found, own⟩ := List.mem_map.mp inside
          obtain ⟨there, handling⟩ := Option.filter_eq_some_iff.mp (Option.mem_toList.mp found)
          exact ⟨index, p, rfl, there, of_decide_eq_true handling, own⟩
        · contradiction
      · rintro ⟨index, p, rfl, there, handling, own⟩
        simp [storing, there, Option.filter, handling, own]
    simp [backendEvent, stored]

/-- A confirmation is not taken back. -/
theorem confirmed_of_step (stepped : s.step cfg limits e = some t) (confirmed : id ∈ s.confirmed) :
    id ∈ t.confirmed := by
  cases e with
  | finish now result reply =>
    obtain ⟨-, some_⟩ := Option.ite_none_right_eq_some.mp stepped
    obtain ⟨worker, -, more⟩ := Option.bind_eq_some_iff.mp some_
    obtain ⟨w, -, rfl⟩ := Option.map_eq_some_iff.mp more
    dsimp only
    split
    · exact List.mem_append_left _ confirmed
    · exact confirmed
  | refill =>
    simp only [step] at stepped
    split at stepped
    · contradiction
    · obtain ⟨w, -, rfl⟩ := Option.map_eq_some_iff.mp stepped
      exact confirmed
  | backend event =>
    obtain ⟨-, some_⟩ := Option.ite_none_right_eq_some.mp stepped
    obtain ⟨w, -, rfl⟩ := Option.map_eq_some_iff.mp some_
    exact confirmed
  | _ =>
    obtain ⟨-, same⟩ := Option.ite_none_right_eq_some.mp stepped
    cases same
    exact confirmed

/-- When the manager has read a result, the report of it was accepted. -/
theorem confirmed_of_reading {ids : List String} (held : s.backend.Holds id)
    (result : s.backend.HasResult id) (stood : s.backend.pc = .sweeping (id :: ids))
    (delivers : s.delivers e = true) (stepped : s.step cfg limits e = some t)
    (manages : ∃ now, s.backendEvent e = some (.manager now)) :
    id ∈ t.confirmed ∧ ¬ t.Waits cfg id := by
  have reads : finishing s.backend = some id := by
    simp [finishing, stood, held.2, result]
  obtain ⟨now, happens⟩ := manages
  cases e with
  | create a => contradiction
  | fetch waiting => contradiction
  | fetchFails => contradiction
  | refill =>
    obtain ⟨tasks, -, impossible⟩ := Option.map_eq_some_iff.mp happens
    contradiction
  | backend event =>
    cases happens
    obtain ⟨permitted, -⟩ := Option.ite_none_right_eq_some.mp stepped
    simp [alone, reads] at permitted
  | finish now' outcome reply =>
    have accepted : reply = .accepted := of_decide_eq_true delivers
    obtain ⟨-, some_⟩ := Option.ite_none_right_eq_some.mp stepped
    rw [reads, Option.bind_some] at some_
    obtain ⟨w, -, rfl⟩ := Option.map_eq_some_iff.mp some_
    subst accepted
    refine ⟨by simp, ?_⟩
    rintro ⟨a, listed, waiting, own⟩
    obtain ⟨b, -, rfl⟩ := List.mem_map.mp listed
    split at own
    · rename_i recorded
      rw [if_pos recorded] at waiting
      simp [Action.isWaiting] at waiting
    · rename_i other
      simp [own] at other

/-- A step that delivers keeps what is known of executed actions. -/
theorem step_delivered (consistent : s.Consistent cfg) (delivered : s.Delivered cfg)
    (delivers : s.delivers e = true) (stepped : s.step cfg limits e = some t) :
    t.Delivered cfg := by
  have spares := abandonsNobody_of_delivers delivers stepped
  have after := step_consistent consistent spares stepped
  -- A process that stores its result has a waiting action.
  have storing : ∀ event id, s.backend.Stores event id →
      ∃ a ∈ s.actions.rows, a.worker cfg = id := by
    rintro event id ⟨index, p, -, there, handling, rfl⟩
    obtain ⟨a, listed, -, own⟩ := consistent.waits _
      (underway_of_handling consistent (List.mem_of_getElem? there) handling)
    exact ⟨a, listed, own⟩
  have known : ∀ id ∈ t.executed, ∃ a ∈ s.actions.rows, a.worker cfg = id := by
    intro id member
    rcases (executed_of_step stepped).mp member with before | ⟨event, -, stores⟩
    · exact delivered.known id before
    · exact storing event id stores
  -- An executed action does not begin to wait.
  have still : ∀ id ∈ t.executed, ¬ s.Waits cfg id → ¬ t.Waits cfg id := by
    intro id member ended waits
    obtain ⟨a, listed, rfl⟩ := known id member
    exact ended (waits_before_step stepped listed waits)
  have result_before : ∀ id, t.backend.HasResult id → s.backend.HasResult id ∨
      ∃ event, s.backendEvent e = some event ∧ s.backend.Stores event id := by
    intro id result
    rcases step_backend stepped with ⟨-, same⟩ | ⟨event, happens, advanced⟩
    · exact Or.inl (same ▸ result)
    · rcases World.hasResult_of_step consistent.orderly advanced result with before | stores
      · exact Or.inl before
      · exact Or.inr ⟨event, happens, stores⟩
  have counted : ∀ id, t.backend.HasResult id → id ∈ t.executed := by
    intro id result
    rw [executed_of_step stepped]
    exact (result_before id result).imp_left (delivered.counted id)
  constructor
  · intro id member
    obtain ⟨a, listed, rfl⟩ := known id member
    exact row_of_step stepped listed
  · exact counted
  · intro id ids stands result
    have member := counted id result
    rcases step_backend stepped with ⟨-, same⟩ | ⟨event, happens, advanced⟩
    · rw [same] at stands result
      obtain ⟨confirmed, ended⟩ := delivered.reported id ids stands result
      exact ⟨confirmed_of_step stepped confirmed, still id member ended⟩
    · rcases World.deleting_of_step advanced stands with before | ⟨⟨now, rfl⟩, stood, unread⟩
      · rcases result_before id result with old | ⟨event', happens', index, p, rfl, there, handling,
          own⟩
        · obtain ⟨confirmed, ended⟩ := delivered.reported id ids before old
          exact ⟨confirmed_of_step stepped confirmed, still id member ended⟩
        · -- No process stores its result now.
          cases e with
          | backend event'' =>
            cases happens'
            have late := (Bool.and_eq_true _ _ ▸ delivers).2
            rw [there] at late
            simp [handling, condemned, before, own] at late
          | finish now result reply => cases happens'
          | refill =>
            obtain ⟨tasks, -, impossible⟩ := Option.map_eq_some_iff.mp happens'
            contradiction
          | _ => contradiction
      · have read : s.backend.HasResult id := by
          rw [World.HasResult, ← unread]
          exact result
        have held := (consistent.settled.held id read).1
        exact confirmed_of_reading held read stood delivers stepped ⟨now, happens⟩
  · intro id member
    by_cases result : t.backend.HasResult id
    · exact Or.inl result
    · right
      have before : id ∈ s.executed ∨ t.backend.HasResult id := by
        rcases (executed_of_step stepped).mp member with old | ⟨event, happens, stores⟩
        · exact Or.inl old
        · right
          rcases step_backend stepped with ⟨nothing, -⟩ | ⟨event', happens', advanced⟩
          · rw [nothing] at happens
            contradiction
          · rw [happens] at happens'
            cases happens'
            exact World.hasResult_of_stores advanced stores
      have old := before.resolve_right result
      rcases delivered.done id old with read | ended
      · rcases step_backend stepped with ⟨-, same⟩ | ⟨event, happens, advanced⟩
        · rw [same] at result
          exact absurd read result
        · obtain ⟨now, ids, -, stood⟩ :=
            World.drops_of_step consistent.orderly advanced read result
          exact still id member (delivered.reported id ids stood read).2
      · exact still id member ended

/-- An executed action is not on its way to a process. -/
theorem not_begun_of_executed (consistent : s.Consistent cfg) (delivered : s.Delivered cfg)
    (executed : id ∈ s.executed) : ¬ s.backend.Begun cfg id := by
  intro begun
  rcases delivered.done id executed with result | ended
  · exact consistent.settled.not_begun consistent.orderly result begun
  · exact ended (consistent.waits id (Or.inl begun))

/-- In every run in which the frontend accepts every report at once, the manager abandons nobody
and no result is stored for a worker that is about to be deleted, results leave Redis only after
they were accepted, and no action that was executed to its end is started again. -/
theorem results_delivered
    (run : Run (step cfg limits) (fun s e => s.delivers e = true) (initial cfg limits) s) :
    s.ResultsDelivered cfg limits := by
  have start : (initial cfg limits).Delivered cfg := by
    have fresh : ∀ id, ¬ (initial cfg limits).backend.HasResult id := fun id result =>
      absurd (World.initial_settled.held id result).1.1
        (by simp [World.initial, WorkerManager.construct, WorkerConfig.workerIds, Redis.keys])
    refine ⟨?_, fun id result => absurd result (fresh id),
      fun id ids _ result => absurd result (fresh id), ?_⟩
    · intro id member
      exact absurd member List.not_mem_nil
    · intro id member
      exact absurd member List.not_mem_nil
  have holds : s.Consistent cfg ∧ s.Delivered cfg := by
    refine run_invariant (fun s => s.Consistent cfg ∧ s.Delivered cfg) ?_ run
      ⟨initial_consistent, start⟩
    intro s e t both delivers stepped
    exact ⟨step_consistent both.1 (abandonsNobody_of_delivers delivers stepped) stepped,
      step_delivered both.1 both.2 delivers stepped⟩
  obtain ⟨consistent, delivered⟩ := holds
  constructor
  · intro e t id stepped result gone
    rcases step_backend stepped with ⟨-, same⟩ | ⟨event, -, advanced⟩
    · rw [same] at gone
      exact absurd result gone
    · obtain ⟨now, ids, -, stood⟩ := World.drops_of_step consistent.orderly advanced result gone
      exact delivered.reported id ids stood result
  · intro e t id stepped spawning moved executed
    rcases step_backend stepped with ⟨-, same⟩ | ⟨event, -, advanced⟩
    · rw [same] at moved
      exact moved rfl
    · have queued := World.step_spawning consistent.orderly.queue.queue advanced spawning moved
      exact not_begun_of_executed consistent delivered executed (Or.inl queued)

end Copr.ActionSystem

namespace Copr

open Runs

namespace Sample

/-- A key is generated for the project. -/
def generateKey : Action :=
  ⟨1, .genGpgKey, "copr", some 0, 10, some helloProject, none, fun _ wrong => by cases wrong⟩

/-- An action is fetched, started and executed to its end, and a cleanup lists its worker. -/
def executesKey : List ActionEvent :=
  [.create generateKey, .fetch [generateKey], .refill, .backend .run,
    .backend (.cleanup 100 [])] ++ startsWorker 100 7 ++ getsToWork 0 ++
    [.backend (.proc 0 .next), .backend (.cleanup 104 ["action_worker:1"])]

end Sample

namespace ActionSystem

/-- A report that the frontend refuses is the last one: the result is deleted, and the action is
fetched and started again. -/
theorem result_lost :
    (¬ ∀ s : ActionSystem, Run (step Sample.actionWorkerManager []) anyEvent
      (initial Sample.actionWorkerManager []) s → ∀ e t id,
        s.step Sample.actionWorkerManager [] e = some t → s.backend.HasResult id →
          ¬ t.backend.HasResult id → id ∈ s.confirmed) ∧
    ¬ ∀ s : ActionSystem, Run (step Sample.actionWorkerManager []) anyEvent
      (initial Sample.actionWorkerManager []) s → ∀ id, s.backend.pc = .spawning id →
        id ∉ s.executed := by
  constructor
  · intro claimed
    obtain ⟨s, run, seen⟩ := exec_observe (step Sample.actionWorkerManager []) (fun _ _ => true)
      (initial Sample.actionWorkerManager [])
      (Sample.executesKey ++ [.finish 104 .success .refused])
      (fun s => (decide (s.backend.HasResult "action_worker:1"), s.confirmed,
        (s.step Sample.actionWorkerManager [] (.backend (.manager 104))).map
          fun t : ActionSystem => decide (t.backend.HasResult "action_worker:1")))
      (true, [], some false) (by decide)
    simp only [Prod.mk.injEq, decide_eq_true_eq] at seen
    obtain ⟨result, confirmed, deleted⟩ := seen
    obtain ⟨t, stepped, gone⟩ := Option.map_eq_some_iff.mp deleted
    have kept := claimed s (run_weaken (fun _ _ _ => trivial) run) _ t _ stepped result
      (of_decide_eq_false gone)
    rw [confirmed] at kept
    exact absurd kept List.not_mem_nil
  · intro claimed
    obtain ⟨s, run, seen⟩ := exec_observe (step Sample.actionWorkerManager []) (fun _ _ => true)
      (initial Sample.actionWorkerManager [])
      (Sample.executesKey ++ [.finish 104 .success .refused, .backend (.manager 104),
        .backend (.manager 104), .backend (.manager 104), .fetch [Sample.generateKey], .refill,
        .backend .run, .backend (.cleanup 108 []), .backend (.manager 108),
        .backend (.manager 108)])
      (fun s => (s.backend.pc, s.executed)) (.spawning "action_worker:1", ["action_worker:1"])
      (by decide)
    simp only [Prod.mk.injEq] at seen
    have fresh := claimed s (run_weaken (fun _ _ _ => trivial) run) _ seen.1
    rw [seen.2] at fresh
    exact absurd (List.mem_singleton_self _) fresh

/-- A report that the frontend accepts at once. -/
theorem results_delivered_once : ∃ s : ActionSystem,
    (s.executed, s.confirmed) = (["action_worker:1"], ["action_worker:1"]) ∧
      s.ResultsDelivered Sample.actionWorkerManager [] := by
  obtain ⟨s, run, seen⟩ := exec_observe (step Sample.actionWorkerManager []) delivers
    (initial Sample.actionWorkerManager [])
    (Sample.executesKey ++ [.finish 104 .success .accepted, .backend (.manager 104)])
    (fun s => (s.executed, s.confirmed)) (["action_worker:1"], ["action_worker:1"]) (by decide)
  exact ⟨s, seen, results_delivered run⟩

end ActionSystem

end Copr
