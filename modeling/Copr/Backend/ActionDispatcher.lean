import Copr.Common.WorkerResults
import Copr.Frontend.PendingActions
import Copr.Lib.Text

/-!
# The action dispatcher

`ActionDispatcher` of `copr_backend/daemons/action_dispatcher.py` between the frontend's table of
actions and the manager of background action workers, with `finish_task` of `ActionWorkerManager`
in `copr_backend/actions.py`, which reports results to a frontend that may fail to answer.
-/

namespace Copr

open Runs Tables

/-- `ActionQueueTask`. -/
structure ActionQueueTask where
  /-- `task`. -/
  task : PendingAction
  deriving DecidableEq, Repr

namespace ActionQueueTask

/-- `owner`. -/
def owner (t : ActionQueueTask) : Option String := t.task.projectOwner

instance : QueueTask ActionQueueTask where
  taskId t := toString t.task.id
  priority t := t.task.priority

end ActionQueueTask

/-- The worker id of an action. -/
def Action.worker (cfg : WorkerConfig) (a : Action) : String := cfg.workerId (toString a.id)

/-- How the frontend answers to `finish_task`. -/
inductive FinishReply
  /-- The result is recorded; `finish_task` returns `True`. -/
  | accepted
  /-- The result is recorded, but the answer is lost; `finish_task` returns `False`. -/
  | unconfirmed
  /-- The frontend is not reached or refuses; `finish_task` returns `False`. -/
  | refused
  deriving DecidableEq, Repr

/-- The frontend's table, the backend and the answer that is on its way. -/
structure ActionSystem where
  /-- The actions. -/
  actions : Table Action.id
  /-- The manager of the action dispatcher, Redis and the background workers. -/
  backend : World ActionQueueTask
  /-- What `get_frontend_tasks` has returned, until it is handed over. -/
  answer : Option (List ActionQueueTask)
  /-- The workers whose process has executed an action to its end (history). -/
  executed : List String
  /-- The workers for which `finish_task` has returned `True` (history). -/
  confirmed : List String

/-- What happens next. -/
inductive ActionEvent
  /-- The frontend creates an action. -/
  | create (a : Action)
  /-- `get_frontend_tasks` gets the list made of these waiting actions. -/
  | fetch (waiting : List Action)
  /-- `get_frontend_tasks` fails and returns an empty list. -/
  | fetchFails
  /-- The dispatcher hands the returned list over. -/
  | refill
  /-- `_cleanup_workers` finds a worker with a result and calls `finish_task`. -/
  | finish (now : Time) (result : BackendResultEnum) (reply : FinishReply)
  /-- Anything else that happens in the backend. -/
  | backend (event : Event ActionQueueTask)

namespace ActionSystem

variable (cfg : WorkerConfig) (limits : List (WorkerLimit ActionQueueTask))

/-- Both sides start empty. -/
def initial : ActionSystem where
  actions := .empty
  backend := .initial cfg limits ⟨∅⟩ []
  answer := none
  executed := []
  confirmed := []

/-- The worker whose result `_cleanup_workers` reads next. -/
def finishing (w : World ActionQueueTask) : Option String :=
  match w.pc with
  | .sweeping (id :: _) =>
    if (w.redis.hgetall id).allocated.isSome && decide (w.HasResult id) then some id else none
  | _ => none

/-- Whether the event can happen without the frontend. While an answer is on its way the
dispatcher waits; it requests no cancelations of actions. -/
def alone (s : ActionSystem) : Event ActionQueueTask → Bool
  | .addTask _ => false
  | .cleanTasks => false
  | .refill _ => false
  | .cancelTaskId _ => false
  | .manager _ => s.answer.isNone && (finishing s.backend).isNone
  | .proc _ _ => true
  | .restart => true
  | _ => s.answer.isNone

/-- The worker whose process stores its result. -/
def storing (w : World ActionQueueTask) : Event ActionQueueTask → List String
  | .proc index .next =>
    ((w.procs[index]?).filter fun p => decide (p.pc = .handling)).toList.map Proc.workerId
  | _ => []

/-- The answer that is on its way after an event; a restarted dispatcher expects none. -/
def answerAfter (s : ActionSystem) : Event ActionQueueTask → Option (List ActionQueueTask)
  | .restart => none
  | _ => s.answer

/-- The frontend records the result of the action of a worker. -/
def recordResult (s : ActionSystem) (id : String) (result : BackendResultEnum) : Table Action.id :=
  s.actions.update (fun a => decide (a.worker cfg = id)) (fun a => { a with result := some result })
    fun _ => rfl

/-- One step of frontend or backend. -/
def step (s : ActionSystem) : ActionEvent → Option ActionSystem
  | .create a =>
    if a.result = none ∧ s.actions.find a.id = none then
      some { s with actions := s.actions.insert a }
    else none
  | .fetch waiting =>
    if s.answer = none ∧ s.backend.pc = .idle ∧ IsWaitingList s.actions.rows waiting then
      some { s with answer := some ((pendingActions waiting).map ActionQueueTask.mk) }
    else none
  | .fetchFails =>
    if s.answer = none ∧ s.backend.pc = .idle then some { s with answer := some [] } else none
  | .refill =>
    match s.answer with
    | none => none
    | some tasks =>
      (s.backend.step cfg limits (.refill tasks)).map fun w =>
        { s with backend := w, answer := none }
  | .finish now result reply =>
    if s.answer = none then
      (finishing s.backend).bind fun id =>
        (s.backend.step cfg limits (.manager now)).map fun w =>
          { s with
            backend := w
            actions := if reply = .refused then s.actions else s.recordResult cfg id result
            confirmed := if reply = .accepted then s.confirmed ++ [id] else s.confirmed }
    else none
  | .backend event =>
    if s.alone event then
      (s.backend.step cfg limits event).map fun w =>
        { s with
          backend := w
          answer := s.answerAfter event
          executed := s.executed ++ storing s.backend event }
    else none

variable {cfg limits} {s t : ActionSystem} {e : ActionEvent} {id : String}

/-! ## What a step can do -/

/-- Actions with the same worker have the same id. -/
theorem worker_inj {a b : Action} (same : a.worker cfg = b.worker cfg) : a.id = b.id := by
  have ids : toString a.id = toString b.id := cfg.workerId_injective same
  exact Text.toString_nat_inj ids

/-- The event of the backend in a step of the system. -/
def backendEvent (s : ActionSystem) : ActionEvent → Option (Event ActionQueueTask)
  | .refill => s.answer.map Event.refill
  | .finish now _ _ => some (.manager now)
  | .backend event => some event
  | _ => none

/-- A step of the system is nothing or one step for the backend. -/
theorem step_backend (stepped : s.step cfg limits e = some t) :
    (s.backendEvent e = none ∧ t.backend = s.backend) ∨
      ∃ event, s.backendEvent e = some event ∧
        s.backend.step cfg limits event = some t.backend := by
  cases e with
  | create a =>
    obtain ⟨-, same⟩ := Option.ite_none_right_eq_some.mp stepped
    cases same
    exact Or.inl ⟨rfl, rfl⟩
  | fetch waiting =>
    obtain ⟨-, same⟩ := Option.ite_none_right_eq_some.mp stepped
    cases same
    exact Or.inl ⟨rfl, rfl⟩
  | fetchFails =>
    obtain ⟨-, same⟩ := Option.ite_none_right_eq_some.mp stepped
    cases same
    exact Or.inl ⟨rfl, rfl⟩
  | refill =>
    right
    simp only [step] at stepped
    split at stepped
    · contradiction
    · rename_i tasks expected
      obtain ⟨w, handed, rfl⟩ := Option.map_eq_some_iff.mp stepped
      exact ⟨.refill tasks, by rw [backendEvent, expected]; rfl, handed⟩
  | finish now result reply =>
    right
    obtain ⟨-, some_⟩ := Option.ite_none_right_eq_some.mp stepped
    obtain ⟨id, -, more⟩ := Option.bind_eq_some_iff.mp some_
    obtain ⟨w, done, rfl⟩ := Option.map_eq_some_iff.mp more
    exact ⟨.manager now, rfl, done⟩
  | backend event =>
    right
    obtain ⟨-, some_⟩ := Option.ite_none_right_eq_some.mp stepped
    obtain ⟨w, done, rfl⟩ := Option.map_eq_some_iff.mp some_
    exact ⟨event, rfl, done⟩

/-- What a step does to the actions: one is created, or the result of one is recorded that
Redis has. -/
theorem step_actions (stepped : s.step cfg limits e = some t) :
    t.actions = s.actions ∨
      (∃ a, e = .create a ∧ a.result = none ∧ s.actions.find a.id = none ∧
        t.actions = s.actions.insert a) ∨
      ∃ now result reply id, e = .finish now result reply ∧ reply ≠ .refused ∧
        s.answer = none ∧ finishing s.backend = some id ∧
        t.actions = s.recordResult cfg id result := by
  cases e with
  | create a =>
    right
    left
    obtain ⟨⟨waiting, fresh⟩, same⟩ := Option.ite_none_right_eq_some.mp stepped
    cases same
    exact ⟨a, rfl, waiting, fresh, rfl⟩
  | fetch waiting =>
    obtain ⟨-, same⟩ := Option.ite_none_right_eq_some.mp stepped
    cases same
    exact Or.inl rfl
  | fetchFails =>
    obtain ⟨-, same⟩ := Option.ite_none_right_eq_some.mp stepped
    cases same
    exact Or.inl rfl
  | refill =>
    simp only [step] at stepped
    split at stepped
    · contradiction
    · obtain ⟨w, -, rfl⟩ := Option.map_eq_some_iff.mp stepped
      exact Or.inl rfl
  | finish now result reply =>
    obtain ⟨unanswered, some_⟩ := Option.ite_none_right_eq_some.mp stepped
    obtain ⟨id, reads, more⟩ := Option.bind_eq_some_iff.mp some_
    obtain ⟨w, -, rfl⟩ := Option.map_eq_some_iff.mp more
    by_cases lost : reply = .refused
    · exact Or.inl (if_pos lost)
    · exact Or.inr (Or.inr ⟨now, result, reply, id, rfl, lost, unanswered, reads, if_neg lost⟩)
  | backend event =>
    obtain ⟨-, some_⟩ := Option.ite_none_right_eq_some.mp stepped
    obtain ⟨w, -, rfl⟩ := Option.map_eq_some_iff.mp some_
    exact Or.inl rfl

/-! ## What holds while the manager abandons nobody -/

/-- The action of a worker waits for its result. -/
def Waits (cfg : WorkerConfig) (s : ActionSystem) (id : String) : Prop :=
  ∃ a ∈ s.actions.rows, a.isWaiting = true ∧ a.worker cfg = id

/-- The action of a worker is in the answer that is on its way, queued, about to be started or
executed. -/
def Underway (cfg : WorkerConfig) (s : ActionSystem) (id : String) : Prop :=
  s.backend.Begun cfg id ∨ ∃ tasks, s.answer = some tasks ∧ ∃ task ∈ tasks, cfg.workerOf task = id

/-- The manager gives up no worker whose process handles its task, and no process reads its hash
after it was given up. -/
def abandonsNobody (s : ActionSystem) (e : ActionEvent) : Bool :=
  (s.backendEvent e).all s.backend.abandonsNobody

/-- What holds in every state. -/
structure Consistent (cfg : WorkerConfig) (s : ActionSystem) : Prop where
  /-- Who is in charge of a worker. -/
  orderly : s.backend.Orderly cfg
  /-- What is known of stored results. -/
  settled : s.backend.Settled cfg
  /-- The backend takes up nothing but waiting actions. -/
  waits : ∀ id, s.Underway cfg id → s.Waits cfg id

/-- The step of the backend abandons nobody. -/
theorem abandonsNobody_backend {event : Event ActionQueueTask} (spares : s.abandonsNobody e = true)
    (happens : s.backendEvent e = some event) : s.backend.abandonsNobody event = true := by
  rw [abandonsNobody, happens] at spares
  exact spares

/-- What the dispatcher hands over is the answer. -/
theorem answer_of_handsOver {event : Event ActionQueueTask} (stepped : s.step cfg limits e = some t)
    (happens : s.backendEvent e = some event) (given : World.HandsOver cfg event id) :
    ∃ tasks, s.answer = some tasks ∧ ∃ task ∈ tasks, cfg.workerOf task = id := by
  cases e with
  | create a => contradiction
  | fetch waiting => contradiction
  | fetchFails => contradiction
  | refill =>
    obtain ⟨tasks, expected, rfl⟩ := Option.map_eq_some_iff.mp happens
    rcases given with ⟨task, impossible, -⟩ | ⟨same, handed, member⟩
    · contradiction
    · cases handed
      exact ⟨_, expected, member⟩
  | finish now result reply =>
    cases happens
    rcases given with ⟨task, impossible, -⟩ | ⟨tasks, impossible, -⟩ <;> contradiction
  | backend event =>
    cases happens
    obtain ⟨permitted, -⟩ := Option.ite_none_right_eq_some.mp stepped
    rcases given with ⟨task, rfl, -⟩ | ⟨tasks, rfl, -⟩ <;> contradiction

/-- The answer on its way after a step was on its way before, or it has just been fetched. -/
theorem answer_of_step {tasks : List ActionQueueTask} (stepped : s.step cfg limits e = some t)
    (expected : t.answer = some tasks) : s.answer = some tasks ∨ tasks = [] ∨
      ∃ waiting, e = .fetch waiting ∧ IsWaitingList s.actions.rows waiting ∧
        tasks = (pendingActions waiting).map ActionQueueTask.mk := by
  cases e with
  | create a =>
    obtain ⟨-, same⟩ := Option.ite_none_right_eq_some.mp stepped
    cases same
    exact Or.inl expected
  | fetch waiting =>
    obtain ⟨⟨-, -, valid⟩, same⟩ := Option.ite_none_right_eq_some.mp stepped
    cases same
    exact Or.inr (Or.inr ⟨waiting, rfl, valid, (Option.some.inj expected).symm⟩)
  | fetchFails =>
    obtain ⟨-, same⟩ := Option.ite_none_right_eq_some.mp stepped
    cases same
    exact Or.inr (Or.inl (Option.some.inj expected).symm)
  | refill =>
    simp only [step] at stepped
    split at stepped
    · contradiction
    · obtain ⟨w, -, rfl⟩ := Option.map_eq_some_iff.mp stepped
      contradiction
  | finish now result reply =>
    obtain ⟨-, some_⟩ := Option.ite_none_right_eq_some.mp stepped
    obtain ⟨id, -, more⟩ := Option.bind_eq_some_iff.mp some_
    obtain ⟨w, -, rfl⟩ := Option.map_eq_some_iff.mp more
    exact Or.inl expected
  | backend event =>
    obtain ⟨-, some_⟩ := Option.ite_none_right_eq_some.mp stepped
    obtain ⟨w, -, rfl⟩ := Option.map_eq_some_iff.mp some_
    left
    cases event with
    | restart => contradiction
    | _ => exact expected

/-- An action gets underway only by fetching a list that it is in. -/
theorem underway_of_step (consistent : s.Consistent cfg) (spares : s.abandonsNobody e = true)
    (stepped : s.step cfg limits e = some t) (underway : t.Underway cfg id) :
    s.Underway cfg id ∨ ∃ waiting, e = .fetch waiting ∧ IsWaitingList s.actions.rows waiting ∧
      ∃ a ∈ listPending [] waiting, a.worker cfg = id := by
  rcases underway with begun | ⟨tasks, expected, task, listed, rfl⟩
  · left
    rcases step_backend stepped with ⟨-, same⟩ | ⟨event, happens, advanced⟩
    · exact Or.inl (same ▸ begun)
    · have spared := abandonsNobody_backend spares happens
      rcases World.begun_of_step consistent.orderly spared advanced begun with before | ⟨given, -⟩
      · exact Or.inl before
      · exact Or.inr (answer_of_handsOver stepped happens given)
  · rcases answer_of_step stepped expected with before | rfl | ⟨waiting, rfl, valid, rfl⟩
    · exact Or.inl (Or.inr ⟨tasks, before, task, listed, rfl⟩)
    · contradiction
    · right
      obtain ⟨entry, inside, rfl⟩ := List.mem_map.mp listed
      obtain ⟨a, pending, rfl⟩ := List.mem_map.mp inside
      exact ⟨waiting, rfl, valid, a, pending, rfl⟩

/-- An action that is in the table after a step was there before, and it does not wait again, or
the step has created it. -/
theorem action_of_step {b : Action} (stepped : s.step cfg limits e = some t)
    (listed : b ∈ t.actions.rows) :
    (∃ a ∈ s.actions.rows, a.id = b.id ∧ a.fullName = b.fullName ∧
      a.isDeleteCopr = b.isDeleteCopr ∧ a.createdOn = b.createdOn ∧
        (b.isWaiting = true → a.isWaiting = true)) ∨
      e = .create b ∧ s.actions.find b.id = none := by
  rcases step_actions stepped with same | ⟨a, rfl, -, fresh, same⟩ |
    ⟨now, result, reply, worker, rfl, -, -, -, same⟩
  · rw [same] at listed
    exact Or.inl ⟨b, listed, rfl, rfl, rfl, rfl, id⟩
  · rw [same] at listed
    rcases Table.mem_insert.mp listed with before | ⟨rfl, -⟩
    · exact Or.inl ⟨b, before, rfl, rfl, rfl, rfl, id⟩
    · exact Or.inr ⟨rfl, fresh⟩
  · left
    rw [same] at listed
    obtain ⟨a, before, rfl⟩ := List.mem_map.mp listed
    refine ⟨a, before, ?_⟩
    split
    · refine ⟨rfl, rfl, rfl, rfl, fun waits => ?_⟩
      simp [Action.isWaiting] at waits
    · exact ⟨rfl, rfl, rfl, rfl, id⟩

/-- No action is deleted. -/
theorem row_of_step {a : Action} (stepped : s.step cfg limits e = some t)
    (listed : a ∈ s.actions.rows) : ∃ b ∈ t.actions.rows, b.worker cfg = a.worker cfg := by
  rcases step_actions stepped with same | ⟨b, -, -, -, same⟩ |
    ⟨now, result, reply, worker, -, -, -, -, same⟩
  · exact ⟨a, same ▸ listed, rfl⟩
  · exact ⟨a, same ▸ Table.mem_insert.mpr (Or.inl listed), rfl⟩
  · rw [same]
    refine ⟨_, List.mem_map_of_mem listed, ?_⟩
    split <;> rfl

/-- A known action does not begin to wait. -/
theorem waits_before_step {a : Action} (stepped : s.step cfg limits e = some t)
    (listed : a ∈ s.actions.rows) (waits : t.Waits cfg (a.worker cfg)) :
    s.Waits cfg (a.worker cfg) := by
  obtain ⟨b, after, waiting, own⟩ := waits
  rcases action_of_step stepped after with ⟨x, before, ids, -, -, -, old⟩ | ⟨-, fresh⟩
  · refine ⟨x, before, old waiting, ?_⟩
    rw [← own, Action.worker, Action.worker, ids]
  · exact absurd (worker_inj own).symm (Table.find_eq_none.mp fresh a listed)

/-- A waiting action waits on, unless Redis has its result and it is recorded. -/
theorem waits_of_step (stepped : s.step cfg limits e = some t) (waits : s.Waits cfg id) :
    t.Waits cfg id ∨ s.answer = none ∧ finishing s.backend = some id := by
  obtain ⟨a, listed, waiting, own⟩ := waits
  rcases step_actions stepped with same | ⟨b, -, -, -, same⟩ |
    ⟨now, result, reply, worker, -, -, unanswered, reads, same⟩
  · exact Or.inl ⟨a, same ▸ listed, waiting, own⟩
  · exact Or.inl ⟨a, same ▸ Table.mem_insert.mpr (Or.inl listed), waiting, own⟩
  · by_cases recorded : a.worker cfg = worker
    · rw [own] at recorded
      exact Or.inr ⟨unanswered, recorded ▸ reads⟩
    · left
      refine ⟨a, ?_, waiting, own⟩
      rw [same]
      refine List.mem_map.mpr ⟨a, listed, if_neg ?_⟩
      simpa using recorded

/-- Redis has the result that is read next. -/
theorem hasResult_of_finishing {w : World ActionQueueTask} (reads : finishing w = some id) :
    w.HasResult id ∧ ∃ ids, w.pc = .sweeping (id :: ids) := by
  unfold finishing at reads
  split at reads
  · rename_i worker ids stood
    obtain ⟨both, same⟩ := Option.ite_none_right_eq_some.mp reads
    cases same
    rw [Bool.and_eq_true, decide_eq_true_eq] at both
    exact ⟨both.2, ids, stood⟩
  · contradiction

/-- A step that abandons nobody keeps what holds. -/
theorem step_consistent (consistent : s.Consistent cfg) (spares : s.abandonsNobody e = true)
    (stepped : s.step cfg limits e = some t) : t.Consistent cfg := by
  have waits : ∀ id, t.Underway cfg id → t.Waits cfg id := by
    intro id underway
    rcases underway_of_step consistent spares stepped underway with before |
      ⟨waiting, rfl, valid, a, pending, own⟩
    · rcases waits_of_step stepped (consistent.waits id before) with still | ⟨unanswered, reads⟩
      · exact still
      · have result := (hasResult_of_finishing reads).1
        rcases before with begun | ⟨tasks, expected, -⟩
        · exact absurd begun (consistent.settled.not_begun consistent.orderly result)
        · rw [unanswered] at expected
          contradiction
    · obtain ⟨-, same⟩ := Option.ite_none_right_eq_some.mp stepped
      cases same
      have member := valid.1.mem_iff.mp (mem_listPending pending)
      obtain ⟨listed, waiting⟩ := List.mem_filter.mp member
      exact ⟨a, listed, waiting, own⟩
  rcases step_backend stepped with ⟨-, same⟩ | ⟨event, happens, advanced⟩
  · exact ⟨same ▸ consistent.orderly, same ▸ consistent.settled, waits⟩
  · have spared := abandonsNobody_backend spares happens
    exact ⟨World.step_orderly consistent.orderly spared advanced,
      World.step_settled consistent.orderly consistent.settled spared advanced, waits⟩

/-- At the start the backend has taken up nothing, so the system is consistent. -/
theorem initial_consistent : (initial cfg limits).Consistent cfg where
  orderly := World.initial_orderly
  settled := World.initial_settled
  waits id underway := by
    rcases underway with (⟨task, queued, -⟩ | spawning | ⟨p, member, -⟩) | ⟨tasks, expected, -⟩
    · simp [initial, World.initial, WorkerManager.construct, JobQueue.live,
        JobQueue.empty] at queued
    · simp [initial, World.initial] at spawning
    · simp [initial, World.initial] at member
    · simp [initial] at expected

end ActionSystem

end Copr
