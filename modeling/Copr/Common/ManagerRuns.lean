import Copr.Lib.Runs
import Copr.Common.WorkerManager

/-!
# Runs of the worker manager

The operations on the manager's own data, whatever Redis answers: the queue, the cached set
of tracked workers and the limits. Two invariants hold of every run of them. The queue and
the tracked workers stay apart, and every limit has counted the tracked workers as long as
the queue can start another one.
-/

namespace Copr.WorkerManager

open Runs

variable {τ : Type} [QueueTask τ] (cfg : WorkerConfig) (limits : List (WorkerLimit τ))

/-- One operation on the manager's data. -/
inductive Op (τ : Type)
  /-- `add_task`. -/
  | addTask (task : τ)
  /-- `clean_tasks`. -/
  | cleanTasks
  /-- A dispatcher cycle hands over the fetched list. -/
  | refill (tasks : List τ)
  /-- `_drop_task_id_safe`. -/
  | dropTaskId (id : String)
  /-- `_last_worker_cleanup` is set. -/
  | clock (time : Time)
  /-- `_delete_worker`. -/
  | discard (workerId : String)
  /-- `pop_task` finds nothing, or a limit forbids the task. -/
  | skip
  /-- `pop_task` and `_start_worker`. -/
  | start
  /-- The manager is constructed anew over this Redis database. -/
  | construct (redis : Redis)

/-- The effect of an operation; `none` where `run` does not get to it. -/
def perform (m : WorkerManager τ) : Op τ → Option (WorkerManager τ)
  | .addTask task => some (m.addTask cfg task)
  | .cleanTasks => some m.cleanTasks
  | .refill tasks => some (m.refill cfg tasks)
  | .dropTaskId id => some (m.dropTaskIdSafe id)
  | .clock time => some { m with lastCleanup := some time }
  | .discard workerId => some (m.discard workerId)
  | .skip =>
    match m.allot with
    | .nothing r => some r
    | .skipped r => some r
    | .start _ _ => none
  | .start =>
    if cfg.atLimit m.tracked.card then none
    else
      match m.allot with
      | .start task r => some (r.startWorker cfg task)
      | _ => none
  | .construct redis => some (construct cfg limits redis)

/-! ## What starting and skipping do -/

/-- `run` takes the front task and starts it exactly if every limit admits it. -/
theorem allot_cases {m : WorkerManager τ} (wf : m.tasks.WellFormed) :
    ∃ q : JobQueue τ, q.WellFormed ∧
      ((m.allot = .nothing { m with tasks := q } ∧ m.tasks.live = [] ∧ q.live = []) ∨
      ∃ task, m.tasks.live = task :: q.live ∧
        (∀ other ∈ q.live, taskId other ≠ taskId task) ∧
        ((m.allot = .start task { m with tasks := q } ∧ ∀ l ∈ m.limits, l.check task = true) ∨
          m.allot = .skipped { m with tasks := q })) := by
  cases popped : m.tasks.popTask with
  | mk front q =>
    cases front with
    | none =>
      obtain ⟨queue, empty, rest⟩ := JobQueue.popTask_none wf popped
      exact ⟨q, queue, .inl ⟨by simp [allot, popped], empty, rest⟩⟩
    | some task =>
      obtain ⟨queue, front, others⟩ := JobQueue.popTask_some wf popped
      refine ⟨q, queue, .inr ⟨task, front, others, ?_⟩⟩
      by_cases admitted : m.limits.all (WorkerLimit.check task) = true
      · exact .inl ⟨by simp only [allot, popped, if_pos admitted], List.all_eq_true.mp admitted⟩
      · exact .inr (by simp only [allot, popped, if_neg admitted])

/-- Popping a task tracks and counts nothing, whatever becomes of the task. -/
theorem allot_pops (m : WorkerManager τ) :
    ∃ q : JobQueue τ, m.allot = .nothing { m with tasks := q } ∨
      m.allot = .skipped { m with tasks := q } ∨
        ∃ task, m.allot = .start task { m with tasks := q } := by
  unfold allot
  cases m.tasks.popTask with
  | mk front q =>
    refine ⟨q, ?_⟩
    cases front with
    | none => exact .inl rfl
    | some task =>
      dsimp only
      split
      · exact .inr (.inr ⟨task, rfl⟩)
      · exact .inr (.inl rfl)

/-- Skipping only shortens the queue. -/
theorem perform_skip {m r : WorkerManager τ} (wf : m.tasks.WellFormed)
    (skipped : m.perform cfg limits .skip = some r) :
    ∃ q : JobQueue τ, r = { m with tasks := q } ∧ q.WellFormed ∧
      ∀ task ∈ q.live, task ∈ m.tasks.live := by
  obtain ⟨q, queue, ⟨allotted, -, empty⟩ | ⟨task, front, -, ⟨allotted, -⟩ | allotted⟩⟩ :=
    allot_cases wf
  · simp only [perform, allotted] at skipped
    exact ⟨q, (Option.some.inj skipped).symm, queue, by simp [empty]⟩
  · simp [perform, allotted] at skipped
  · simp only [perform, allotted] at skipped
    exact ⟨q, (Option.some.inj skipped).symm, queue,
      fun other member => front ▸ List.mem_cons_of_mem _ member⟩

/-- Starting tracks the worker of the task that leaves the queue, below `max_workers`. -/
theorem perform_start {m r : WorkerManager τ} (wf : m.tasks.WellFormed)
    (started : m.perform cfg limits .start = some r) :
    ∃ (task : τ) (q : JobQueue τ), r = { m with tasks := q }.startWorker cfg task ∧
      q.WellFormed ∧ m.tasks.live = task :: q.live ∧
      (∀ other ∈ q.live, taskId other ≠ taskId task) ∧ (∀ l ∈ m.limits, l.check task = true) ∧
      cfg.atLimit m.tracked.card = false := by
  simp only [perform] at started
  split at started
  · contradiction
  · rename_i room
    obtain ⟨q, queue, ⟨allotted, -⟩ | ⟨task, front, others, ⟨allotted, admitted⟩ | allotted⟩⟩ :=
      allot_cases wf
    · simp [allotted] at started
    · simp only [allotted] at started
      exact ⟨task, q, (Option.some.inj started).symm, queue, front, others, admitted,
        by simpa using room⟩
    · simp [allotted] at started

/-- Adding tasks tracks nobody. -/
theorem addTask_tracked (m : WorkerManager τ) (task : τ) :
    (m.addTask cfg task).tracked = m.tracked := by
  unfold addTask
  split <;> rfl

/-- Dropping a task id only shortens the queue. -/
theorem dropTaskIdSafe_spec {m : WorkerManager τ} (wf : m.tasks.WellFormed) (id : String) :
    ∃ q : JobQueue τ, m.dropTaskIdSafe id = { m with tasks := q } ∧ q.WellFormed ∧
      ∀ task ∈ q.live, task ∈ m.tasks.live := by
  cases removed : m.tasks.removeTaskById id with
  | none => exact ⟨m.tasks, by simp [dropTaskIdSafe, removed], wf, fun _ member => member⟩
  | some q =>
    exact ⟨q, by simp [dropTaskIdSafe, removed], JobQueue.removeTaskById_wellFormed wf removed,
      fun task member => JobQueue.mem_live_removeTaskById removed member⟩

/-! ## The queue and the tracked workers stay apart -/

/-- No queued task has a tracked worker, and there are not too many tracked workers. -/
structure QueueApart (m : WorkerManager τ) : Prop where
  /-- The queue is well formed. -/
  queue : m.tasks.WellFormed
  /-- No queued task has a tracked worker. -/
  apart : ∀ task ∈ m.tasks.live, cfg.workerOf task ∉ m.tracked
  /-- More workers than `max_workers` are tracked only if they were adopted. -/
  bounded : ∀ limit, cfg.maxWorkers = some limit → m.tracked.card ≤ max limit m.adopted.card

variable {cfg}

/-- Tasks with different ids have different workers. -/
theorem workerOf_ne {a b : τ} (differ : taskId a ≠ taskId b) : cfg.workerOf a ≠ cfg.workerOf b :=
  fun same => differ (cfg.workerId_injective same)

/-- A shorter queue and fewer tracked workers stay apart. -/
theorem QueueApart.shrink {m r : WorkerManager τ} (inv : m.QueueApart cfg)
    (queue : r.tasks.WellFormed) (fewer : ∀ task ∈ r.tasks.live, task ∈ m.tasks.live)
    (untracked : r.tracked ⊆ m.tracked) (adopted : r.adopted = m.adopted) : r.QueueApart cfg where
  queue := queue
  apart task member tracked := inv.apart task (fewer task member) (untracked tracked)
  bounded limit set := by
    have before := inv.bounded limit set
    have shrunk := Finset.card_le_card untracked
    rw [adopted]
    omega

/-- `add_task` queues only a task without a tracked worker. -/
theorem QueueApart.addTask {m : WorkerManager τ} (inv : m.QueueApart cfg) (task : τ) :
    (m.addTask cfg task).QueueApart cfg := by
  unfold WorkerManager.addTask
  split
  · exact ⟨inv.queue, inv.apart, inv.bounded⟩
  · rename_i untracked
    refine ⟨JobQueue.addTask_wellFormed inv.queue task _, ?_, inv.bounded⟩
    intro other member
    rcases JobQueue.mem_live_addTask inv.queue member with rfl | old
    · exact untracked
    · exact inv.apart other old

/-- `clean_tasks` empties the queue. -/
theorem QueueApart.cleanTasks {m : WorkerManager τ} (inv : m.QueueApart cfg) :
    m.cleanTasks.QueueApart cfg :=
  inv.shrink JobQueue.empty_wellFormed (by simp [WorkerManager.cleanTasks, JobQueue.live,
    JobQueue.empty]) (Finset.Subset.refl _) rfl

/-- The refill of a dispatcher cycle. -/
theorem QueueApart.refill {m : WorkerManager τ} (inv : m.QueueApart cfg) (tasks : List τ) :
    (m.refill cfg tasks).QueueApart cfg := by
  have fold : ∀ (tasks : List τ) (m : WorkerManager τ), m.QueueApart cfg →
      (tasks.foldl (WorkerManager.addTask cfg) m).QueueApart cfg := by
    intro tasks
    induction tasks with
    | nil => exact fun _ inv => inv
    | cons task tasks ih => exact fun m inv => ih _ (inv.addTask task)
  unfold WorkerManager.refill
  split
  · exact fold tasks m inv
  · exact fold tasks _ inv.cleanTasks

/-- `_start_worker` tracks the worker of a task that has just left the queue. -/
theorem QueueApart.start {m : WorkerManager τ} {task : τ} {q : JobQueue τ}
    (inv : m.QueueApart cfg) (queue : q.WellFormed) (front : m.tasks.live = task :: q.live)
    (others : ∀ other ∈ q.live, taskId other ≠ taskId task)
    (room : cfg.atLimit m.tracked.card = false) :
    ({ m with tasks := q }.startWorker cfg task).QueueApart cfg := by
  refine ⟨queue, ?_, ?_⟩
  · intro other member
    have untracked := inv.apart other (front ▸ List.mem_cons_of_mem _ member)
    have differ : cfg.workerOf other ≠ cfg.workerOf task := workerOf_ne (others other member)
    show cfg.workerOf other ∉ insert (cfg.workerOf task) m.tracked
    rw [Finset.mem_insert, not_or]
    exact ⟨differ, untracked⟩
  · intro limit set
    have below : m.tracked.card < limit := by simpa [WorkerConfig.atLimit, set] using room
    have grown := Finset.card_insert_le (cfg.workerOf task) m.tracked
    show (insert (cfg.workerOf task) m.tracked).card ≤ max limit m.adopted.card
    omega

/-- A new manager has an empty queue and tracks what it adopts. -/
theorem construct_queueApart (redis : Redis) : (construct cfg limits redis).QueueApart cfg where
  queue := JobQueue.empty_wellFormed
  apart := by simp [construct, JobQueue.live, JobQueue.empty]
  bounded _ _ := le_max_right _ _

/-- Every operation keeps the queue and the tracked workers apart. -/
theorem perform_queueApart {m r : WorkerManager τ} {op : Op τ} (inv : m.QueueApart cfg)
    (performed : m.perform cfg limits op = some r) : r.QueueApart cfg := by
  cases op with
  | addTask task => cases performed; exact inv.addTask task
  | cleanTasks => cases performed; exact inv.cleanTasks
  | refill tasks => cases performed; exact inv.refill tasks
  | dropTaskId id =>
    cases performed
    obtain ⟨q, dropped, queue, fewer⟩ := dropTaskIdSafe_spec inv.queue id
    rw [dropped]
    exact inv.shrink queue fewer (Finset.Subset.refl _) rfl
  | clock time => cases performed; exact ⟨inv.queue, inv.apart, inv.bounded⟩
  | discard workerId =>
    cases performed
    exact inv.shrink inv.queue (fun _ member => member) (Finset.erase_subset _ _) rfl
  | skip =>
    obtain ⟨q, rfl, queue, fewer⟩ := perform_skip cfg limits inv.queue performed
    exact inv.shrink queue fewer (Finset.Subset.refl _) rfl
  | start =>
    obtain ⟨task, q, rfl, queue, front, others, -, room⟩ :=
      perform_start cfg limits inv.queue performed
    exact inv.start queue front others room
  | construct redis => cases performed; exact construct_queueApart limits redis

/-! ## The limits know the tracked workers -/

/-- As long as a task can be started, every limit has counted the tracked workers; the tracked
workers respect every limit at any time. -/
structure LimitsCount (cfg : WorkerConfig) (limits : List (WorkerLimit τ)) (known : τ → Prop)
    (m : WorkerManager τ) : Prop where
  /-- Only known tasks are queued. -/
  fetched : ∀ task ∈ m.tasks.live, known task
  /-- The limits are the configured ones, apart from what they have counted. -/
  configured : m.limits.map WorkerLimit.clear = limits.map WorkerLimit.clear
  /-- The tracked workers respect the limits. -/
  respected : ∀ l ∈ m.limits, l.Respected cfg.workerOf known m.tracked m.adopted
  /-- Either the limits have counted the tracked workers or nothing can be started. -/
  counted : m.tasks.live = [] ∨ ∀ l ∈ m.limits, l.Covers cfg.workerOf known m.tracked

/-- The operations of a dispatcher whose fetched lists hold known tasks only and, unless empty,
the tasks of all tracked workers. -/
def FetchContract (cfg : WorkerConfig) (known : τ → Prop) (m : WorkerManager τ) : Op τ → Prop
  | .addTask _ => False
  | .cleanTasks => False
  | .refill tasks => (∀ task ∈ tasks, known task) ∧
      (tasks ≠ [] → ∀ w ∈ m.tracked, ∃ task ∈ tasks, cfg.workerOf task = w)
  | _ => True

variable {limits} {known : τ → Prop}

/-- Counting a worker does not change what a limit demands. -/
theorem respected_workerAdded {l : WorkerLimit τ} {tracked adopted : Finset String}
    (workerId : String) (task : τ) :
    (l.workerAdded workerId task).Respected cfg.workerOf known tracked adopted ↔
      l.Respected cfg.workerOf known tracked adopted := by
  rw [← WorkerLimit.respected_iff_clear, WorkerLimit.clear_workerAdded,
    WorkerLimit.respected_iff_clear]

omit [QueueTask τ] in
/-- Counting a worker keeps the configuration. -/
theorem configured_workerAdded (ls : List (WorkerLimit τ)) (workerId : String) (task : τ) :
    (ls.map (WorkerLimit.workerAdded workerId task)).map WorkerLimit.clear =
      ls.map WorkerLimit.clear := by
  rw [List.map_map]
  exact List.map_congr_left fun l _ => WorkerLimit.clear_workerAdded l workerId task

/-- A shorter queue and fewer tracked workers are still counted. -/
theorem LimitsCount.shrink {m r : WorkerManager τ} (inv : m.LimitsCount cfg limits known)
    (same : r.limits = m.limits) (fewer : ∀ task ∈ r.tasks.live, task ∈ m.tasks.live)
    (untracked : r.tracked ⊆ m.tracked) (adopted : r.adopted = m.adopted) :
    r.LimitsCount cfg limits known where
  fetched task member := inv.fetched task (fewer task member)
  configured := same ▸ inv.configured
  respected l member := by
    rw [adopted]
    exact (inv.respected l (same ▸ member)).mono untracked
  counted := by
    rcases inv.counted with empty | covers
    · left
      rw [List.eq_nil_iff_forall_not_mem]
      intro task member
      simpa [empty] using fewer task member
    · right
      intro l member
      exact (covers l (same ▸ member)).mono untracked

/-- Adding the tasks of a list counts those of them that have a tracked worker, and changes
neither the tracked workers nor what the limits demand. -/
theorem addTasks_spec (cfg : WorkerConfig) {tasks : List τ} (fetched : ∀ task ∈ tasks, known task)
    (m : WorkerManager τ) :
    let r := tasks.foldl (addTask cfg) m
    r.tracked = m.tracked ∧ r.adopted = m.adopted ∧
      r.limits.map WorkerLimit.clear = m.limits.map WorkerLimit.clear ∧
      ∀ seen : Finset String, (∀ l ∈ m.limits, l.Covers cfg.workerOf known seen) →
        ∀ l ∈ r.limits, l.Covers cfg.workerOf known
          (seen ∪ m.tracked.filter fun w => ∃ task ∈ tasks, cfg.workerOf task = w) := by
  induction tasks generalizing m with
  | nil => exact ⟨rfl, rfl, rfl, fun seen covers l member => by simpa using covers l member⟩
  | cons task tasks ih =>
    rw [List.forall_mem_cons] at fetched
    by_cases running : cfg.workerOf task ∈ m.tracked
    · have added : m.addTask cfg task = m.calculateLimitsForTask (cfg.workerOf task) task :=
        if_pos running
      obtain ⟨tracked, adopted, configured, covers⟩ :=
        ih fetched.2 (m.calculateLimitsForTask (cfg.workerOf task) task)
      simp only [List.foldl_cons, added]
      refine ⟨tracked, adopted, configured.trans (configured_workerAdded _ _ _), ?_⟩
      intro seen before l member
      refine (covers (insert (cfg.workerOf task) seen) ?_ l member).mono ?_
      · intro k inside
        obtain ⟨old, oldMember, rfl⟩ := List.mem_map.mp inside
        exact (before old oldMember).workerAdded fetched.1
      · intro w inside
        simp only [Finset.mem_union, Finset.mem_filter, List.mem_cons, exists_eq_or_imp,
          Finset.mem_insert] at inside ⊢
        rcases inside with old | ⟨live, rfl | later⟩
        · exact .inl (.inr old)
        · exact .inl (.inl rfl)
        · exact .inr ⟨live, later⟩
    · have added : m.addTask cfg task =
          { m with tasks := m.tasks.addTask task (QueueTask.priority task) } := if_neg running
      obtain ⟨tracked, adopted, configured, covers⟩ :=
        ih fetched.2 { m with tasks := m.tasks.addTask task (QueueTask.priority task) }
      simp only [List.foldl_cons, added]
      refine ⟨tracked, adopted, configured, ?_⟩
      intro seen before l member
      refine (covers seen before l member).mono ?_
      intro w inside
      simp only [Finset.mem_union, Finset.mem_filter, List.mem_cons, exists_eq_or_imp] at inside ⊢
      rcases inside with old | ⟨live, rfl | later⟩
      · exact .inl old
      · exact absurd live running
      · exact .inr ⟨live, later⟩

/-- A refill tracks nobody. -/
theorem refill_tracked (m : WorkerManager τ) (tasks : List τ) :
    (m.refill cfg tasks).tracked = m.tracked := by
  have any : ∀ task ∈ tasks, (fun _ => True) task := fun _ _ => trivial
  unfold WorkerManager.refill
  split
  · exact (addTasks_spec cfg any m).1
  · exact (addTasks_spec cfg any m.cleanTasks).1

/-- After the tasks of a list have been added, every queued task is one of them or was queued
before. -/
theorem mem_live_addTasks (tasks : List τ) {m : WorkerManager τ} (wf : m.tasks.WellFormed)
    {task : τ} (queued : task ∈ (tasks.foldl (addTask cfg) m).tasks.live) :
    task ∈ tasks ∨ task ∈ m.tasks.live := by
  induction tasks generalizing m with
  | nil => exact .inr queued
  | cons first tasks ih =>
    rw [List.foldl_cons] at queued
    by_cases running : cfg.workerOf first ∈ m.tracked
    · have added : m.addTask cfg first = m.calculateLimitsForTask (cfg.workerOf first) first :=
        if_pos running
      rw [added] at queued
      have earlier := ih (m := m.calculateLimitsForTask (cfg.workerOf first) first) wf queued
      exact earlier.imp_left (List.mem_cons_of_mem _)
    · have added : m.addTask cfg first =
          { m with tasks := m.tasks.addTask first (QueueTask.priority first) } := if_neg running
      rw [added] at queued
      rcases ih (JobQueue.addTask_wellFormed wf first _) queued with later | before
      · exact .inl (List.mem_cons_of_mem _ later)
      · rcases JobQueue.mem_live_addTask wf before with rfl | old
        · exact .inl List.mem_cons_self
        · exact .inr old

/-- Only fetched tasks are queued after a refill with a list that is not empty. -/
theorem mem_live_refill {m : WorkerManager τ} {first task : τ} {rest : List τ}
    (queued : task ∈ (m.refill cfg (first :: rest)).tasks.live) : task ∈ first :: rest := by
  have cleaned : m.cleanTasks.tasks.live = [] := by
    simp [WorkerManager.cleanTasks, JobQueue.live, JobQueue.empty]
  have added := mem_live_addTasks (m := m.cleanTasks) (first :: rest) JobQueue.empty_wellFormed
    queued
  simpa [cleaned] using added

/-- What a list of limits demands depends on their configuration only. -/
theorem respected_of_configured {ls ks : List (WorkerLimit τ)} {tracked adopted : Finset String}
    (same : ls.map WorkerLimit.clear = ks.map WorkerLimit.clear)
    (respected : ∀ k ∈ ks, k.Respected cfg.workerOf known tracked adopted) :
    ∀ l ∈ ls, l.Respected cfg.workerOf known tracked adopted := by
  intro l member
  have cleared : l.clear ∈ ks.map WorkerLimit.clear := same ▸ List.mem_map_of_mem member
  obtain ⟨k, inside, equal⟩ := List.mem_map.mp cleared
  rw [← WorkerLimit.respected_iff_clear, ← equal, WorkerLimit.respected_iff_clear]
  exact respected k inside

/-- A refill that meets the contract counts every tracked worker anew. -/
theorem LimitsCount.refill {m : WorkerManager τ} (inv : m.LimitsCount cfg limits known)
    {tasks : List τ} (fetched : ∀ task ∈ tasks, known task)
    (contract : tasks ≠ [] → ∀ w ∈ m.tracked, ∃ task ∈ tasks, cfg.workerOf task = w) :
    (m.refill cfg tasks).LimitsCount cfg limits known := by
  cases tasks with
  | nil => exact inv
  | cons first rest =>
    obtain ⟨tracked, adopted, configured, covers⟩ :=
      addTasks_spec cfg fetched m.cleanTasks
    have cleaned : m.cleanTasks.limits.map WorkerLimit.clear = m.limits.map WorkerLimit.clear := by
      simp [WorkerManager.cleanTasks]
    constructor
    · exact fun task queued => fetched task (mem_live_refill queued)
    · exact (configured.trans cleaned).trans inv.configured
    · intro l member
      rw [show (m.refill cfg (first :: rest)).tracked = m.tracked from tracked,
        show (m.refill cfg (first :: rest)).adopted = m.adopted from adopted]
      exact respected_of_configured (configured.trans cleaned) inv.respected l member
    · right
      intro l member
      have empty : ∀ k ∈ m.cleanTasks.limits, k.Covers cfg.workerOf known ∅ :=
        fun k _ => WorkerLimit.covers_empty k
      refine (covers ∅ empty l member).mono ?_
      intro w inside
      have live : w ∈ m.tracked := tracked ▸ inside
      rw [Finset.empty_union, Finset.mem_filter]
      exact ⟨live, contract (List.cons_ne_nil _ _) w live⟩

/-- A task that all limits admit is started within all limits, and counted. -/
theorem LimitsCount.start {m : WorkerManager τ} {task : τ} {q : JobQueue τ}
    (inv : m.LimitsCount cfg limits known) (front : m.tasks.live = task :: q.live)
    (admitted : ∀ l ∈ m.limits, l.check task = true) :
    ({ m with tasks := q }.startWorker cfg task).LimitsCount cfg limits known := by
  have covers : ∀ l ∈ m.limits, l.Covers cfg.workerOf known m.tracked :=
    inv.counted.resolve_left (by simp [front])
  have known : known task := inv.fetched task (by simp [front])
  constructor
  · exact fun other member => inv.fetched other (front ▸ List.mem_cons_of_mem _ member)
  · exact (configured_workerAdded _ _ _).trans inv.configured
  · intro l member
    obtain ⟨old, inside, rfl⟩ := List.mem_map.mp member
    rw [respected_workerAdded]
    exact (inv.respected old inside).start (covers old inside) known (admitted old inside)
  · right
    intro l member
    obtain ⟨old, inside, rfl⟩ := List.mem_map.mp member
    exact (covers old inside).workerAdded known

/-- A new manager respects its limits: it tracks what it adopts. -/
theorem construct_limitsCount (redis : Redis) :
    (construct cfg limits redis).LimitsCount cfg limits known where
  fetched := by simp [construct, JobQueue.live, JobQueue.empty]
  configured := by simp [construct]
  respected l _ := WorkerLimit.respected_adopted l _
  counted := .inl (by simp [construct, JobQueue.live, JobQueue.empty])

/-- Every operation of a dispatcher that meets the contract keeps the limits. -/
theorem perform_limitsCount {m r : WorkerManager τ} {op : Op τ} (wf : m.tasks.WellFormed)
    (inv : m.LimitsCount cfg limits known) (contract : FetchContract cfg known m op)
    (performed : m.perform cfg limits op = some r) : r.LimitsCount cfg limits known := by
  cases op with
  | addTask task => exact contract.elim
  | cleanTasks => exact contract.elim
  | refill tasks => cases performed; exact inv.refill contract.1 contract.2
  | dropTaskId id =>
    cases performed
    obtain ⟨q, dropped, -, fewer⟩ := dropTaskIdSafe_spec wf id
    rw [dropped]
    exact inv.shrink rfl fewer (Finset.Subset.refl _) rfl
  | clock time => cases performed; exact ⟨inv.fetched, inv.configured, inv.respected, inv.counted⟩
  | discard workerId =>
    cases performed
    exact inv.shrink rfl (fun _ member => member) (Finset.erase_subset _ _) rfl
  | skip =>
    obtain ⟨q, rfl, -, fewer⟩ := perform_skip cfg limits wf performed
    exact inv.shrink rfl fewer (Finset.Subset.refl _) rfl
  | start =>
    obtain ⟨task, q, rfl, -, front, -, admitted, -⟩ := perform_start cfg limits wf performed
    exact inv.start front admitted
  | construct redis => cases performed; exact construct_limitsCount redis

/-! ## Whole runs -/

/-- In every run of the manager its queue and its tracked workers stay apart. -/
theorem run_queueApart {m r : WorkerManager τ} {ok : WorkerManager τ → Op τ → Prop}
    (run : Run (perform cfg limits) ok m r) (inv : m.QueueApart cfg) : r.QueueApart cfg :=
  run_invariant (QueueApart cfg)
    (fun _ _ _ inv _ performed => perform_queueApart limits inv performed) run inv

/-- In every run under the fetch contract the limits are respected. -/
theorem run_limitsCount {m r : WorkerManager τ}
    (run : Run (perform cfg limits) (FetchContract cfg known) m r) (apart : m.QueueApart cfg)
    (inv : m.LimitsCount cfg limits known) : r.LimitsCount cfg limits known :=
  (run_invariant (fun m => m.QueueApart cfg ∧ m.LimitsCount cfg limits known)
    (fun _ _ _ both contract performed =>
      ⟨perform_queueApart limits both.1 performed,
        perform_limitsCount both.1.queue both.2 contract performed⟩) run ⟨apart, inv⟩).2

end Copr.WorkerManager
