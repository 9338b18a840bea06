import Copr.Common.JobQueue
import Copr.Common.WorkerLimit

/-!
# The worker manager

`WorkerManager` of `copr_common/worker_manager.py` and the part of `Dispatcher.run` that
refills its queue, as functions of the manager's own data and of the Redis store. A worker
is a Redis hash under `<worker_prefix>:<task_id>`; the structure below has the fields of
that hash that the manager or a background worker writes. Times are numbers of which only
differences are compared. Log messages are left out.
-/

namespace Copr

/-- A reading of `time.time()`. -/
abbrev Time := Int

/-- The Redis hash of one worker. -/
structure WorkerInfo where
  /-- When the manager allocated the worker. -/
  allocated : Option Time := none
  /-- The background process has identified itself. -/
  started : Bool := false
  /-- `PID` of the background process. -/
  pid : Option Nat := none
  /-- Result of the task. -/
  status : Option String := none
  /-- The manager found the process dead. -/
  delete : Bool := false
  /-- When the manager last asked whether the process is alive. -/
  checked : Option Time := none
  /-- The task shall be canceled. -/
  cancelRequest : Bool := false
  /-- The process is canceling the task. -/
  canceling : Bool := false
  deriving DecidableEq, Repr

/-- The Redis database: worker hashes by key. -/
structure Redis where
  /-- The hashes that exist. -/
  hashes : AList fun _ : String => WorkerInfo

namespace Redis

/-- The hash under a key. -/
def get? (r : Redis) (key : String) : Option WorkerInfo := r.hashes.lookup key

/-- `hgetall`: a missing key reads as the empty hash. -/
def hgetall (r : Redis) (key : String) : WorkerInfo := (r.get? key).getD {}

/-- `hset`: set fields of a hash, which comes to exist. -/
def hset (r : Redis) (key : String) (set : WorkerInfo → WorkerInfo) : Redis :=
  ⟨r.hashes.insert key (set (r.hgetall key))⟩

/-- `delete`. -/
def delete (r : Redis) (key : String) : Redis := ⟨r.hashes.erase key⟩

/-- All keys. -/
def keys (r : Redis) : List String := r.hashes.keys

/-- A key exists when its hash does. -/
theorem mem_keys {r : Redis} {key : String} : key ∈ r.keys ↔ (r.get? key).isSome = true := by
  rw [keys, ← AList.mem_keys, get?, AList.lookup_isSome]

/-- Setting a field is seen under its key only. -/
theorem get?_hset (r : Redis) (key other : String) (set : WorkerInfo → WorkerInfo) :
    (r.hset key set).get? other = if other = key then some (set (r.hgetall key))
      else r.get? other := by
  by_cases same : other = key
  · subst same
    simp [get?, hset]
  · simp [get?, hset, same, AList.lookup_insert_ne same]

/-- Deleting a key is seen under that key only. -/
theorem get?_delete (r : Redis) (key other : String) :
    (r.delete key).get? other = if other = key then none else r.get? other := by
  by_cases same : other = key
  · subst same
    simp [get?, delete]
  · simp [get?, delete, same, AList.lookup_erase_ne same]

/-- Setting a field keeps every key. -/
theorem keys_hset {r : Redis} {key other : String} (set : WorkerInfo → WorkerInfo)
    (exists_ : other ∈ r.keys) : other ∈ (r.hset key set).keys := by
  rw [mem_keys] at exists_ ⊢
  rw [get?_hset]
  split
  · rfl
  · exact exists_

/-- Deleting a key keeps every other key. -/
theorem keys_delete {r : Redis} {key other : String} (exists_ : other ∈ r.keys)
    (apart : other ≠ key) : other ∈ (r.delete key).keys := by
  rw [mem_keys] at exists_ ⊢
  rwa [get?_delete, if_neg apart]

end Redis

/-- The class attributes of a `WorkerManager` and its constructor's `max_workers`. -/
structure WorkerConfig where
  /-- `worker_prefix`. -/
  workerPrefix : String
  /-- `max_workers`; `none` is the infinite default. -/
  maxWorkers : Option Nat
  /-- `worker_timeout_start`. -/
  timeoutStart : Time
  /-- `worker_timeout_deadcheck`. -/
  timeoutDeadcheck : Time
  /-- `worker_cleanup_period`. -/
  cleanupPeriod : Time

namespace WorkerConfig

variable (cfg : WorkerConfig)

/-- `get_worker_id`: the Redis key of the worker of a task id. -/
def workerId (id : String) : String := cfg.workerPrefix ++ ":" ++ id

/-- The worker id of a task. -/
def workerOf {τ : Type} [QueueTask τ] (task : τ) : String := cfg.workerId (taskId task)

/-- A key matches `<worker_prefix>:*`. -/
def isWorkerKey (key : String) : Bool := (cfg.workerPrefix ++ ":").toList.isPrefixOf key.toList

/-- `worker_ids`. -/
def workerIds (r : Redis) : List String := r.keys.filter cfg.isWorkerKey

/-- The count of tracked workers has reached `max_workers`. -/
def atLimit (count : Nat) : Bool :=
  match cfg.maxWorkers with
  | none => false
  | some limit => decide (limit ≤ count)

/-- Different task ids have different workers. -/
theorem workerId_injective {a b : String} (same : cfg.workerId a = cfg.workerId b) : a = b :=
  (String.append_right_inj _).mp same

/-- A worker id is a worker key. -/
theorem isWorkerKey_workerId (id : String) : cfg.isWorkerKey (cfg.workerId id) = true := by
  simp [isWorkerKey, workerId, String.toList_append]

/-- The worker ids are the existing worker keys. -/
theorem mem_workerIds {r : Redis} {key : String} :
    key ∈ cfg.workerIds r ↔ key ∈ r.keys ∧ cfg.isWorkerKey key = true := List.mem_filter

end WorkerConfig

/-- What `_cleanup_workers` decides about a worker after reading its hash. -/
inductive Verdict
  /-- Nothing to do. -/
  | keep
  /-- `_delete_worker`: not allocated, finished, condemned or failed to start. -/
  | drop
  /-- Time to ask whether the process is alive. -/
  | check
  deriving DecidableEq, Repr

/-- The decisions of `_cleanup_workers` at time `now`. -/
def WorkerConfig.judge (cfg : WorkerConfig) (now : Time) (info : WorkerInfo) : Verdict :=
  match info.allocated with
  | none => .drop
  | some allocated =>
    if info.status.isSome then .drop
    else if info.delete then .drop
    else if !info.started then
      if cfg.timeoutStart < now - allocated then .drop else .keep
    else if cfg.timeoutDeadcheck < now - info.checked.getD allocated then .check
    else .keep

/-- The data of a `WorkerManager` object. -/
structure WorkerManager (τ : Type) where
  /-- `tasks`. -/
  tasks : JobQueue τ
  /-- `_tracked_workers`. -/
  tracked : Finset String
  /-- `_limits`. -/
  limits : List (WorkerLimit τ)
  /-- `_last_worker_cleanup`. -/
  lastCleanup : Option Time
  /-- The workers found by the constructor (history: no operation reads it). -/
  adopted : Finset String

namespace WorkerManager

variable {τ : Type} [QueueTask τ] (cfg : WorkerConfig)

/-- `__init__`: adopt the workers that exist, with fresh limit objects. -/
def construct (limits : List (WorkerLimit τ)) (r : Redis) : WorkerManager τ where
  tasks := .empty
  tracked := (cfg.workerIds r).toFinset
  limits := limits.map WorkerLimit.clear
  lastCleanup := none
  adopted := (cfg.workerIds r).toFinset

/-- `_calculate_limits_for_task`. -/
def calculateLimitsForTask (m : WorkerManager τ) (workerId : String) (task : τ) :
    WorkerManager τ :=
  { m with limits := m.limits.map (WorkerLimit.workerAdded workerId task) }

/-- `add_task`. -/
def addTask (m : WorkerManager τ) (task : τ) : WorkerManager τ :=
  if cfg.workerOf task ∈ m.tracked then m.calculateLimitsForTask (cfg.workerOf task) task
  else { m with tasks := m.tasks.addTask task (QueueTask.priority task) }

/-- `clean_tasks`. -/
def cleanTasks (m : WorkerManager τ) : WorkerManager τ :=
  { m with tasks := .empty, limits := m.limits.map WorkerLimit.clear }

/-- The refill in `Dispatcher.run`: clean only when the frontend returned some tasks. -/
def refill (m : WorkerManager τ) (tasks : List τ) : WorkerManager τ :=
  tasks.foldl (addTask cfg) (if tasks.isEmpty then m else m.cleanTasks)

/-- `_drop_task_id_safe`. -/
def dropTaskIdSafe (m : WorkerManager τ) (id : String) : WorkerManager τ :=
  { m with tasks := (m.tasks.removeTaskById id).getD m.tasks }

/-- `_start_worker` up to `start_task`, without its Redis command. -/
def startWorker (m : WorkerManager τ) (task : τ) : WorkerManager τ :=
  { m with tracked := insert (cfg.workerOf task) m.tracked }.calculateLimitsForTask
    (cfg.workerOf task) task

/-- `_delete_worker`, without its Redis command. -/
def discard (m : WorkerManager τ) (workerId : String) : WorkerManager τ :=
  { m with tracked := m.tracked.erase workerId }

/-- What `run` does when there is room for another worker. -/
inductive Allotment (τ : Type)
  /-- The queue is empty. -/
  | nothing (m : WorkerManager τ)
  /-- A limit forbids the popped task, which is dropped. -/
  | skipped (m : WorkerManager τ)
  /-- The popped task shall be started. -/
  | start (task : τ) (m : WorkerManager τ)

/-- `pop_task` and the check of all limits in `run`. -/
def allot (m : WorkerManager τ) : Allotment τ :=
  match m.tasks.popTask with
  | (none, tasks) => .nothing { m with tasks }
  | (some task, tasks) =>
    if m.limits.all (WorkerLimit.check task) then .start task { m with tasks }
    else .skipped { m with tasks }

end WorkerManager

end Copr
