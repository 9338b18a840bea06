import Copr.Common.WorkerSystem

/-!
# What the worker manager promises

Results about whole runs of the manager, its background processes and Redis: the queue and
the tracked workers stay apart, worker limits are respected, and, under conditions that the
source does not enforce, tracked workers exist in Redis and a task is handled by one process
at a time.
-/

namespace Copr.World

open Runs

variable {τ : Type} [QueueTask τ] {cfg : WorkerConfig} {limits : List (WorkerLimit τ)}

/-- A task that keeps the default priority of `QueueTask`. -/
structure PlainTask where
  /-- `id`. -/
  id : String

instance : QueueTask PlainTask where
  taskId := PlainTask.id
  priority _ := 0

/-! ## The queue and the workers -/

/-- The manager comes to call `start_task` only for the worker of a queued task. -/
theorem step_spawning {w t : World τ} {e : Event τ} {id : String} (wf : w.manager.tasks.WellFormed)
    (stepped : w.step cfg limits e = some t) (spawning : t.pc = .spawning id)
    (moved : w.pc ≠ t.pc) : ∃ task ∈ w.manager.tasks.live, cfg.workerOf task = id := by
  cases step_effect stepped with
  | inside _ _ _ busy => exact absurd spawning (busy id)
  | note _ _ _ _ _ _ busy => exact absurd spawning (busy id)
  | delete workerId ids now _ _ same =>
    rw [same] at spawning
    contradiction
  | allocate task now m _ allotted _ _ _ pc =>
    obtain ⟨q, -, ⟨other, -⟩ | ⟨first, front, -, ⟨other, -⟩ | other⟩⟩ :=
      WorkerManager.allot_cases wf
    · rw [allotted] at other
      contradiction
    · rw [allotted] at other
      cases other
      rw [pc] at spawning
      exact ⟨task, by simp [front], by injection spawning⟩
    · rw [allotted] at other
      contradiction
  | start _ _ _ _ _ _ pc => simp [pc] at spawning
  | adopt _ _ _ pc => simp [pc] at spawning
  | proc _ _ _ _ _ _ _ _ _ _ _ pc => exact absurd pc.symm moved

/-- In every run queued tasks have no tracked worker, a process is started only for a worker
that was not tracked, and `max_workers` is exceeded by adopted workers only. -/
theorem queue_workers_disjoint {r : Redis} {procs : List Proc} {w : World τ}
    (run : Run (step cfg limits) anyEvent (initial cfg limits r procs) w) :
    (∀ task ∈ w.manager.tasks.live, cfg.workerOf task ∉ w.manager.tracked) ∧
    (∀ e t id, w.step cfg limits e = some t → t.pc = .spawning id → w.pc ≠ t.pc →
      id ∉ w.manager.tracked) ∧
    ∀ limit, cfg.maxWorkers = some limit →
      w.manager.tracked.card ≤ max limit w.manager.adopted.card := by
  have inv := WorkerManager.run_queueApart (run_manager run)
    (WorkerManager.construct_queueApart limits r)
  refine ⟨inv.apart, ?_, inv.bounded⟩
  intro e t id stepped spawning moved
  obtain ⟨task, queued, rfl⟩ := step_spawning inv.queue stepped spawning moved
  exact inv.apart task queued

/-- The same task is fetched twice, its worker is started, and the task is fetched again. -/
theorem queue_workers_disjoint_refetch :
    ∃ w : World PlainTask, w.manager.tracked = {"worker:1"} ∧
      ∀ task ∈ w.manager.tasks.live, defaultConfig.workerOf task ∉ w.manager.tracked := by
  obtain ⟨w, run, seen⟩ := exec_observe (step defaultConfig []) (fun _ _ => true)
    (initial defaultConfig [] ⟨∅⟩ [])
    [.addTask (PlainTask.mk "1"), .addTask ⟨"1"⟩, .run, .cleanup 100 [], .manager 100, .manager 100,
      .startTask 7, .stop, .refill [⟨"1"⟩, ⟨"2"⟩]]
    (fun w => w.manager.tracked) {"worker:1"} rfl
  exact ⟨w, seen, (queue_workers_disjoint (run_weaken (fun _ _ _ => trivial) run)).1⟩

/-! ## Worker limits -/

/-- In every run in which fetched lists hold known tasks only and, unless empty, the tasks of all
tracked workers, the tracked workers respect every limit whose predicate or hash is determined
by the task id on the known tasks. -/
theorem worker_limits_respected {known : τ → Prop} {r : Redis} {procs : List Proc} {w : World τ}
    (run : Run (step cfg limits) (meetsFetchContract cfg known) (initial cfg limits r procs) w) :
    ∀ l ∈ limits, l.Respected cfg.workerOf known w.manager.tracked w.manager.adopted := by
  have inv := WorkerManager.run_limitsCount (run_manager_contract run)
    (WorkerManager.construct_queueApart limits r) (WorkerManager.construct_limitsCount r)
  exact WorkerManager.respected_of_configured inv.configured.symm inv.respected

/-- A task with an owner. -/
structure OwnedTask where
  /-- `id`. -/
  id : String
  /-- `owner`. -/
  owner : String
deriving DecidableEq

instance : QueueTask OwnedTask where
  taskId := OwnedTask.id
  priority _ := 0

/-- Two tasks of one owner and one of another. -/
def ownedTasks : List OwnedTask := [⟨"1", "ann"⟩, ⟨"2", "ann"⟩, ⟨"3", "bob"⟩]

/-- Two workers for all tasks, and one worker for each owner. -/
def ownerLimits : List (WorkerLimit OwnedTask) :=
  [.predicate (fun _ => true) 2 ∅, .hash (fun task => some task.owner) 1 .empty]

/-- The owner of the task that a worker is named after. -/
def ownerOf (workerId : String) : Option String :=
  if workerId = "worker:3" then some "bob" else some "ann"

/-- Of the two tasks of one owner the first is started and the second is skipped, and the task of
the other owner is started as well; a second cycle starts nothing else. The two workers respect
both limits, so at most one of them has a task of either owner. -/
theorem worker_limits_respected_refetch :
    ∃ w : World OwnedTask, w.manager.tracked = {"worker:3", "worker:1"} ∧
      (∀ l ∈ ownerLimits, l.Respected defaultConfig.workerOf (· ∈ ownedTasks) w.manager.tracked
        w.manager.adopted) ∧
      ∀ owner, ((w.manager.tracked.filter fun id => ownerOf id = some owner).card : Int) ≤ 1 := by
  obtain ⟨w, run, seen⟩ := exec_observe (step defaultConfig ownerLimits)
    (fun w e => decide (w.meetsFetchContract defaultConfig (· ∈ ownedTasks) e))
    (initial defaultConfig ownerLimits ⟨∅⟩ [])
    [.refill ownedTasks, .run, .cleanup 100 [], .manager 100, .manager 100, .startTask 7,
      .manager 101, .manager 101, .manager 102, .manager 102, .startTask 8, .stop,
      .refill ownedTasks, .run, .cleanup 104 ["worker:1", "worker:3"], .manager 104, .manager 104,
      .manager 104, .manager 104]
    (fun w => (w.manager.tracked, w.manager.adopted)) ({"worker:3", "worker:1"}, ∅) rfl
  obtain ⟨tracked, adopted⟩ := Prod.mk.inj seen
  have respected := worker_limits_respected (run_weaken (fun _ _ => of_decide_eq_true) run)
  refine ⟨w, tracked, respected, ?_⟩
  intro owner
  have byOwner := respected _ (List.mem_cons_of_mem _ List.mem_cons_self) ownerOf (by decide) owner
  simpa [adopted] using byOwner

/-! ## Tracked workers and Redis -/

/-- No background process deletes the hash of a worker that the manager tracks. -/
def sparesTracked (w : World τ) : Event τ → Bool
  | .proc index .next =>
    match w.procs[index]? with
    | some p => !(decide (p.pc = .refused) && decide (p.workerId ∈ w.manager.tracked))
    | none => true
  | _ => true

/-- Every tracked worker exists in Redis under the manager's prefix. -/
def TrackedExist (cfg : WorkerConfig) (w : World τ) : Prop :=
  ∀ id ∈ w.manager.tracked, id ∈ cfg.workerIds w.redis

/-- Setting a field keeps every worker. -/
theorem workerIds_hset {r : Redis} {key id : String} (set : WorkerInfo → WorkerInfo)
    (exists_ : id ∈ cfg.workerIds r) : id ∈ cfg.workerIds (r.hset key set) := by
  rw [cfg.mem_workerIds] at exists_ ⊢
  exact ⟨Redis.keys_hset set exists_.1, exists_.2⟩

/-- An allocated worker exists. -/
theorem workerIds_allocated {r : Redis} (task : τ) (now : Time) :
    cfg.workerOf task ∈ cfg.workerIds (r.hset (cfg.workerOf task) fun info =>
      { info with allocated := some now }) := by
  rw [cfg.mem_workerIds, Redis.mem_keys, Redis.get?_hset, if_pos rfl]
  exact ⟨rfl, cfg.isWorkerKey_workerId (taskId task)⟩

/-- Deleting a key keeps every other worker. -/
theorem workerIds_delete {r : Redis} {key id : String} (exists_ : id ∈ cfg.workerIds r)
    (apart : id ≠ key) : id ∈ cfg.workerIds (r.delete key) := by
  rw [cfg.mem_workerIds] at exists_ ⊢
  exact ⟨Redis.keys_delete exists_.1 apart, exists_.2⟩

/-- A background process deletes a worker at most by giving up its own one. -/
theorem proc_step_keys {p q : Proc} {r r' : Redis} {e : ProcEvent} {id : String}
    (stepped : p.step r e = some (q, r')) (exists_ : id ∈ cfg.workerIds r) :
    id ∈ cfg.workerIds r' ∨ (e = .next ∧ p.pc = .refused ∧ id = p.workerId) := by
  cases e with
  | next =>
    cases stood : p.pc with
    | refused =>
      simp only [Proc.step, stood, Option.some.injEq, Prod.mk.injEq] at stepped
      obtain ⟨-, rfl⟩ := stepped
      by_cases own : id = p.workerId
      · exact .inr ⟨rfl, rfl, own⟩
      · exact .inl (workerIds_delete exists_ own)
    | identified =>
      simp only [Proc.step, stood] at stepped
      split at stepped <;>
        (simp only [Option.some.injEq, Prod.mk.injEq] at stepped
         obtain ⟨-, rfl⟩ := stepped
         exact .inl exists_)
    | forked | started | handling =>
      simp only [Proc.step, stood, Option.some.injEq, Prod.mk.injEq] at stepped
      obtain ⟨-, rfl⟩ := stepped
      exact .inl (workerIds_hset _ exists_)
    | ended | dead => simp [Proc.step, stood] at stepped
  | cancel =>
    obtain ⟨-, same⟩ := Option.ite_none_right_eq_some.mp stepped
    cases same
    exact .inl (workerIds_hset _ exists_)
  | die =>
    obtain ⟨-, same⟩ := Option.ite_none_left_eq_some.mp stepped
    cases same
    exact .inl exists_

/-- A step that spares the tracked workers keeps all of them in Redis. -/
theorem step_trackedExist {w t : World τ} {e : Event τ} (inv : w.TrackedExist cfg)
    (spares : w.sparesTracked e = true) (stepped : w.step cfg limits e = some t) :
    t.TrackedExist cfg := by
  intro id tracked
  cases step_effect stepped with
  | inside same redis => rw [redis]; exact inv id (same ▸ tracked)
  | note key set _ same redis => rw [redis]; exact workerIds_hset set (inv id (same ▸ tracked))
  | delete workerId ids now _ _ same =>
    subst same
    obtain ⟨apart, before⟩ := Finset.mem_erase.mp tracked
    exact workerIds_delete (inv id before) apart
  | allocate task now m _ _ same redis =>
    rw [redis]
    rw [same, Finset.mem_insert] at tracked
    rcases tracked with rfl | before
    · exact workerIds_allocated task now
    · exact workerIds_hset _ (inv id before)
  | start _ _ _ same redis => rw [redis]; exact inv id (same ▸ tracked)
  | adopt same redis =>
    rw [redis]
    exact List.mem_toFinset.mp (same ▸ tracked)
  | proc index event p q r happened there advanced manager redis =>
    rw [redis]
    have before := manager ▸ tracked
    rcases proc_step_keys advanced (inv id before) with kept | ⟨rfl, refused, rfl⟩
    · exact kept
    · subst happened
      simp [sparesTracked, there, refused, before] at spares

/-- In every run in which no background process deletes the hash of a tracked worker, all
tracked workers exist in Redis under the manager's prefix. -/
theorem tracked_workers_exist {r : Redis} {procs : List Proc} {w : World τ}
    (run : Run (step cfg limits) (fun w e => w.sparesTracked e = true)
      (initial cfg limits r procs) w) : w.TrackedExist cfg :=
  run_invariant (TrackedExist cfg) (fun _ _ _ inv spares stepped =>
    step_trackedExist inv spares stepped) run fun _ member => List.mem_toFinset.mp member

/-- The events up to which a worker that starts too slowly has been given up: it finds no
`allocated` field, and its task is about to be started again. -/
def givenUpSchedule : List (Event PlainTask) :=
  [.refill [⟨"1"⟩], .run, .cleanup 100 [], .manager 100, .manager 100, .startTask 7,
    .cleanup 140 ["worker:1"], .manager 140, .manager 140, .manager 140, .manager 140,
    .proc 0 .next, .proc 0 .next, .proc 0 .next]

/-- The task is allocated and started again before the first process deletes the hash. -/
def restartSchedule : List (Event PlainTask) :=
  givenUpSchedule ++ [.refill [PlainTask.mk "1"], .run, .cleanup 141 ["worker:1"], .manager 141,
    .manager 141, .manager 141, .manager 141, .startTask 8]

/-- A process that was given up deletes the hash of its successor, and the next cleanup leaves
a tracked worker of which Redis knows nothing. -/
theorem tracked_worker_leaks : ¬ ∀ w : World PlainTask,
    Run (step defaultConfig []) anyEvent (initial defaultConfig [] ⟨∅⟩ []) w →
      w.pc = .sweeping [] → w.TrackedExist defaultConfig := by
  intro claimed
  obtain ⟨w, run, seen⟩ := exec_observe (step defaultConfig []) (fun _ _ => true)
    (initial defaultConfig [] ⟨∅⟩ []) (restartSchedule ++ [.proc 0 .next, .cleanup 145 []])
    (fun w => (w.pc, w.manager.tracked, w.redis.keys)) (.sweeping [], {"worker:1"}, []) rfl
  simp only [Prod.mk.injEq] at seen
  obtain ⟨completed, tracked, keys⟩ := seen
  have exists_ := claimed w (run_weaken (fun _ _ _ => trivial) run) completed "worker:1"
    (tracked ▸ Finset.mem_singleton_self _)
  rw [WorkerConfig.workerIds, keys] at exists_
  contradiction

/-- A worker is started, identifies itself and is found by the next cleanup. -/
theorem tracked_workers_exist_started :
    ∃ w : World PlainTask, w.manager.tracked = {"worker:1"} ∧ w.TrackedExist defaultConfig := by
  obtain ⟨w, run, seen⟩ := exec_observe (step defaultConfig []) sparesTracked
    (initial defaultConfig [] ⟨∅⟩ [])
    [.refill [PlainTask.mk "1"], .run, .cleanup 100 [], .manager 100, .manager 100, .startTask 7,
      .proc 0 .next, .proc 0 .next, .cleanup 140 ["worker:1"], .manager 140, .proc 0 .next]
    (fun w => w.manager.tracked) {"worker:1"} rfl
  exact ⟨w, seen, tracked_workers_exist run⟩

/-! ## One process for a task -/

/-- No process that found itself given up runs `handle_task`. -/
def RefusedStop (w : World τ) : Prop :=
  ∀ p ∈ w.procs, p.found = some false → p.pc ≠ .handling

/-- No two processes run `handle_task` for one worker id. -/
def HandledOnce (w : World τ) : Prop :=
  ∀ (i j : Nat) (p q : Proc), w.procs[i]? = some p → w.procs[j]? = some q →
    p.pc = .handling → q.pc = .handling → p.workerId = q.workerId → i = j

/-- The manager does not delete a worker whose process handles the task, and no process reads
its hash after the manager has deleted it. -/
def abandonsNobody (w : World τ) : Event τ → Bool
  | .manager _ =>
    match w.pc with
    | .deleting workerId _ =>
      w.procs.all fun p => !(decide (p.workerId = workerId) && decide (p.pc = .handling))
    | _ => true
  | .proc index .next =>
    match w.procs[index]? with
    | some p => !(decide (p.pc = .identified) && p.abandoned)
    | none => true
  | _ => true

/-- The process is alive, has not finished its task and was not given up. -/
def InCharge (p : Proc) : Prop := p.pc ≠ .ended ∧ p.pc ≠ .dead ∧ p.abandoned = false

/-- The manager tracks the worker and Redis has it as allocated. -/
def Holds (w : World τ) (id : String) : Prop :=
  id ∈ w.manager.tracked ∧ (w.redis.hgetall id).allocated.isSome = true

/-- The worker is allocated and no process is in charge of it. -/
def Reserved (cfg : WorkerConfig) (w : World τ) (id : String) : Prop :=
  cfg.isWorkerKey id = true ∧ w.Holds id ∧ ∀ p ∈ w.procs, InCharge p → p.workerId ≠ id

/-- Who is in charge of a worker. -/
structure Orderly (cfg : WorkerConfig) (w : World τ) : Prop where
  /-- The queue and the tracked workers are apart. -/
  queue : w.manager.QueueApart cfg
  /-- Processes have worker ids of this manager. -/
  keys : ∀ p ∈ w.procs, cfg.isWorkerKey p.workerId = true
  /-- A worker with a process in charge is allocated. -/
  held : ∀ p ∈ w.procs, InCharge p → w.Holds p.workerId
  /-- Only one process is in charge of a worker. -/
  alone : ∀ (i j : Nat) (p q : Proc), w.procs[i]? = some p → w.procs[j]? = some q →
    InCharge p → InCharge q → p.workerId = q.workerId → i = j
  /-- A worker about to be started is waiting for its process. -/
  reserved : ∀ id, w.pc = .spawning id → w.Reserved cfg id
  /-- No process found itself given up. -/
  accepted : ∀ p ∈ w.procs, p.found ≠ some false ∧ p.pc ≠ .refused
  /-- A process that handles a task is in charge. -/
  handling : ∀ p ∈ w.procs, p.pc = .handling → p.abandoned = false

/-- What `hgetall` reads after `hset`. -/
theorem hgetall_hset (r : Redis) (key other : String) (set : WorkerInfo → WorkerInfo) :
    (r.hset key set).hgetall other = if other = key then set (r.hgetall key)
      else r.hgetall other := by
  unfold Redis.hgetall
  rw [Redis.get?_hset]
  split <;> rfl

/-- What `hgetall` reads after `delete`. -/
theorem hgetall_delete (r : Redis) (key other : String) :
    (r.delete key).hgetall other = if other = key then {} else r.hgetall other := by
  unfold Redis.hgetall
  rw [Redis.get?_delete]
  split <;> rfl

/-- Setting another field keeps every allocation. -/
theorem allocated_hset {set : WorkerInfo → WorkerInfo}
    (keeps : ∀ info, (set info).allocated = info.allocated) (r : Redis) (key id : String) :
    ((r.hset key set).hgetall id).allocated = (r.hgetall id).allocated := by
  rw [hgetall_hset]
  split
  · rename_i same
    rw [keeps, same]
  · rfl

/-- An allocated worker of this manager is among the workers that exist. -/
theorem mem_workerIds_of_allocated {r : Redis} {id : String} (key : cfg.isWorkerKey id = true)
    (allocated : (r.hgetall id).allocated.isSome = true) : id ∈ cfg.workerIds r := by
  rw [cfg.mem_workerIds, Redis.mem_keys]
  refine ⟨?_, key⟩
  cases found : r.get? id with
  | none => simp [Redis.hgetall, found] at allocated
  | some info => rfl

/-- What a step of a process keeps, unless it found itself given up. -/
theorem proc_step_keeps {p q : Proc} {r r' : Redis} {e : ProcEvent}
    (stepped : p.step r e = some (q, r')) (accepted : p.pc ≠ .refused) :
    q.workerId = p.workerId ∧ q.abandoned = p.abandoned ∧ (InCharge q → InCharge p) ∧
      ∀ id, (r'.hgetall id).allocated = (r.hgetall id).allocated := by
  cases e with
  | next =>
    cases stood : p.pc with
    | refused => exact absurd stood accepted
    | identified =>
      simp only [Proc.step, stood] at stepped
      split at stepped <;>
        (simp only [Option.some.injEq, Prod.mk.injEq] at stepped
         obtain ⟨rfl, rfl⟩ := stepped
         simp [InCharge, stood])
    | forked | started | handling =>
      simp only [Proc.step, stood, Option.some.injEq, Prod.mk.injEq] at stepped
      obtain ⟨rfl, rfl⟩ := stepped
      refine ⟨rfl, rfl, by simp [InCharge, stood], fun id => allocated_hset ?_ _ _ _⟩
      exact fun _ => rfl
    | ended | dead => simp [Proc.step, stood] at stepped
  | cancel =>
    obtain ⟨-, same⟩ := Option.ite_none_right_eq_some.mp stepped
    cases same
    refine ⟨rfl, rfl, id, fun id => allocated_hset ?_ _ _ _⟩
    exact fun _ => rfl
  | die =>
    obtain ⟨-, same⟩ := Option.ite_none_left_eq_some.mp stepped
    cases same
    simp [InCharge]

/-- A process whose worker is allocated passes the handshake, and only then it handles the
task. -/
theorem proc_step_accepted {p q : Proc} {r r' : Redis} {e : ProcEvent}
    (stepped : p.step r e = some (q, r')) (accepted : p.found ≠ some false ∧ p.pc ≠ .refused)
    (allocated : e = .next → p.pc = .identified → (r.hgetall p.workerId).allocated.isSome = true) :
    (q.found ≠ some false ∧ q.pc ≠ .refused) ∧
      (q.pc = .handling → p.pc = .handling ∨ (e = .next ∧ p.pc = .identified)) := by
  cases e with
  | next =>
    cases stood : p.pc with
    | refused => exact absurd stood accepted.2
    | identified =>
      simp only [Proc.step, stood, allocated rfl stood, if_true, Option.some.injEq,
        Prod.mk.injEq] at stepped
      obtain ⟨rfl, rfl⟩ := stepped
      simp
    | forked | started | handling =>
      simp only [Proc.step, stood, Option.some.injEq, Prod.mk.injEq] at stepped
      obtain ⟨rfl, rfl⟩ := stepped
      simp [accepted.1]
    | ended | dead => simp [Proc.step, stood] at stepped
  | cancel =>
    obtain ⟨stood, same⟩ := Option.ite_none_right_eq_some.mp stepped
    cases same
    exact ⟨accepted, .inl⟩
  | die =>
    obtain ⟨-, same⟩ := Option.ite_none_left_eq_some.mp stepped
    cases same
    simp [accepted.1]

/-- While the processes stay as they are, only the workers have to be looked at. -/
theorem Orderly.sameProcs {w t : World τ} (inv : w.Orderly cfg) (queue : t.manager.QueueApart cfg)
    (procs : t.procs = w.procs)
    (holds : ∀ id, cfg.isWorkerKey id = true → w.Holds id → t.Holds id)
    (reserved : ∀ id, t.pc = .spawning id → t.Reserved cfg id) : t.Orderly cfg where
  queue := queue
  keys := procs ▸ inv.keys
  held := procs ▸ fun p member charge => holds _ (inv.keys p member) (inv.held p member charge)
  alone := procs ▸ inv.alone
  reserved := reserved
  accepted := procs ▸ inv.accepted
  handling := procs ▸ inv.handling

/-- Deleting a worker leaves nobody in charge of it. -/
theorem Orderly.deleteWorker {w : World τ} {id : String} {ids : List String}
    (inv : w.Orderly cfg) (queue : (w.deleteWorker id ids).manager.QueueApart cfg)
    (holds : ∀ other, cfg.isWorkerKey other = true → w.Holds other → other ≠ id →
      (w.deleteWorker id ids).Holds other)
    (spared : ∀ p ∈ w.procs, p.workerId = id → p.pc ≠ .handling) :
    (w.deleteWorker id ids).Orderly cfg := by
  -- A process of the new state is one of the old state, in charge only if it was and was spared.
  have origin : ∀ (i : Nat) (q : Proc), (w.deleteWorker id ids).procs[i]? = some q →
      ∃ p, w.procs[i]? = some p ∧ q.workerId = p.workerId ∧ q.pc = p.pc ∧ q.found = p.found ∧
        (q.abandoned = p.abandoned ∨ p.workerId = id) ∧
        (InCharge q → InCharge p ∧ p.workerId ≠ id) := by
    intro i q found
    rw [World.deleteWorker, List.getElem?_map, Option.map_eq_some_iff] at found
    obtain ⟨p, old, rfl⟩ := found
    refine ⟨p, old, ?_⟩
    split
    · rename_i own
      exact ⟨rfl, rfl, rfl, .inr own, fun charge => by simp [InCharge] at charge⟩
    · rename_i other
      exact ⟨rfl, rfl, rfl, .inl rfl, fun charge => ⟨charge, other⟩⟩
  have member : ∀ q ∈ (w.deleteWorker id ids).procs, ∃ p ∈ w.procs, q.workerId = p.workerId ∧
      q.pc = p.pc ∧ q.found = p.found ∧ (q.abandoned = p.abandoned ∨ p.workerId = id) ∧
      (InCharge q → InCharge p ∧ p.workerId ≠ id) := by
    intro q inside
    obtain ⟨i, found⟩ := List.mem_iff_getElem?.mp inside
    obtain ⟨p, old, facts⟩ := origin i q found
    exact ⟨p, List.mem_of_getElem? old, facts⟩
  constructor
  · exact queue
  · intro q inside
    obtain ⟨p, old, same, -⟩ := member q inside
    exact same ▸ inv.keys p old
  · intro q inside charge
    obtain ⟨p, old, same, -, -, -, charged⟩ := member q inside
    obtain ⟨before, other⟩ := charged charge
    rw [same]
    exact holds _ (inv.keys p old) (inv.held p old before) other
  · intro i j q q' atI atJ charge charge' same
    obtain ⟨p, oldI, sameI, -, -, -, charged⟩ := origin i q atI
    obtain ⟨p', oldJ, sameJ, -, -, -, charged'⟩ := origin j q' atJ
    exact inv.alone i j p p' oldI oldJ (charged charge).1 (charged' charge').1
      (sameI ▸ sameJ ▸ same)
  · intro other spawning
    contradiction
  · intro q inside
    obtain ⟨p, old, -, pc, found, -⟩ := member q inside
    rw [pc, found]
    exact inv.accepted p old
  · intro q inside handling
    obtain ⟨p, old, -, pc, -, kept | own, -⟩ := member q inside
    · rw [kept]
      exact inv.handling p old (pc ▸ handling)
    · exact absurd (pc ▸ handling) (spared p old own)

/-- The process of a reserved worker takes charge of it. -/
theorem Orderly.startTask {w t : World τ} {id : String} {pid : Nat} (inv : w.Orderly cfg)
    (reserved : w.Reserved cfg id) (tracked : t.manager.tracked = w.manager.tracked)
    (queue : t.manager.QueueApart cfg) (redis : t.redis = w.redis) (pc : t.pc = .turn)
    (procs : t.procs = w.procs ++ [⟨id, pid, .forked, none, false⟩]) : t.Orderly cfg := by
  obtain ⟨key, holds, free⟩ := reserved
  have kept : ∀ other, w.Holds other → t.Holds other := fun other ⟨live, allocated⟩ =>
    ⟨tracked ▸ live, redis ▸ allocated⟩
  have split : ∀ (i : Nat) (p : Proc), t.procs[i]? = some p →
      w.procs[i]? = some p ∨ (i = w.procs.length ∧ p = ⟨id, pid, .forked, none, false⟩) := by
    intro i p found
    rw [procs, List.getElem?_append] at found
    split at found
    · exact .inl found
    · rename_i late
      cases gap : i - w.procs.length with
      | zero =>
        rw [gap] at found
        exact .inr ⟨by omega, (Option.some.inj found).symm⟩
      | succ n => simp [gap] at found
  constructor
  · exact queue
  · intro p member
    rw [procs, List.mem_append, List.mem_singleton] at member
    rcases member with old | rfl
    · exact inv.keys p old
    · exact key
  · intro p member charge
    rw [procs, List.mem_append, List.mem_singleton] at member
    rcases member with old | rfl
    · exact kept _ (inv.held p old charge)
    · exact kept _ holds
  · intro i j p q atI atJ charge charge' same
    rcases split i p atI with oldI | ⟨lastI, rfl⟩
    · rcases split j q atJ with oldJ | ⟨lastJ, rfl⟩
      · exact inv.alone i j p q oldI oldJ charge charge' same
      · exact absurd same (free p (List.mem_of_getElem? oldI) charge)
    · rcases split j q atJ with oldJ | ⟨lastJ, rfl⟩
      · exact absurd same.symm (free q (List.mem_of_getElem? oldJ) charge')
      · rw [lastI, lastJ]
  · intro other spawning
    rw [pc] at spawning
    contradiction
  · intro p member
    rw [procs, List.mem_append, List.mem_singleton] at member
    rcases member with old | rfl
    · exact inv.accepted p old
    · simp
  · intro p member handling
    rw [procs, List.mem_append, List.mem_singleton] at member
    rcases member with old | rfl
    · exact inv.handling p old handling
    · contradiction

/-- A process steps without reading the hash of a worker that was given up. -/
theorem Orderly.procStep {w t : World τ} {index : Nat} {event : ProcEvent} {p q : Proc} {r : Redis}
    (inv : w.Orderly cfg) (there : w.procs[index]? = some p)
    (stepped : p.step w.redis event = some (q, r)) (manager : t.manager = w.manager)
    (redis : t.redis = r) (procs : t.procs = w.procs.set index q) (pc : t.pc = w.pc)
    (reads : event = .next → p.pc = .identified → p.abandoned = false) : t.Orderly cfg := by
  have member := List.mem_of_getElem? there
  have accepted := inv.accepted p member
  obtain ⟨sameId, sameAbandoned, charged, keeps⟩ := proc_step_keeps stepped accepted.2
  have allocated : event = .next → p.pc = .identified →
      (w.redis.hgetall p.workerId).allocated.isSome = true := by
    intro next stood
    exact (inv.held p member ⟨by simp [stood], by simp [stood], reads next stood⟩).2
  obtain ⟨acceptedAfter, handles⟩ := proc_step_accepted stepped accepted allocated
  have kept : ∀ other, w.Holds other → t.Holds other := fun other ⟨live, held⟩ =>
    ⟨manager ▸ live, by rw [redis, keeps]; exact held⟩
  have inside : ∀ x ∈ t.procs, x = q ∨ x ∈ w.procs := by
    intro x found
    rw [procs] at found
    exact (List.mem_or_eq_of_mem_set found).symm
  -- In place of every process stood one with the same worker, in charge if this one is.
  have origin : ∀ (i : Nat) (x : Proc), t.procs[i]? = some x → ∃ y, w.procs[i]? = some y ∧
      x.workerId = y.workerId ∧ (InCharge x → InCharge y) := by
    intro i x found
    rw [procs, List.getElem?_set] at found
    split at found
    · rename_i same
      split at found
      · obtain rfl := Option.some.inj found
        exact ⟨p, same ▸ there, sameId, charged⟩
      · contradiction
    · exact ⟨x, found, rfl, id⟩
  constructor
  · exact manager ▸ inv.queue
  · intro x found
    rcases inside x found with rfl | old
    · exact sameId ▸ inv.keys p member
    · exact inv.keys x old
  · intro x found charge
    rcases inside x found with rfl | old
    · exact kept _ (sameId ▸ inv.held p member (charged charge))
    · exact kept _ (inv.held x old charge)
  · intro i j x x' atI atJ charge charge' same
    obtain ⟨y, oldI, sameI, chargedI⟩ := origin i x atI
    obtain ⟨y', oldJ, sameJ, chargedJ⟩ := origin j x' atJ
    exact inv.alone i j y y' oldI oldJ (chargedI charge) (chargedJ charge') (sameI ▸ sameJ ▸ same)
  · intro other spawning
    obtain ⟨key, holds, free⟩ := inv.reserved other (pc ▸ spawning)
    refine ⟨key, kept _ holds, ?_⟩
    intro x found charge
    rcases inside x found with rfl | old
    · exact sameId ▸ free p member (charged charge)
    · exact free x old charge
  · intro x found
    rcases inside x found with rfl | old
    · exact acceptedAfter
    · exact inv.accepted x old
  · intro x found handling
    rcases inside x found with rfl | old
    · rw [sameAbandoned]
      rcases handles handling with before | ⟨next, stood⟩
      · exact inv.handling p member before
      · exact reads next stood
    · exact inv.handling x old handling

/-- A step that abandons nobody keeps the order. -/
theorem step_orderly {w t : World τ} {e : Event τ} (inv : w.Orderly cfg)
    (spares : w.abandonsNobody e = true) (stepped : w.step cfg limits e = some t) :
    t.Orderly cfg := by
  have queue : t.manager.QueueApart cfg := by
    rcases step_perform (fun _ => True) stepped with same | ⟨op, -, performed⟩
    · exact same ▸ inv.queue
    · exact WorkerManager.perform_queueApart limits inv.queue performed
  cases step_effect stepped with
  | inside same redis procs busy =>
    exact inv.sameProcs queue procs (fun id _ held => ⟨same ▸ held.1, redis ▸ held.2⟩)
      fun id spawning => absurd spawning (busy id)
  | note other set keeps same redis procs busy =>
    refine inv.sameProcs queue procs (fun id _ held => ⟨same ▸ held.1, ?_⟩)
      fun id spawning => absurd spawning (busy id)
    rw [redis, allocated_hset keeps]
    exact held.2
  | delete workerId ids now happened stood same =>
    subst same happened
    refine inv.deleteWorker queue ?_ ?_
    · intro other key held apart
      refine ⟨Finset.mem_erase.mpr ⟨apart, held.1⟩, ?_⟩
      show ((w.redis.delete workerId).hgetall other).allocated.isSome = true
      rw [hgetall_delete, if_neg apart]
      exact held.2
    · intro p member own handling
      simp only [abandonsNobody, stood, List.all_eq_true] at spares
      have spared := spares p member
      simp [own, handling] at spared
  | allocate task now m stood allotted same redis procs pc =>
    have held : ∀ id, w.Holds id → t.Holds id := by
      intro id ⟨tracked, allocated⟩
      refine ⟨same ▸ Finset.mem_insert_of_mem tracked, ?_⟩
      rw [redis, hgetall_hset]
      split
      · rfl
      · exact allocated
    refine inv.sameProcs queue procs (fun id _ => held id) ?_
    intro id spawning
    have own : cfg.workerOf task = id := by
      rw [pc] at spawning
      injection spawning
    subst own
    have moved : w.pc ≠ t.pc := by simp [stood, pc]
    obtain ⟨other, queued, its⟩ := step_spawning inv.queue.queue stepped spawning moved
    refine ⟨cfg.isWorkerKey_workerId _, ⟨same ▸ Finset.mem_insert_self _ _, ?_⟩, ?_⟩
    · rw [redis, hgetall_hset, if_pos rfl]
      rfl
    · intro p member charge equal
      have tracked := (inv.held p (procs ▸ member) charge).1
      exact inv.queue.apart other queued (its ▸ equal ▸ tracked)
  | start workerId pid stood tracked redis procs pc =>
    exact inv.startTask (inv.reserved workerId stood) tracked queue redis pc procs
  | adopt same redis procs pc =>
    refine inv.sameProcs queue procs ?_ ?_
    · intro id key held
      refine ⟨?_, redis ▸ held.2⟩
      rw [same, List.mem_toFinset]
      exact mem_workerIds_of_allocated key held.2
    · intro id spawning
      rw [pc] at spawning
      contradiction
  | proc index event p q r happened there advanced manager redis procs pc =>
    subst happened
    refine inv.procStep there advanced manager redis procs pc ?_
    intro next stood
    subst next
    simpa [abandonsNobody, there, stood] using spares

/-- In every run in which the manager gives up no worker whose process handles its task, and no
process that was given up before reads its hash, no process handles a task after it found
itself given up, and no two processes handle the same task. -/
theorem task_handled_once {r : Redis} {w : World τ}
    (run : Run (step cfg limits) (fun w e => w.abandonsNobody e = true)
      (initial cfg limits r []) w) : w.RefusedStop ∧ w.HandledOnce := by
  have start : (initial cfg limits r []).Orderly cfg := by
    constructor <;> simp [initial, WorkerManager.construct_queueApart]
  have inv := run_invariant (Orderly cfg) (fun _ _ _ inv spares stepped =>
    step_orderly inv spares stepped) run start
  constructor
  · intro p member refused
    exact absurd refused (inv.accepted p member).1
  · intro i j p q atI atJ handlingP handlingQ same
    have chargeP : InCharge p := ⟨by simp [handlingP], by simp [handlingP],
      inv.handling p (List.mem_of_getElem? atI) handlingP⟩
    have chargeQ : InCharge q := ⟨by simp [handlingQ], by simp [handlingQ],
      inv.handling q (List.mem_of_getElem? atJ) handlingQ⟩
    exact inv.alone i j p q atI atJ chargeP chargeQ same

/-- A worker is started, handles its task, and a second run of the manager starts no other. -/
theorem task_handled_once_started :
    ∃ w : World PlainTask, w.procs.map Proc.pc = [.handling] ∧ w.RefusedStop ∧ w.HandledOnce := by
  obtain ⟨w, run, seen⟩ := exec_observe (step defaultConfig []) abandonsNobody
    (initial defaultConfig [] ⟨∅⟩ [])
    [.refill [PlainTask.mk "1"], .run, .cleanup 100 [], .manager 100, .manager 100, .startTask 7,
      .proc 0 .next, .proc 0 .next, .cleanup 140 ["worker:1"], .manager 140, .proc 0 .next,
      .manager 140, .manager 140, .stop, .refill [PlainTask.mk "1"], .run]
    (fun w => w.procs.map Proc.pc) [.handling] rfl
  exact ⟨w, seen, task_handled_once run⟩

/-- A process that found itself given up handles the task all the same, next to the process
that was started in its place. -/
theorem task_handled_twice :
    (¬ ∀ w : World PlainTask, Run (step defaultConfig []) anyEvent
      (initial defaultConfig [] ⟨∅⟩ []) w → w.RefusedStop) ∧
    ¬ ∀ w : World PlainTask, Run (step defaultConfig []) anyEvent
      (initial defaultConfig [] ⟨∅⟩ []) w → w.HandledOnce := by
  constructor
  · intro claimed
    obtain ⟨w, run, seen⟩ := exec_observe (step defaultConfig []) (fun _ _ => true)
      (initial defaultConfig [] ⟨∅⟩ []) (givenUpSchedule ++ [.proc 0 .next]) World.procs
      [⟨"worker:1", 7, .handling, some false, true⟩] rfl
    have stops := claimed w (run_weaken (fun _ _ _ => trivial) run)
      ⟨"worker:1", 7, .handling, some false, true⟩ (by simp [seen]) rfl
    contradiction
  · intro claimed
    obtain ⟨w, run, seen⟩ := exec_observe (step defaultConfig []) (fun _ _ => true)
      (initial defaultConfig [] ⟨∅⟩ [])
      (restartSchedule ++ [.proc 1 .next, .proc 1 .next, .proc 1 .next, .proc 0 .next]) World.procs
      [⟨"worker:1", 7, .handling, some false, true⟩, ⟨"worker:1", 8, .handling, some true, false⟩]
      rfl
    have same := claimed w (run_weaken (fun _ _ _ => trivial) run) 0 1
      ⟨"worker:1", 7, .handling, some false, true⟩ ⟨"worker:1", 8, .handling, some true, false⟩
      (by rw [seen]; rfl) (by rw [seen]; rfl) rfl rfl rfl
    contradiction

end Copr.World
