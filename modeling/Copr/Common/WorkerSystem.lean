import Copr.Common.ManagerRuns

/-!
# The manager, its background workers and Redis

`Dispatcher.run`, `WorkerManager.run` and `BackgroundWorker.process` as one machine over the
Redis database they share. One step is one Redis command of the manager or of one background
process with the local computation around it, so every interleaving of their commands is a
run. Every step of the manager takes its own reading of the clock and nothing is assumed
about the clock, so the older reading that the source passes along is among those covered.
-/

namespace Copr

open Runs

/-- Where a background process stands; a worker id on the command line is assumed, as for all
processes that a manager starts. -/
inductive ProcPc
  /-- `_wm_started` writes `started` next. -/
  | forked
  /-- `_wm_started` writes `PID` next. -/
  | started
  /-- `_wm_started` reads its hash next. -/
  | identified
  /-- `_wm_started` deletes its hash next. -/
  | refused
  /-- `handle_task` is running. -/
  | handling
  /-- `handle_task` has written `status`. -/
  | ended
  /-- The process is gone. -/
  | dead
  deriving DecidableEq, Repr

/-- A background process. -/
structure Proc where
  /-- `--worker-id`. -/
  workerId : String
  /-- `os.getpid()`. -/
  pid : Nat
  /-- The next command. -/
  pc : ProcPc
  /-- Whether `_wm_started` found the `allocated` field (history). -/
  found : Option Bool
  /-- The manager has deleted the worker since this process was started (history). -/
  abandoned : Bool
  deriving DecidableEq, Repr

/-- What a background process does. -/
inductive ProcEvent
  /-- The next command of `_daemonized_part`. -/
  | next
  /-- `handle_task` reacts to a cancel request. -/
  | cancel
  /-- The process dies. -/
  | die
  deriving DecidableEq, Repr

/-- One step of a background process on the Redis database. -/
def Proc.step (p : Proc) (r : Redis) : ProcEvent → Option (Proc × Redis)
  | .next =>
    match p.pc with
    | .forked =>
      some ({ p with pc := .started }, r.hset p.workerId fun info => { info with started := true })
    | .started =>
      some ({ p with pc := .identified },
        r.hset p.workerId fun info => { info with pid := some p.pid })
    | .identified =>
      if (r.hgetall p.workerId).allocated.isSome then
        some ({ p with pc := .handling, found := some true }, r)
      else some ({ p with pc := .refused, found := some false }, r)
    -- `_daemonized_part` does not look at what `_wm_started` returns.
    | .refused => some ({ p with pc := .handling }, r.delete p.workerId)
    | .handling =>
      some ({ p with pc := .ended },
        r.hset p.workerId fun info => { info with status := some "done" })
    | .ended => none
    | .dead => none
  | .cancel =>
    if p.pc = .handling then
      some (p, r.hset p.workerId fun info => { info with canceling := true })
    else none
  | .die => if p.pc = .dead then none else some ({ p with pc := .dead }, r)

/-- Where the manager stands between two commands. -/
inductive ManagerPc
  /-- Outside of `run` and `cancel_task_id`. -/
  | idle
  /-- `cancel_task_id` requests the cancelation next. -/
  | canceling (workerId : String)
  /-- At the head of the loop in `run`. -/
  | turn
  /-- `_cleanup_workers` goes on with these workers. -/
  | sweeping (ids : List String)
  /-- `_delete_worker`, then the rest. -/
  | deleting (workerId : String) (ids : List String)
  /-- `_cleanup_workers` writes `checked` next; the `PID` it has read. -/
  | checking (workerId : String) (pid : Option Nat) (ids : List String)
  /-- `is_worker_alive` probes the process next. -/
  | probing (workerId : String) (ids : List String)
  /-- `_cleanup_workers` writes `delete` next. -/
  | condemning (workerId : String) (ids : List String)
  /-- `_cleanup_workers` has returned to `run`. -/
  | allotting
  /-- `_start_worker` calls `start_task` next. -/
  | spawning (workerId : String)
  deriving DecidableEq, Repr

/-- The manager, Redis and the background processes. -/
structure World (τ : Type) where
  /-- The Redis database. -/
  redis : Redis
  /-- The data of the manager. -/
  manager : WorkerManager τ
  /-- Where the manager stands. -/
  pc : ManagerPc
  /-- All background processes ever started, oldest first. -/
  procs : List Proc

/-- What happens next. -/
inductive Event (τ : Type)
  /-- `add_task` is called. -/
  | addTask (task : τ)
  /-- `clean_tasks` is called. -/
  | cleanTasks
  /-- The dispatcher hands over a fetched list. -/
  | refill (tasks : List τ)
  /-- `cancel_task_id` is called. -/
  | cancelTaskId (id : String)
  /-- `run` is called. -/
  | run
  /-- The timeout of `run` is over. -/
  | stop
  /-- `_cleanup_workers` lists the workers in some order. -/
  | cleanup (now : Time) (ids : List String)
  /-- Any other command of the manager. -/
  | manager (now : Time)
  /-- `os.kill(pid, 0)` answers. -/
  | probe (alive : Bool)
  /-- `start_task` creates a process. -/
  | startTask (pid : Nat)
  /-- The dispatcher dies and is started again. -/
  | restart
  /-- A background process does something. -/
  | proc (index : Nat) (event : ProcEvent)

namespace World

variable {τ : Type} [QueueTask τ] (cfg : WorkerConfig) (limits : List (WorkerLimit τ))

/-- A manager starts over a Redis database, where some background processes may be left. -/
def initial (r : Redis) (procs : List Proc) : World τ where
  redis := r
  manager := .construct cfg limits r
  pc := .idle
  procs := procs

/-- `_cleanup_workers` does something at this time. -/
def cleanupDue (w : World τ) (now : Time) : Bool :=
  decide (cfg.cleanupPeriod ≤ now - w.manager.lastCleanup.getD 0)

/-- `_delete_worker`. -/
def deleteWorker (w : World τ) (workerId : String) (ids : List String) : World τ where
  redis := w.redis.delete workerId
  manager := w.manager.discard workerId
  pc := .sweeping ids
  procs := w.procs.map fun p => if p.workerId = workerId then { p with abandoned := true } else p

/-- The part of `run` behind `_cleanup_workers`. -/
def allot (w : World τ) (now : Time) : World τ :=
  if cfg.atLimit w.manager.tracked.card then { w with pc := .turn }
  else
    match w.manager.allot with
    | .nothing m =>
      if w.manager.tracked.card = 0 then { w with manager := m, pc := .idle }
      else { w with manager := m, pc := .turn }
    | .skipped m => { w with manager := m, pc := .turn }
    | .start task m =>
      { w with
        redis := w.redis.hset (cfg.workerOf task) fun info => { info with allocated := some now }
        manager := m.startWorker cfg task
        pc := .spawning (cfg.workerOf task) }

/-- The next command of the manager at a time. -/
def managerStep (w : World τ) (now : Time) : Option (World τ) :=
  match w.pc with
  | .idle => none
  | .canceling workerId =>
    some { w with
      redis := w.redis.hset workerId fun info => { info with cancelRequest := true }
      pc := .idle }
  | .turn => if w.cleanupDue cfg now then none else some { w with pc := .allotting }
  | .sweeping [] => some { w with pc := .allotting }
  | .sweeping (workerId :: ids) =>
    match cfg.judge now (w.redis.hgetall workerId) with
    | .keep => some { w with pc := .sweeping ids }
    | .drop => some { w with pc := .deleting workerId ids }
    | .check => some { w with pc := .checking workerId (w.redis.hgetall workerId).pid ids }
  | .deleting workerId ids => some (w.deleteWorker workerId ids)
  | .checking workerId pid ids =>
    some { w with
      redis := w.redis.hset workerId fun info => { info with checked := some now }
      pc := if pid.isSome then .probing workerId ids else .condemning workerId ids }
  | .probing _ _ => none
  | .condemning workerId ids =>
    some { w with
      redis := w.redis.hset workerId fun info => { info with delete := true }
      pc := .sweeping ids }
  | .allotting => some (w.allot cfg now)
  | .spawning _ => none

/-- One step of the whole system. -/
def step (w : World τ) : Event τ → Option (World τ)
  | .addTask task =>
    if w.pc = .idle then some { w with manager := w.manager.addTask cfg task } else none
  | .cleanTasks => if w.pc = .idle then some { w with manager := w.manager.cleanTasks } else none
  | .refill tasks =>
    if w.pc = .idle then some { w with manager := w.manager.refill cfg tasks } else none
  | .cancelTaskId id =>
    if w.pc = .idle then
      some { w with
        manager := w.manager.dropTaskIdSafe id
        pc := if cfg.workerId id ∈ cfg.workerIds w.redis then .canceling (cfg.workerId id)
          else .idle }
    else none
  | .run =>
    if w.pc = .idle then
      some { w with manager := { w.manager with lastCleanup := some 0 }, pc := .turn }
    else none
  | .stop => if w.pc = .turn then some { w with pc := .idle } else none
  | .cleanup now ids =>
    if w.pc = .turn ∧ w.cleanupDue cfg now = true ∧ ids.Perm (cfg.workerIds w.redis) then
      some { w with
        manager := { w.manager with lastCleanup := some now }
        pc := .sweeping ids }
    else none
  | .manager now => w.managerStep cfg now
  | .probe alive =>
    match w.pc with
    | .probing workerId ids =>
      some { w with pc := if alive then .sweeping ids else .condemning workerId ids }
    | _ => none
  | .startTask pid =>
    match w.pc with
    | .spawning workerId =>
      some { w with pc := .turn, procs := w.procs ++ [⟨workerId, pid, .forked, none, false⟩] }
    | _ => none
  | .restart => some { w with manager := .construct cfg limits w.redis, pc := .idle }
  | .proc index event =>
    match w.procs[index]? with
    | none => none
    | some p => (p.step w.redis event).map fun next =>
        { w with redis := next.2, procs := w.procs.set index next.1 }

/-- The class attributes of `WorkerManager` and its default `max_workers`. -/
def defaultConfig : WorkerConfig where
  workerPrefix := "worker"
  maxWorkers := some 8
  timeoutStart := 30
  timeoutDeadcheck := 180
  cleanupPeriod := 3

/-! ## What one step can do -/

/-- A step seen from the tracked workers, Redis and the processes. -/
inductive Effect (cfg : WorkerConfig) (w : World τ) (e : Event τ) (t : World τ) : Prop
  /-- Nothing but data of the manager and its position changes. -/
  | inside (tracked : t.manager.tracked = w.manager.tracked) (redis : t.redis = w.redis)
      (procs : t.procs = w.procs) (busy : ∀ id, t.pc ≠ .spawning id)
  /-- The manager sets a field other than `allocated`. -/
  | note (key : String) (set : WorkerInfo → WorkerInfo)
      (keeps : ∀ info, (set info).allocated = info.allocated)
      (tracked : t.manager.tracked = w.manager.tracked) (redis : t.redis = w.redis.hset key set)
      (procs : t.procs = w.procs) (busy : ∀ id, t.pc ≠ .spawning id)
  /-- The manager deletes a worker. -/
  | delete (workerId : String) (ids : List String) (now : Time) (happened : e = .manager now)
      (stood : w.pc = .deleting workerId ids) (same : t = w.deleteWorker workerId ids)
  /-- The manager allocates a worker for a task. -/
  | allocate (task : τ) (now : Time) (m : WorkerManager τ) (stood : w.pc = .allotting)
      (allotted : w.manager.allot = .start task m)
      (tracked : t.manager.tracked = insert (cfg.workerOf task) w.manager.tracked)
      (redis : t.redis = w.redis.hset (cfg.workerOf task) fun info =>
        { info with allocated := some now })
      (procs : t.procs = w.procs) (pc : t.pc = .spawning (cfg.workerOf task))
  /-- The process of an allocated worker comes to exist. -/
  | start (workerId : String) (pid : Nat) (stood : w.pc = .spawning workerId)
      (tracked : t.manager.tracked = w.manager.tracked) (redis : t.redis = w.redis)
      (procs : t.procs = w.procs ++ [⟨workerId, pid, .forked, none, false⟩]) (pc : t.pc = .turn)
  /-- A new manager adopts the workers that exist. -/
  | adopt (tracked : t.manager.tracked = (cfg.workerIds w.redis).toFinset)
      (redis : t.redis = w.redis) (procs : t.procs = w.procs) (pc : t.pc = .idle)
  /-- A background process steps. -/
  | proc (index : Nat) (event : ProcEvent) (p q : Proc) (r : Redis)
      (happened : e = .proc index event) (there : w.procs[index]? = some p)
      (stepped : p.step w.redis event = some (q, r))
      (manager : t.manager = w.manager) (redis : t.redis = r)
      (procs : t.procs = w.procs.set index q) (pc : t.pc = w.pc)

variable {cfg limits}

/-- The part of `run` behind `_cleanup_workers` starts one task or none. -/
theorem allot_effect {w : World τ} {e : Event τ} (now : Time) (stood : w.pc = .allotting) :
    Effect cfg w e (w.allot cfg now) := by
  unfold allot
  split
  · exact .inside rfl rfl rfl (by simp)
  · obtain ⟨q, allotted | allotted | ⟨task, allotted⟩⟩ := w.manager.allot_pops
    · simp only [allotted]
      split
      · exact .inside rfl rfl rfl (by simp)
      · exact .inside rfl rfl rfl (by simp)
    · simp only [allotted]
      exact .inside rfl rfl rfl (by simp)
    · simp only [allotted]
      exact .allocate task now _ stood allotted rfl rfl rfl rfl

/-- The effect of a command of the manager. -/
theorem managerStep_effect {w t : World τ} {now : Time} (stepped : w.managerStep cfg now = some t) :
    Effect cfg w (.manager now) t := by
  unfold managerStep at stepped
  split at stepped
  · contradiction
  · rename_i workerId stood
    obtain rfl := Option.some.inj stepped
    exact .note workerId (fun info => { info with cancelRequest := true }) (fun _ => rfl)
      rfl rfl rfl (by simp)
  · split at stepped
    · contradiction
    · obtain rfl := Option.some.inj stepped
      exact .inside rfl rfl rfl (by simp)
  · obtain rfl := Option.some.inj stepped
    exact .inside rfl rfl rfl (by simp)
  · split at stepped <;> obtain rfl := Option.some.inj stepped <;>
      exact .inside rfl rfl rfl (by simp)
  · rename_i workerId ids stood
    exact .delete workerId ids now rfl stood (Option.some.inj stepped).symm
  · rename_i workerId pid ids stood
    obtain rfl := Option.some.inj stepped
    exact .note workerId (fun info => { info with checked := some now }) (fun _ => rfl)
      rfl rfl rfl (by intro id; dsimp only; split <;> simp)
  · contradiction
  · rename_i workerId ids stood
    obtain rfl := Option.some.inj stepped
    exact .note workerId (fun info => { info with delete := true }) (fun _ => rfl)
      rfl rfl rfl (by simp)
  · rename_i stood
    obtain rfl := Option.some.inj stepped
    exact allot_effect now stood
  · contradiction

/-- Every step has one of these effects. -/
theorem step_effect {w t : World τ} {e : Event τ} (stepped : w.step cfg limits e = some t) :
    Effect cfg w e t := by
  cases e with
  | addTask task =>
    obtain ⟨stood, same⟩ := Option.ite_none_right_eq_some.mp stepped
    obtain rfl := Option.some.inj same
    exact .inside (WorkerManager.addTask_tracked _ _ _) rfl rfl (by simp [stood])
  | cleanTasks =>
    obtain ⟨stood, same⟩ := Option.ite_none_right_eq_some.mp stepped
    obtain rfl := Option.some.inj same
    exact .inside rfl rfl rfl (by simp [stood])
  | refill tasks =>
    obtain ⟨stood, same⟩ := Option.ite_none_right_eq_some.mp stepped
    obtain rfl := Option.some.inj same
    exact .inside (WorkerManager.refill_tracked _ _) rfl rfl (by simp [stood])
  | cancelTaskId id =>
    obtain ⟨stood, same⟩ := Option.ite_none_right_eq_some.mp stepped
    obtain rfl := Option.some.inj same
    exact .inside rfl rfl rfl (by intro id; dsimp only; split <;> simp)
  | run =>
    obtain ⟨stood, same⟩ := Option.ite_none_right_eq_some.mp stepped
    obtain rfl := Option.some.inj same
    exact .inside rfl rfl rfl (by simp)
  | stop =>
    obtain ⟨stood, same⟩ := Option.ite_none_right_eq_some.mp stepped
    obtain rfl := Option.some.inj same
    exact .inside rfl rfl rfl (by simp)
  | cleanup now ids =>
    obtain ⟨stood, same⟩ := Option.ite_none_right_eq_some.mp stepped
    obtain rfl := Option.some.inj same
    exact .inside rfl rfl rfl (by simp)
  | manager now => exact managerStep_effect stepped
  | probe alive =>
    simp only [step] at stepped
    split at stepped
    · obtain rfl := Option.some.inj stepped
      exact .inside rfl rfl rfl (by intro id; dsimp only; split <;> simp)
    · contradiction
  | startTask pid =>
    simp only [step] at stepped
    split at stepped
    · rename_i workerId stood
      obtain rfl := Option.some.inj stepped
      exact .start workerId pid stood rfl rfl rfl rfl
    · contradiction
  | restart =>
    obtain rfl := Option.some.inj stepped
    exact .adopt rfl rfl rfl rfl
  | proc index event =>
    simp only [step] at stepped
    split at stepped
    · contradiction
    · rename_i p there
      obtain ⟨⟨q, r⟩, advanced, rfl⟩ := Option.map_eq_some_iff.mp stepped
      exact .proc index event p q r rfl there advanced rfl rfl rfl rfl

/-! ## The manager within the system -/

/-- The dispatcher's loop, in which fetched lists hold known tasks only and, unless empty, the
tasks of all tracked workers. -/
def meetsFetchContract (cfg : WorkerConfig) (known : τ → Prop) (w : World τ) : Event τ → Prop
  | .addTask _ => False
  | .cleanTasks => False
  | .refill tasks => (∀ task ∈ tasks, known task) ∧
      (tasks ≠ [] → ∀ id ∈ w.manager.tracked, ∃ task ∈ tasks, cfg.workerOf task = id)
  | _ => True

instance (cfg : WorkerConfig) (known : τ → Prop) [DecidablePred known] (w : World τ) :
    ∀ e, Decidable (w.meetsFetchContract cfg known e)
  | .addTask _ => .isFalse id
  | .cleanTasks => .isFalse id
  | .refill tasks => inferInstanceAs (Decidable ((∀ task ∈ tasks, known task) ∧
      (tasks ≠ [] → ∀ id ∈ w.manager.tracked, ∃ task ∈ tasks, cfg.workerOf task = id)))
  | .cancelTaskId _ => .isTrue trivial
  | .run => .isTrue trivial
  | .stop => .isTrue trivial
  | .cleanup _ _ => .isTrue trivial
  | .manager _ => .isTrue trivial
  | .probe _ => .isTrue trivial
  | .startTask _ => .isTrue trivial
  | .restart => .isTrue trivial
  | .proc _ _ => .isTrue trivial

/-- What the part of `run` behind `_cleanup_workers` does to the manager. -/
theorem allot_perform (limits : List (WorkerLimit τ)) (w : World τ) (now : Time) :
    (w.allot cfg now).manager = w.manager ∨
      w.manager.perform cfg limits .skip = some (w.allot cfg now).manager ∨
      w.manager.perform cfg limits .start = some (w.allot cfg now).manager := by
  unfold allot
  split
  · exact .inl rfl
  · rename_i room
    obtain ⟨q, allotted | allotted | ⟨task, allotted⟩⟩ := w.manager.allot_pops
    · right; left
      simp only [WorkerManager.perform, allotted]
      split <;> rfl
    · right; left
      simp only [WorkerManager.perform, allotted]
    · right; right
      simp only [WorkerManager.perform, allotted, if_neg room]

/-- A command of the manager is nothing or one operation on its data. -/
theorem managerStep_perform (known : τ → Prop) {w t : World τ} {now : Time}
    (stepped : w.managerStep cfg now = some t) :
    t.manager = w.manager ∨ ∃ op, WorkerManager.FetchContract cfg known w.manager op ∧
      w.manager.perform cfg limits op = some t.manager := by
  unfold managerStep at stepped
  split at stepped
  · contradiction
  · exact .inl (Option.some.inj stepped ▸ rfl)
  · split at stepped
    · contradiction
    · exact .inl (Option.some.inj stepped ▸ rfl)
  · exact .inl (Option.some.inj stepped ▸ rfl)
  · split at stepped <;> exact .inl (Option.some.inj stepped ▸ rfl)
  · rename_i workerId ids stood
    obtain rfl := Option.some.inj stepped
    exact .inr ⟨.discard workerId, trivial, rfl⟩
  · exact .inl (Option.some.inj stepped ▸ rfl)
  · contradiction
  · exact .inl (Option.some.inj stepped ▸ rfl)
  · obtain rfl := Option.some.inj stepped
    rcases allot_perform limits w now with same | skipped | started
    · exact .inl same
    · exact .inr ⟨.skip, trivial, skipped⟩
    · exact .inr ⟨.start, trivial, started⟩
  · contradiction

/-- A step of the system is nothing or one operation on the data of the manager. -/
theorem step_perform (known : τ → Prop) {w t : World τ} {e : Event τ}
    (stepped : w.step cfg limits e = some t) :
    t.manager = w.manager ∨ ∃ op,
      (w.meetsFetchContract cfg known e → WorkerManager.FetchContract cfg known w.manager op) ∧
        w.manager.perform cfg limits op = some t.manager := by
  cases e with
  | addTask task =>
    obtain ⟨stood, same⟩ := Option.ite_none_right_eq_some.mp stepped
    exact .inr ⟨.addTask task, fun contract => contract, Option.some.inj same ▸ rfl⟩
  | cleanTasks =>
    obtain ⟨stood, same⟩ := Option.ite_none_right_eq_some.mp stepped
    exact .inr ⟨.cleanTasks, fun contract => contract, Option.some.inj same ▸ rfl⟩
  | refill tasks =>
    obtain ⟨stood, same⟩ := Option.ite_none_right_eq_some.mp stepped
    exact .inr ⟨.refill tasks, fun contract => contract, Option.some.inj same ▸ rfl⟩
  | cancelTaskId id =>
    obtain ⟨stood, same⟩ := Option.ite_none_right_eq_some.mp stepped
    exact .inr ⟨.dropTaskId id, fun _ => trivial, Option.some.inj same ▸ rfl⟩
  | run =>
    obtain ⟨stood, same⟩ := Option.ite_none_right_eq_some.mp stepped
    exact .inr ⟨.clock 0, fun _ => trivial, Option.some.inj same ▸ rfl⟩
  | stop =>
    obtain ⟨stood, same⟩ := Option.ite_none_right_eq_some.mp stepped
    exact .inl (Option.some.inj same ▸ rfl)
  | cleanup now ids =>
    obtain ⟨stood, same⟩ := Option.ite_none_right_eq_some.mp stepped
    exact .inr ⟨.clock now, fun _ => trivial, Option.some.inj same ▸ rfl⟩
  | manager now =>
    rcases managerStep_perform known stepped with same | ⟨op, contract, performed⟩
    · exact .inl same
    · exact .inr ⟨op, fun _ => contract, performed⟩
  | probe alive =>
    simp only [step] at stepped
    split at stepped
    · exact .inl (Option.some.inj stepped ▸ rfl)
    · contradiction
  | startTask pid =>
    simp only [step] at stepped
    split at stepped
    · exact .inl (Option.some.inj stepped ▸ rfl)
    · contradiction
  | restart => exact .inr ⟨.construct w.redis, fun _ => trivial, Option.some.inj stepped ▸ rfl⟩
  | proc index event =>
    simp only [step] at stepped
    split at stepped
    · contradiction
    · obtain ⟨next, -, rfl⟩ := Option.map_eq_some_iff.mp stepped
      exact .inl rfl

/-- A run of the system is, for the manager, a run of its operations. -/
theorem run_manager {w t : World τ} (run : Run (step cfg limits) anyEvent w t) :
    Run (WorkerManager.perform cfg limits) anyEvent w.manager t.manager :=
  run_simulates (fun _ _ _ _ stepped => (step_perform (fun _ => True) stepped).imp id
    fun ⟨op, _, performed⟩ => ⟨op, trivial, performed⟩) run

/-- A run of the system under the fetch contract is, for the manager, one as well. -/
theorem run_manager_contract {known : τ → Prop} {w t : World τ}
    (run : Run (step cfg limits) (meetsFetchContract cfg known) w t) :
    Run (WorkerManager.perform cfg limits) (WorkerManager.FetchContract cfg known)
      w.manager t.manager :=
  run_simulates (fun _ _ _ contract stepped => (step_perform known stepped).imp id
    fun ⟨op, meets, performed⟩ => ⟨op, meets contract, performed⟩) run

end World

end Copr
