import Copr.Common.WorkerSystem

/-!
# Where workers come from

A worker id gets into Redis, into the cached set of tracked workers or onto the command line of
a process only by way of a task that was handed to the manager. So what is known of the
workers of all tasks that were ever handed over is known of every worker id in the system.
-/

namespace Copr

open Runs

namespace WorkerManager

variable {τ : Type} [QueueTask τ] {cfg : WorkerConfig} {known : String → Prop}

/-- All workers that the manager tracks, and those of all tasks in its queue, are known. -/
structure Within (cfg : WorkerConfig) (known : String → Prop) (m : WorkerManager τ) : Prop where
  /-- The queue is well formed. -/
  queue : m.tasks.WellFormed
  /-- The tasks in the queue. -/
  tasks : ∀ task ∈ m.tasks.live, known (cfg.workerOf task)
  /-- The tracked workers. -/
  tracked : ∀ id ∈ m.tracked, known id

/-- A known task may be added. -/
theorem Within.addTask {m : WorkerManager τ} (within : m.Within cfg known) {task : τ}
    (given : known (cfg.workerOf task)) : (m.addTask cfg task).Within cfg known := by
  unfold WorkerManager.addTask
  split
  · exact ⟨within.queue, within.tasks, within.tracked⟩
  · refine ⟨JobQueue.addTask_wellFormed within.queue task _, ?_, within.tracked⟩
    intro other member
    rcases JobQueue.mem_live_addTask within.queue member with rfl | old
    · exact given
    · exact within.tasks other old

/-- Cleaning leaves the tracked workers. -/
theorem Within.cleanTasks {m : WorkerManager τ} (within : m.Within cfg known) :
    m.cleanTasks.Within cfg known :=
  ⟨JobQueue.empty_wellFormed,
    by simp [WorkerManager.cleanTasks, JobQueue.live, JobQueue.empty], within.tracked⟩

/-- A list of known tasks may be handed over. -/
theorem Within.refill {m : WorkerManager τ} (within : m.Within cfg known) {tasks : List τ}
    (given : ∀ task ∈ tasks, known (cfg.workerOf task)) :
    (m.refill cfg tasks).Within cfg known := by
  have fold : ∀ (tasks : List τ) (m : WorkerManager τ), m.Within cfg known →
      (∀ task ∈ tasks, known (cfg.workerOf task)) →
      (tasks.foldl (WorkerManager.addTask cfg) m).Within cfg known := by
    intro tasks
    induction tasks with
    | nil => exact fun _ within _ => within
    | cons task tasks ih =>
      intro m within given
      rw [List.forall_mem_cons] at given
      exact ih _ (within.addTask given.1) given.2
  unfold WorkerManager.refill
  split
  · exact fold tasks m within given
  · exact fold tasks _ within.cleanTasks given

/-- A shorter queue holds no other task. -/
theorem Within.shrink {m : WorkerManager τ} (within : m.Within cfg known) {q : JobQueue τ}
    (queue : q.WellFormed) (fewer : ∀ task ∈ q.live, task ∈ m.tasks.live) :
    { m with tasks := q }.Within cfg known :=
  ⟨queue, fun task member => within.tasks task (fewer task member), within.tracked⟩

/-- Removing a task from the queue adds none. -/
theorem Within.dropTaskIdSafe {m : WorkerManager τ} (within : m.Within cfg known) (id : String) :
    (m.dropTaskIdSafe id).Within cfg known := by
  obtain ⟨q, dropped, queue, fewer⟩ := dropTaskIdSafe_spec within.queue id
  rw [dropped]
  exact within.shrink queue fewer

/-- Deleting a worker tracks no other. -/
theorem Within.discard {m : WorkerManager τ} (within : m.Within cfg known) (workerId : String) :
    (m.discard workerId).Within cfg known :=
  ⟨within.queue, within.tasks, fun id member => within.tracked id (Finset.mem_of_mem_erase member)⟩

/-- Starting the front task of the queue tracks its worker. -/
theorem Within.start {m : WorkerManager τ} (within : m.Within cfg known) {q : JobQueue τ} {task : τ}
    (queue : q.WellFormed) (front : m.tasks.live = task :: q.live) :
    ({ m with tasks := q }.startWorker cfg task).Within cfg known := by
  have fewer : ∀ other ∈ q.live, other ∈ m.tasks.live := fun other member =>
    front ▸ List.mem_cons_of_mem _ member
  refine ⟨queue, fun other member => within.tasks other (fewer other member), fun id member => ?_⟩
  rcases Finset.mem_insert.mp member with rfl | old
  · exact within.tasks task (front ▸ List.mem_cons_self)
  · exact within.tracked id old

end WorkerManager

/-- Setting a field brings its key into being. -/
theorem Redis.mem_keys_hset {r : Redis} {key other : String} {set : WorkerInfo → WorkerInfo}
    (member : other ∈ (r.hset key set).keys) : other = key ∨ other ∈ r.keys := by
  rw [mem_keys, get?_hset] at member
  by_cases same : other = key
  · exact .inl same
  · rw [if_neg same] at member
    exact .inr (mem_keys.mpr member)

/-- Deleting a key brings none into being. -/
theorem Redis.mem_keys_delete {r : Redis} {key other : String}
    (member : other ∈ (r.delete key).keys) : other ∈ r.keys := by
  rw [mem_keys, get?_delete] at member
  split at member
  · contradiction
  · exact mem_keys.mpr member

/-- The worker ids that the manager holds at a point of its program are known. -/
def ManagerPc.Within (known : String → Prop) : ManagerPc → Prop
  | .idle => True
  | .canceling workerId => known workerId
  | .turn => True
  | .sweeping ids => ∀ id ∈ ids, known id
  | .deleting workerId ids => known workerId ∧ ∀ id ∈ ids, known id
  | .checking workerId _ ids => known workerId ∧ ∀ id ∈ ids, known id
  | .probing workerId ids => known workerId ∧ ∀ id ∈ ids, known id
  | .condemning workerId ids => known workerId ∧ ∀ id ∈ ids, known id
  | .allotting => True
  | .spawning workerId => known workerId

/-- The tasks that the dispatcher hands over have known workers. -/
def Event.Within {τ : Type} [QueueTask τ] (cfg : WorkerConfig) (known : String → Prop) :
    Event τ → Prop
  | .addTask task => known (cfg.workerOf task)
  | .refill tasks => ∀ task ∈ tasks, known (cfg.workerOf task)
  | _ => True

namespace World

variable {τ : Type} [QueueTask τ] {cfg : WorkerConfig} {limits : List (WorkerLimit τ)}
  {known : String → Prop}

/-- All worker ids of the system are known. -/
structure Within (cfg : WorkerConfig) (known : String → Prop) (w : World τ) : Prop where
  /-- The keys of the Redis database. -/
  redis : ∀ id ∈ w.redis.keys, known id
  /-- The data of the manager. -/
  manager : w.manager.Within cfg known
  /-- Where the manager stands. -/
  pc : w.pc.Within known
  /-- The background processes. -/
  procs : ∀ p ∈ w.procs, known p.workerId

/-- Setting a field of a known worker. -/
theorem Within.hset {w : World τ} (within : w.Within cfg known) {key : String}
    (given : known key) (set : WorkerInfo → WorkerInfo) :
    ∀ id ∈ (w.redis.hset key set).keys, known id := by
  intro id member
  rcases Redis.mem_keys_hset member with rfl | old
  · exact given
  · exact within.redis id old

/-- Workers and tasks that are known are still known when more is. -/
theorem Within.mono {w : World τ} {more : String → Prop} (within : w.Within cfg known)
    (weaker : ∀ id, known id → more id) : w.Within cfg more where
  redis id member := weaker id (within.redis id member)
  manager := ⟨within.manager.queue, fun task member => weaker _ (within.manager.tasks task member),
    fun id member => weaker id (within.manager.tracked id member)⟩
  pc := by
    have stands := within.pc
    cases place : w.pc <;> rw [place] at stands <;> simp only [ManagerPc.Within] at stands ⊢
    case canceling => exact weaker _ stands
    case sweeping => exact fun id member => weaker id (stands id member)
    case spawning => exact weaker _ stands
    all_goals exact ⟨weaker _ stands.1, fun id member => weaker id (stands.2 id member)⟩
  procs p member := weaker _ (within.procs p member)

/-- A step of a background process concerns its own worker only. -/
theorem proc_within {p q : Proc} {r s : Redis} {e : ProcEvent} (own : known p.workerId)
    (keys : ∀ id ∈ r.keys, known id) (stepped : p.step r e = some (q, s)) :
    known q.workerId ∧ ∀ id ∈ s.keys, known id := by
  have set : ∀ f : WorkerInfo → WorkerInfo, ∀ id ∈ (r.hset p.workerId f).keys, known id := by
    intro f id member
    rcases Redis.mem_keys_hset member with rfl | old
    · exact own
    · exact keys id old
  unfold Proc.step at stepped
  cases e with
  | next =>
    dsimp only at stepped
    split at stepped
    · cases stepped; exact ⟨own, set _⟩
    · cases stepped; exact ⟨own, set _⟩
    · split at stepped <;> cases stepped <;> exact ⟨own, keys⟩
    · cases stepped; exact ⟨own, fun id member => keys id (Redis.mem_keys_delete member)⟩
    · cases stepped; exact ⟨own, set _⟩
    · contradiction
    · contradiction
  | cancel =>
    obtain ⟨-, same⟩ := Option.ite_none_right_eq_some.mp stepped
    cases same
    exact ⟨own, set _⟩
  | die =>
    obtain ⟨-, same⟩ := Option.ite_none_left_eq_some.mp stepped
    cases same
    exact ⟨own, keys⟩

/-- Allotting starts a queued task or none. -/
theorem Within.allot {w : World τ} (within : w.Within cfg known) (now : Time) :
    (w.allot cfg now).Within cfg known := by
  unfold World.allot
  split
  · exact ⟨within.redis, within.manager, trivial, within.procs⟩
  · obtain ⟨q, queue, ⟨allotted, -, empty⟩ | ⟨task, front, -, ⟨allotted, -⟩ | allotted⟩⟩ :=
      WorkerManager.allot_cases within.manager.queue
    · have shrunk := within.manager.shrink queue (by simp [empty])
      simp only [allotted]
      split <;> exact ⟨within.redis, shrunk, trivial, within.procs⟩
    · have given := within.manager.tasks task (front ▸ List.mem_cons_self)
      simp only [allotted]
      exact ⟨within.hset given _, within.manager.start queue front, given, within.procs⟩
    · have shrunk := within.manager.shrink queue fun other member =>
        front ▸ List.mem_cons_of_mem _ member
      simp only [allotted]
      exact ⟨within.redis, shrunk, trivial, within.procs⟩

/-- A command of the manager concerns workers that it knows. -/
theorem Within.managerStep {w t : World τ} {now : Time} (within : w.Within cfg known)
    (stepped : w.managerStep cfg now = some t) : t.Within cfg known := by
  have stands := within.pc
  unfold World.managerStep at stepped
  split at stepped
  · contradiction
  · rename_i workerId stood
    rw [stood] at stands
    cases stepped
    exact ⟨within.hset stands _, within.manager, trivial, within.procs⟩
  · split at stepped
    · contradiction
    · cases stepped
      exact ⟨within.redis, within.manager, trivial, within.procs⟩
  · cases stepped
    exact ⟨within.redis, within.manager, trivial, within.procs⟩
  · rename_i workerId ids stood
    rw [stood] at stands
    obtain ⟨head, tail⟩ := List.forall_mem_cons.mp stands
    split at stepped
    · cases stepped
      exact ⟨within.redis, within.manager, tail, within.procs⟩
    · cases stepped
      exact ⟨within.redis, within.manager, ⟨head, tail⟩, within.procs⟩
    · cases stepped
      exact ⟨within.redis, within.manager, ⟨head, tail⟩, within.procs⟩
  · rename_i workerId ids stood
    rw [stood] at stands
    cases stepped
    refine ⟨fun id member => within.redis id (Redis.mem_keys_delete member),
      within.manager.discard workerId, stands.2, fun p member => ?_⟩
    obtain ⟨old, inside, rfl⟩ := List.mem_map.mp member
    have same := within.procs old inside
    split <;> exact same
  · rename_i workerId pid ids stood
    rw [stood] at stands
    cases stepped
    refine ⟨within.hset stands.1 _, within.manager, ?_, within.procs⟩
    dsimp only
    split <;> exact stands
  · contradiction
  · rename_i workerId ids stood
    rw [stood] at stands
    cases stepped
    exact ⟨within.hset stands.1 _, within.manager, stands.2, within.procs⟩
  · cases stepped
    exact within.allot now
  · contradiction

/-- Every step with known tasks keeps all worker ids known. -/
theorem step_within {w t : World τ} {e : Event τ} (within : w.Within cfg known)
    (given : e.Within cfg known) (stepped : w.step cfg limits e = some t) : t.Within cfg known := by
  cases e with
  | addTask task =>
    obtain ⟨-, same⟩ := Option.ite_none_right_eq_some.mp stepped
    cases same
    exact ⟨within.redis, within.manager.addTask given, within.pc, within.procs⟩
  | cleanTasks =>
    obtain ⟨-, same⟩ := Option.ite_none_right_eq_some.mp stepped
    cases same
    exact ⟨within.redis, within.manager.cleanTasks, within.pc, within.procs⟩
  | refill tasks =>
    obtain ⟨-, same⟩ := Option.ite_none_right_eq_some.mp stepped
    cases same
    exact ⟨within.redis, within.manager.refill given, within.pc, within.procs⟩
  | cancelTaskId id =>
    obtain ⟨-, same⟩ := Option.ite_none_right_eq_some.mp stepped
    cases same
    refine ⟨within.redis, within.manager.dropTaskIdSafe id, ?_, within.procs⟩
    dsimp only
    split
    · rename_i exists_
      exact within.redis _ ((cfg.mem_workerIds).mp exists_).1
    · trivial
  | run =>
    obtain ⟨-, same⟩ := Option.ite_none_right_eq_some.mp stepped
    cases same
    exact ⟨within.redis, ⟨within.manager.queue, within.manager.tasks, within.manager.tracked⟩,
      trivial, within.procs⟩
  | stop =>
    obtain ⟨-, same⟩ := Option.ite_none_right_eq_some.mp stepped
    cases same
    exact ⟨within.redis, within.manager, trivial, within.procs⟩
  | cleanup now ids =>
    obtain ⟨⟨-, -, all⟩, same⟩ := Option.ite_none_right_eq_some.mp stepped
    cases same
    refine ⟨within.redis, ⟨within.manager.queue, within.manager.tasks, within.manager.tracked⟩,
      fun id member => ?_, within.procs⟩
    exact within.redis id ((cfg.mem_workerIds).mp (all.mem_iff.mp member)).1
  | manager now => exact within.managerStep stepped
  | probe alive =>
    have stands := within.pc
    simp only [step] at stepped
    split at stepped
    · rename_i workerId ids stood
      rw [stood] at stands
      cases stepped
      refine ⟨within.redis, within.manager, ?_, within.procs⟩
      dsimp only
      split
      · exact stands.2
      · exact stands
    · contradiction
  | startTask pid =>
    have stands := within.pc
    simp only [step] at stepped
    split at stepped
    · rename_i workerId stood
      rw [stood] at stands
      cases stepped
      refine ⟨within.redis, within.manager, trivial, fun p member => ?_⟩
      rcases List.mem_append.mp member with old | new
      · exact within.procs p old
      · rw [List.mem_singleton.mp new]
        exact stands
    · contradiction
  | restart =>
    cases stepped
    refine ⟨within.redis, ⟨JobQueue.empty_wellFormed, ?_, fun id member => ?_⟩, trivial,
      within.procs⟩
    · simp [WorkerManager.construct, JobQueue.live, JobQueue.empty]
    · exact within.redis id ((cfg.mem_workerIds).mp (List.mem_toFinset.mp member)).1
  | proc index event =>
    simp only [step] at stepped
    split at stepped
    · contradiction
    · rename_i p there
      obtain ⟨⟨q, r⟩, advanced, same⟩ := Option.map_eq_some_iff.mp stepped
      cases same
      obtain ⟨own, keys⟩ := proc_within (within.procs p (List.mem_of_getElem? there)) within.redis
        advanced
      refine ⟨keys, within.manager, within.pc, fun other member => ?_⟩
      rcases List.mem_or_eq_of_mem_set member with old | rfl
      · exact within.procs other old
      · exact own

end World

end Copr
