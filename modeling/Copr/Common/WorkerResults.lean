import Copr.Common.WorkerSafety

/-!
# Results that workers have stored

A background process ends by storing the `status` of its task in the Redis hash of its worker.
Here is what a step of the system does to stored results and to the tasks that are on their way
to a process, as long as the manager abandons no process that handles its task.
-/

namespace Copr.World

open Runs

variable {τ : Type} [QueueTask τ] {cfg : WorkerConfig} {limits : List (WorkerLimit τ)}

/-- Redis has the result of a worker. -/
def HasResult (w : World τ) (id : String) : Prop := (w.redis.hgetall id).status.isSome = true

instance (w : World τ) (id : String) : Decidable (w.HasResult id) :=
  inferInstanceAs (Decidable (_ = true))

/-- A process is about to store its result. -/
def Stores (w : World τ) (e : Event τ) (id : String) : Prop :=
  ∃ index p, e = .proc index .next ∧ w.procs[index]? = some p ∧ p.pc = .handling ∧
    p.workerId = id

/-- The manager is about to delete a worker. -/
def Drops (w : World τ) (e : Event τ) (id : String) : Prop :=
  ∃ now ids, e = .manager now ∧ w.pc = .deleting id ids

/-! ## What one step does to results -/

/-- Setting another field keeps every result. -/
theorem status_hset {set : WorkerInfo → WorkerInfo}
    (keeps : ∀ info, (set info).status = info.status) (r : Redis) (key id : String) :
    ((r.hset key set).hgetall id).status = (r.hgetall id).status := by
  rw [hgetall_hset]
  split
  · rename_i same
    rw [keeps, same]
  · rfl

/-- A command of the manager stores no result, and takes one away only by deleting the worker. -/
theorem managerStep_status {w t : World τ} {now : Time} (stepped : w.managerStep cfg now = some t)
    (id : String) : (t.redis.hgetall id).status = (w.redis.hgetall id).status ∨
      (∃ ids, w.pc = .deleting id ids) ∧ ¬ t.HasResult id := by
  unfold managerStep at stepped
  split at stepped
  · contradiction
  · cases stepped
    left
    refine status_hset ?_ _ _ _
    exact fun _ => rfl
  · split at stepped
    · contradiction
    · cases stepped
      exact Or.inl rfl
  · cases stepped
    exact Or.inl rfl
  · split at stepped <;> cases stepped <;> exact Or.inl rfl
  · rename_i workerId ids stood
    cases stepped
    by_cases same : id = workerId
    · right
      refine ⟨⟨ids, same ▸ stood⟩, ?_⟩
      show ¬ ((w.redis.delete workerId).hgetall id).status.isSome = true
      rw [hgetall_delete, if_pos same]
      exact Bool.false_ne_true
    · left
      show ((w.redis.delete workerId).hgetall id).status = _
      rw [hgetall_delete, if_neg same]
  · cases stepped
    left
    refine status_hset ?_ _ _ _
    exact fun _ => rfl
  · contradiction
  · cases stepped
    left
    refine status_hset ?_ _ _ _
    exact fun _ => rfl
  · cases stepped
    left
    unfold allot
    split
    · rfl
    · split
      · split <;> rfl
      · rfl
      · refine status_hset ?_ _ _ _
        exact fun _ => rfl
  · contradiction

/-- A process stores a result only for its own worker at the end of its task, and takes results
away only if it found itself given up. -/
theorem proc_step_status {p q : Proc} {r r' : Redis} {e : ProcEvent}
    (stepped : p.step r e = some (q, r')) (accepted : p.pc ≠ .refused) (id : String) :
    (r'.hgetall id).status = (r.hgetall id).status ∨
      (e = .next ∧ p.pc = .handling ∧ p.workerId = id) ∧
        (r'.hgetall id).status.isSome = true := by
  cases e with
  | next =>
    cases stood : p.pc with
    | refused => exact absurd stood accepted
    | identified =>
      simp only [Proc.step, stood] at stepped
      split at stepped <;> cases stepped <;> exact Or.inl rfl
    | forked | started =>
      simp only [Proc.step, stood] at stepped
      cases stepped
      left
      refine status_hset ?_ _ _ _
      exact fun _ => rfl
    | handling =>
      simp only [Proc.step, stood] at stepped
      cases stepped
      by_cases own : p.workerId = id
      · right
        refine ⟨⟨rfl, rfl, own⟩, ?_⟩
        rw [hgetall_hset, if_pos own.symm]
        rfl
      · left
        rw [hgetall_hset, if_neg (Ne.symm own)]
    | ended | dead => simp [Proc.step, stood] at stepped
  | cancel =>
    obtain ⟨-, same⟩ := Option.ite_none_right_eq_some.mp stepped
    cases same
    left
    refine status_hset ?_ _ _ _
    exact fun _ => rfl
  | die =>
    obtain ⟨-, same⟩ := Option.ite_none_left_eq_some.mp stepped
    cases same
    exact Or.inl rfl

/-- What a step does to the result of a worker. -/
theorem step_status {w t : World τ} {e : Event τ} (orderly : w.Orderly cfg)
    (stepped : w.step cfg limits e = some t) (id : String) :
    (t.redis.hgetall id).status = (w.redis.hgetall id).status ∨
      w.Stores e id ∧ t.HasResult id ∨ w.Drops e id ∧ ¬ t.HasResult id := by
  cases e with
  | addTask task =>
    obtain ⟨-, same⟩ := Option.ite_none_right_eq_some.mp stepped
    cases same
    exact Or.inl rfl
  | cleanTasks =>
    obtain ⟨-, same⟩ := Option.ite_none_right_eq_some.mp stepped
    cases same
    exact Or.inl rfl
  | refill tasks =>
    obtain ⟨-, same⟩ := Option.ite_none_right_eq_some.mp stepped
    cases same
    exact Or.inl rfl
  | cancelTaskId id =>
    obtain ⟨-, same⟩ := Option.ite_none_right_eq_some.mp stepped
    cases same
    exact Or.inl rfl
  | run =>
    obtain ⟨-, same⟩ := Option.ite_none_right_eq_some.mp stepped
    cases same
    exact Or.inl rfl
  | stop =>
    obtain ⟨-, same⟩ := Option.ite_none_right_eq_some.mp stepped
    cases same
    exact Or.inl rfl
  | cleanup now ids =>
    obtain ⟨-, same⟩ := Option.ite_none_right_eq_some.mp stepped
    cases same
    exact Or.inl rfl
  | manager now =>
    rcases managerStep_status stepped id with same | ⟨⟨ids, stood⟩, gone⟩
    · exact Or.inl same
    · exact Or.inr (Or.inr ⟨⟨now, ids, rfl, stood⟩, gone⟩)
  | probe alive =>
    simp only [step] at stepped
    split at stepped
    · cases stepped
      exact Or.inl rfl
    · contradiction
  | startTask pid =>
    simp only [step] at stepped
    split at stepped
    · cases stepped
      exact Or.inl rfl
    · contradiction
  | restart =>
    cases stepped
    exact Or.inl rfl
  | proc index event =>
    simp only [step] at stepped
    split at stepped
    · contradiction
    · rename_i p there
      obtain ⟨⟨q, r⟩, advanced, same⟩ := Option.map_eq_some_iff.mp stepped
      cases same
      have accepted := (orderly.accepted p (List.mem_of_getElem? there)).2
      rcases proc_step_status advanced accepted id with kept | ⟨⟨rfl, handling, own⟩, result⟩
      · exact Or.inl kept
      · exact Or.inr (Or.inl ⟨⟨index, p, rfl, there, handling, own⟩, result⟩)

/-- A result is new only when a process has stored it. -/
theorem hasResult_of_step {w t : World τ} {e : Event τ} {id : String} (orderly : w.Orderly cfg)
    (stepped : w.step cfg limits e = some t) (result : t.HasResult id) :
    w.HasResult id ∨ w.Stores e id := by
  rcases step_status orderly stepped id with same | ⟨stores, -⟩ | ⟨-, gone⟩
  · left
    rw [HasResult, ← same]
    exact result
  · exact Or.inr stores
  · exact absurd result gone

/-- A process that stores its result has one. -/
theorem hasResult_of_stores {w t : World τ} {e : Event τ} {id : String}
    (stepped : w.step cfg limits e = some t) (stores : w.Stores e id) : t.HasResult id := by
  obtain ⟨index, p, rfl, there, handling, rfl⟩ := stores
  simp only [step, there, Proc.step, handling, Option.map_some] at stepped
  cases stepped
  simp [HasResult, hgetall_hset]

/-- A result is gone only when the manager has deleted the worker. -/
theorem drops_of_step {w t : World τ} {e : Event τ} {id : String} (orderly : w.Orderly cfg)
    (stepped : w.step cfg limits e = some t) (result : w.HasResult id) (gone : ¬ t.HasResult id) :
    w.Drops e id := by
  rcases step_status orderly stepped id with same | ⟨-, there⟩ | ⟨drops, -⟩
  · rw [HasResult, ← same] at result
    exact absurd result gone
  · exact absurd there gone
  · exact drops

/-- The manager comes to delete a worker only after it has read its hash. -/
theorem deleting_of_step {w t : World τ} {e : Event τ} {id : String} {ids : List String}
    (stepped : w.step cfg limits e = some t) (stands : t.pc = .deleting id ids) :
    w.pc = .deleting id ids ∨ (∃ now, e = .manager now) ∧ w.pc = .sweeping (id :: ids) ∧
      t.redis = w.redis := by
  cases e with
  | manager now =>
    simp only [step, managerStep] at stepped
    split at stepped
    · contradiction
    · cases stepped
      contradiction
    · split at stepped
      · contradiction
      · cases stepped
        contradiction
    · cases stepped
      contradiction
    · rename_i workerId rest stood
      right
      split at stepped
      · cases stepped
        contradiction
      · cases stepped
        cases stands
        exact ⟨⟨now, rfl⟩, stood, rfl⟩
      · cases stepped
        contradiction
    · cases stepped
      contradiction
    · cases stepped
      dsimp only at stands
      split at stands <;> contradiction
    · contradiction
    · cases stepped
      contradiction
    · cases stepped
      exfalso
      unfold allot at stands
      split at stands
      · contradiction
      · split at stands
        · split at stands <;> contradiction
        · contradiction
        · contradiction
    · contradiction
  | proc index event =>
    simp only [step] at stepped
    split at stepped
    · contradiction
    · obtain ⟨next, -, rfl⟩ := Option.map_eq_some_iff.mp stepped
      exact Or.inl stands
  | probe alive =>
    simp only [step] at stepped
    split at stepped
    · cases stepped
      dsimp only at stands
      split at stands <;> contradiction
    · contradiction
  | startTask pid =>
    simp only [step] at stepped
    split at stepped
    · cases stepped
      contradiction
    · contradiction
  | restart =>
    cases stepped
    contradiction
  | cancelTaskId other =>
    obtain ⟨-, same⟩ := Option.ite_none_right_eq_some.mp stepped
    cases same
    dsimp only at stands
    split at stands <;> contradiction
  | addTask task =>
    obtain ⟨-, same⟩ := Option.ite_none_right_eq_some.mp stepped
    cases same
    exact Or.inl stands
  | cleanTasks =>
    obtain ⟨-, same⟩ := Option.ite_none_right_eq_some.mp stepped
    cases same
    exact Or.inl stands
  | refill tasks =>
    obtain ⟨-, same⟩ := Option.ite_none_right_eq_some.mp stepped
    cases same
    exact Or.inl stands
  | run =>
    obtain ⟨-, same⟩ := Option.ite_none_right_eq_some.mp stepped
    cases same
    contradiction
  | stop =>
    obtain ⟨-, same⟩ := Option.ite_none_right_eq_some.mp stepped
    cases same
    contradiction
  | cleanup now workers =>
    obtain ⟨-, same⟩ := Option.ite_none_right_eq_some.mp stepped
    cases same
    contradiction

/-! ## Results are tracked until they are reported -/

/-- What is known of stored results. -/
structure Settled (cfg : WorkerConfig) (w : World τ) : Prop where
  /-- A worker with a result is tracked and allocated. -/
  held : ∀ id, w.HasResult id → w.Holds id ∧ cfg.isWorkerKey id = true
  /-- No process is in charge of a worker with a result. -/
  ceased : ∀ id, w.HasResult id → ∀ p ∈ w.procs, InCharge p → p.workerId ≠ id
  /-- A worker whose process is about to be started has no result. -/
  fresh : ∀ id, w.pc = .spawning id → ¬ w.HasResult id

/-- A worker is tracked and allocated until the manager deletes it. -/
theorem holds_of_step {w t : World τ} {e : Event τ} {id : String} (orderly : w.Orderly cfg)
    (stepped : w.step cfg limits e = some t) (key : cfg.isWorkerKey id = true)
    (before : w.Holds id) : t.Holds id ∨ w.Drops e id := by
  obtain ⟨tracked, allocated⟩ := before
  cases step_effect stepped with
  | inside same redis => exact Or.inl ⟨same ▸ tracked, redis ▸ allocated⟩
  | note other set keeps same redis =>
    left
    refine ⟨same ▸ tracked, ?_⟩
    rw [redis, allocated_hset keeps]
    exact allocated
  | delete workerId ids now happened stood same =>
    subst same
    by_cases own : id = workerId
    · exact Or.inr ⟨now, ids, happened, own ▸ stood⟩
    · left
      refine ⟨Finset.mem_erase.mpr ⟨own, tracked⟩, ?_⟩
      show ((w.redis.delete workerId).hgetall id).allocated.isSome = true
      rw [hgetall_delete, if_neg own]
      exact allocated
  | allocate task now m _ _ same redis =>
    left
    refine ⟨same ▸ Finset.mem_insert_of_mem tracked, ?_⟩
    rw [redis, hgetall_hset]
    split
    · rfl
    · exact allocated
  | start _ _ _ same redis => exact Or.inl ⟨same ▸ tracked, redis ▸ allocated⟩
  | adopt same redis =>
    left
    refine ⟨?_, redis ▸ allocated⟩
    rw [same, List.mem_toFinset]
    exact mem_workerIds_of_allocated key allocated
  | proc index event p q r happened there advanced manager redis =>
    left
    have accepted := (orderly.accepted p (List.mem_of_getElem? there)).2
    have keeps := (proc_step_keeps advanced accepted).2.2.2
    refine ⟨manager ▸ tracked, ?_⟩
    rw [redis, keeps]
    exact allocated

/-- A process in charge after a step was in charge before, or it has just been started. -/
theorem inCharge_of_step {w t : World τ} {e : Event τ} {p : Proc} (orderly : w.Orderly cfg)
    (stepped : w.step cfg limits e = some t) (member : p ∈ t.procs) (charge : InCharge p) :
    (∃ q ∈ w.procs, InCharge q ∧ q.workerId = p.workerId ∧
      ∀ id, w.Stores e id → p.workerId ≠ id) ∨
      w.pc = .spawning p.workerId := by
  have idle : (∀ index event, e ≠ .proc index event) → ∀ id, w.Stores e id → p.workerId ≠ id :=
    fun other id ⟨index, _, happened, _⟩ => absurd happened (other index _)
  cases e with
  | proc index event =>
    left
    simp only [step] at stepped
    split at stepped
    · contradiction
    · rename_i q there
      obtain ⟨⟨q', r⟩, advanced, same⟩ := Option.map_eq_some_iff.mp stepped
      cases same
      have inside := List.mem_of_getElem? there
      have accepted := (orderly.accepted q inside).2
      obtain ⟨sameId, -, charged, -⟩ := proc_step_keeps advanced accepted
      obtain ⟨i, found⟩ := List.mem_iff_getElem?.mp member
      simp only [List.getElem?_set] at found
      split at found
      · rename_i own
        split at found
        · obtain rfl := Option.some.inj found
          refine ⟨q, inside, charged charge, sameId.symm, ?_⟩
          rintro id ⟨index', p', happened, there', handling, rfl⟩ same
          cases happened
          rw [there] at there'
          cases there'
          simp only [Proc.step, handling] at advanced
          cases advanced
          exact charge.1 rfl
        · contradiction
      · rename_i other
        refine ⟨p, List.mem_of_getElem? found, charge, rfl, ?_⟩
        rintro id ⟨index', p', happened, there', handling, rfl⟩ same
        cases happened
        have chargeOther : InCharge p' := ⟨by simp [handling], by simp [handling],
          orderly.handling p' (List.mem_of_getElem? there') handling⟩
        exact other (orderly.alone index i p' p there' found chargeOther charge same.symm)
  | _ =>
    have spared := idle (by simp)
    cases step_effect stepped with
    | inside _ _ procs => exact Or.inl ⟨p, procs ▸ member, charge, rfl, spared⟩
    | note _ _ _ _ _ procs => exact Or.inl ⟨p, procs ▸ member, charge, rfl, spared⟩
    | delete workerId ids now _ _ same =>
      subst same
      left
      obtain ⟨q, inside, same⟩ := List.mem_map.mp member
      split at same
      · subst same
        simp [InCharge] at charge
      · subst same
        exact ⟨q, inside, charge, rfl, spared⟩
    | allocate _ _ _ _ _ _ _ procs => exact Or.inl ⟨p, procs ▸ member, charge, rfl, spared⟩
    | start workerId pid stood _ _ procs =>
      rw [procs] at member
      rcases List.mem_append.mp member with old | new
      · exact Or.inl ⟨p, old, charge, rfl, spared⟩
      · right
        rw [List.mem_singleton.mp new]
        exact stood
    | adopt _ _ procs => exact Or.inl ⟨p, procs ▸ member, charge, rfl, spared⟩
    | proc _ _ _ _ _ happened => cases happened

/-- A step that abandons nobody keeps what is known of results. -/
theorem step_settled {w t : World τ} {e : Event τ} (orderly : w.Orderly cfg)
    (settled : w.Settled cfg) (spares : w.abandonsNobody e = true)
    (stepped : w.step cfg limits e = some t) : t.Settled cfg := by
  have after : t.Orderly cfg := step_orderly orderly spares stepped
  -- A process that stores its result is in charge of its worker.
  have storing : ∀ id, w.Stores e id → ∃ p ∈ w.procs, InCharge p ∧ p.workerId = id := by
    rintro id ⟨index, p, -, there, handling, own⟩
    have member := List.mem_of_getElem? there
    exact ⟨p, member, ⟨by simp [handling], by simp [handling],
      orderly.handling p member handling⟩, own⟩
  constructor
  · intro id result
    have held : w.Holds id ∧ cfg.isWorkerKey id = true := by
      rcases hasResult_of_step orderly stepped result with before | stores
      · exact settled.held id before
      · obtain ⟨p, member, charge, rfl⟩ := storing id stores
        exact ⟨orderly.held p member charge, orderly.keys p member⟩
    refine ⟨?_, held.2⟩
    rcases holds_of_step orderly stepped held.2 held.1 with still | drops
    · exact still
    · -- A worker that the manager has deleted has no result.
      obtain ⟨now, ids, rfl, stood⟩ := drops
      have gone : ¬ t.HasResult id := by
        simp only [step, managerStep, stood] at stepped
        cases stepped
        simp [HasResult, deleteWorker, hgetall_delete]
      exact absurd result gone
  · intro id result p member charge own
    rcases inCharge_of_step orderly stepped member charge with ⟨q, inside, charged, same, spared⟩ |
      spawning
    · rcases hasResult_of_step orderly stepped result with before | stores
      · exact settled.ceased id before q inside charged (same.trans own)
      · exact spared id stores own
    · rcases hasResult_of_step orderly stepped result with before | stores
      · exact settled.fresh p.workerId spawning (own ▸ before)
      · obtain ⟨q, inside, charged, same⟩ := storing id stores
        exact (orderly.reserved _ spawning).2.2 q inside charged (same.trans own.symm)
  · intro id spawning result
    by_cases moved : w.pc = t.pc
    · rcases hasResult_of_step orderly stepped result with before | stores
      · exact settled.fresh id (moved.trans spawning) before
      · obtain ⟨q, inside, charged, same⟩ := storing id stores
        exact (orderly.reserved id (moved.trans spawning)).2.2 q inside charged same
    · obtain ⟨task, queued, own⟩ := step_spawning orderly.queue.queue stepped spawning moved
      rcases hasResult_of_step orderly stepped result with before | stores
      · exact orderly.queue.apart task queued (own ▸ (settled.held id before).1.1)
      · obtain ⟨q, inside, charged, same⟩ := storing id stores
        have held := (orderly.held q inside charged).1
        exact orderly.queue.apart task queued (own ▸ same ▸ held)

/-! ## Tasks on their way to a process -/

/-- The task of a worker is queued, is about to be started, or a process is in charge of it. -/
def Begun (cfg : WorkerConfig) (w : World τ) (id : String) : Prop :=
  (∃ task ∈ w.manager.tasks.live, cfg.workerOf task = id) ∨ w.pc = .spawning id ∨
    ∃ p ∈ w.procs, InCharge p ∧ p.workerId = id

/-- The dispatcher hands over a task. -/
def HandsOver (cfg : WorkerConfig) (e : Event τ) (id : String) : Prop :=
  (∃ task, e = .addTask task ∧ cfg.workerOf task = id) ∨
    ∃ tasks, e = .refill tasks ∧ ∃ task ∈ tasks, cfg.workerOf task = id

/-- `add_task` adds one task at most. -/
theorem queued_of_addTask (cfg : WorkerConfig) {m : WorkerManager τ} (added : τ)
    (wf : m.tasks.WellFormed) :
    (m.addTask cfg added).tasks.WellFormed ∧
      ∀ task ∈ (m.addTask cfg added).tasks.live, task ∈ m.tasks.live ∨ task = added := by
  unfold WorkerManager.addTask
  split
  · exact ⟨wf, fun task queued => Or.inl queued⟩
  · exact ⟨JobQueue.addTask_wellFormed wf added _, fun task queued =>
      (JobQueue.mem_live_addTask wf queued).symm⟩

/-- A task whose result is stored is not on its way any more. -/
theorem Settled.not_begun {w : World τ} {id : String} (settled : w.Settled cfg)
    (orderly : w.Orderly cfg) (result : w.HasResult id) : ¬ w.Begun cfg id := by
  rintro (⟨task, queued, own⟩ | spawning | ⟨p, member, charge, own⟩)
  · exact orderly.queue.apart task queued (own ▸ (settled.held id result).1.1)
  · exact settled.fresh id spawning result
  · exact settled.ceased id result p member charge own

omit [QueueTask τ] in
/-- Nothing is known of an empty Redis database without processes. -/
theorem initial_settled : (initial cfg limits ⟨∅⟩ []).Settled cfg := by
  have none : ∀ id, ¬ (initial cfg limits ⟨∅⟩ []).HasResult id := by
    intro id result
    simp [HasResult, initial, Redis.hgetall, Redis.get?] at result
  exact ⟨fun id result => absurd result (none id), fun id result => absurd result (none id),
    fun id _ => none id⟩

/-- Nobody is in charge of anything at the start. -/
theorem initial_orderly {r : Redis} : (initial cfg limits r []).Orderly cfg := by
  constructor <;> simp [initial, WorkerManager.construct_queueApart]

/-- A queued task was queued before, or it was handed over. -/
theorem queued_of_refill {m : WorkerManager τ} {tasks : List τ} {task : τ}
    (wf : m.tasks.WellFormed) (queued : task ∈ (m.refill cfg tasks).tasks.live) :
    task ∈ m.tasks.live ∨ task ∈ tasks := by
  have fold : ∀ (tasks : List τ) (m : WorkerManager τ), m.tasks.WellFormed →
      task ∈ (tasks.foldl (WorkerManager.addTask cfg) m).tasks.live →
      task ∈ m.tasks.live ∨ task ∈ tasks := by
    intro tasks
    induction tasks with
    | nil => exact fun m _ inside => Or.inl inside
    | cons first rest ih =>
      intro m wf inside
      obtain ⟨next, adds⟩ := queued_of_addTask cfg first wf
      rcases ih _ next inside with before | later
      · rcases adds task before with old | rfl
        · exact Or.inl old
        · exact Or.inr List.mem_cons_self
      · exact Or.inr (List.mem_cons_of_mem _ later)
  unfold WorkerManager.refill at queued
  split at queued
  · exact fold tasks m wf queued
  · rcases fold tasks _ JobQueue.empty_wellFormed queued with none | given
    · simp [WorkerManager.cleanTasks, JobQueue.live, JobQueue.empty] at none
    · exact Or.inr given

/-- Allotting only takes tasks from the queue. -/
theorem queued_of_allot {w : World τ} {now : Time} {task : τ} (wf : w.manager.tasks.WellFormed)
    (queued : task ∈ (w.allot cfg now).manager.tasks.live) : task ∈ w.manager.tasks.live := by
  unfold allot at queued
  split at queued
  · exact queued
  · obtain ⟨q, -, ⟨allotted, -, empty⟩ | ⟨first, front, -, ⟨allotted, -⟩ | allotted⟩⟩ :=
      WorkerManager.allot_cases wf
    · simp only [allotted] at queued
      split at queued <;> simp [empty] at queued
    · simp only [allotted] at queued
      exact front ▸ List.mem_cons_of_mem _ queued
    · simp only [allotted] at queued
      exact front ▸ List.mem_cons_of_mem _ queued

/-- A task is queued only by handing it over. -/
theorem queued_of_step {w t : World τ} {e : Event τ} {task : τ} (orderly : w.Orderly cfg)
    (stepped : w.step cfg limits e = some t) (queued : task ∈ t.manager.tasks.live) :
    task ∈ w.manager.tasks.live ∨ HandsOver cfg e (cfg.workerOf task) := by
  have wf := orderly.queue.queue
  cases e with
  | addTask other =>
    obtain ⟨-, same⟩ := Option.ite_none_right_eq_some.mp stepped
    cases same
    rcases (queued_of_addTask cfg other wf).2 task queued with old | rfl
    · exact Or.inl old
    · exact Or.inr (Or.inl ⟨task, rfl, rfl⟩)
  | cleanTasks =>
    obtain ⟨-, same⟩ := Option.ite_none_right_eq_some.mp stepped
    cases same
    simp [WorkerManager.cleanTasks, JobQueue.live, JobQueue.empty] at queued
  | refill tasks =>
    obtain ⟨-, same⟩ := Option.ite_none_right_eq_some.mp stepped
    cases same
    rcases queued_of_refill wf queued with old | given
    · exact Or.inl old
    · exact Or.inr (Or.inr ⟨tasks, rfl, task, given, rfl⟩)
  | cancelTaskId id =>
    obtain ⟨-, same⟩ := Option.ite_none_right_eq_some.mp stepped
    cases same
    obtain ⟨q, dropped, -, fewer⟩ := WorkerManager.dropTaskIdSafe_spec wf id
    simp only [dropped] at queued
    exact Or.inl (fewer task queued)
  | run =>
    obtain ⟨-, same⟩ := Option.ite_none_right_eq_some.mp stepped
    cases same
    exact Or.inl queued
  | stop =>
    obtain ⟨-, same⟩ := Option.ite_none_right_eq_some.mp stepped
    cases same
    exact Or.inl queued
  | cleanup now ids =>
    obtain ⟨-, same⟩ := Option.ite_none_right_eq_some.mp stepped
    cases same
    exact Or.inl queued
  | manager now =>
    left
    simp only [step, managerStep] at stepped
    split at stepped
    · contradiction
    · cases stepped
      exact queued
    · split at stepped
      · contradiction
      · cases stepped
        exact queued
    · cases stepped
      exact queued
    · split at stepped <;> cases stepped <;> exact queued
    · cases stepped
      exact queued
    · cases stepped
      exact queued
    · contradiction
    · cases stepped
      exact queued
    · cases stepped
      exact queued_of_allot wf queued
    · contradiction
  | probe alive =>
    simp only [step] at stepped
    split at stepped
    · cases stepped
      exact Or.inl queued
    · contradiction
  | startTask pid =>
    simp only [step] at stepped
    split at stepped
    · cases stepped
      exact Or.inl queued
    · contradiction
  | restart =>
    cases stepped
    simp [WorkerManager.construct, JobQueue.live, JobQueue.empty] at queued
  | proc index event =>
    simp only [step] at stepped
    split at stepped
    · contradiction
    · obtain ⟨next, -, rfl⟩ := Option.map_eq_some_iff.mp stepped
      exact Or.inl queued

/-- A task gets on its way only by handing it over, and only if its worker is not tracked. -/
theorem begun_of_step {w t : World τ} {e : Event τ} {id : String} (orderly : w.Orderly cfg)
    (spares : w.abandonsNobody e = true) (stepped : w.step cfg limits e = some t)
    (begun : t.Begun cfg id) :
    w.Begun cfg id ∨ HandsOver cfg e id ∧ id ∉ t.manager.tracked := by
  rcases begun with ⟨task, queued, rfl⟩ | spawning | ⟨p, member, charge, rfl⟩
  · rcases queued_of_step orderly stepped queued with old | given
    · exact Or.inl (Or.inl ⟨task, old, rfl⟩)
    · have after := step_orderly orderly spares stepped
      exact Or.inr ⟨given, after.queue.apart task queued⟩
  · left
    by_cases moved : w.pc = t.pc
    · exact Or.inr (Or.inl (moved.trans spawning))
    · exact Or.inl (step_spawning orderly.queue.queue stepped spawning moved)
  · left
    rcases inCharge_of_step orderly stepped member charge with ⟨q, inside, charged, same, -⟩ |
      spawning
    · exact Or.inr (Or.inr ⟨q, inside, charged, same⟩)
    · exact Or.inr (Or.inl spawning)

end Copr.World
