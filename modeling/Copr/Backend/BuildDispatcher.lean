import Copr.Common.WorkerOrigin
import Copr.Frontend.OpenTasks

/-!
# Frontend and backend as one system

`BuildDispatcher` of `copr_backend/daemons/build_dispatcher.py` between the frontend's database
and the manager of background build workers. The dispatcher fetches the list of jobs, hands it
over and passes cancel requests on. What a worker, dist-git or a user tells the frontend is any
operation at any time, so all orders of their requests are covered.
-/

namespace Copr

open Runs

/-- `BuildQueueTask`. -/
structure BuildQueueTask where
  /-- `_task`. -/
  task : JobRecord
  /-- `backend_priority`. -/
  backendPriority : Int
  deriving DecidableEq, Repr

namespace BuildQueueTask

/-- `PRIORITY_SECTION_SIZE`. -/
def prioritySectionSize : Int := 1000000

/-- `source_build`: the id reads as a number. -/
def sourceBuild (t : BuildQueueTask) : Bool := t.task.taskId.toList.all Char.isDigit

/-- `frontend_priority`; the frontend sends no priority of its own. -/
def frontendPriority (t : BuildQueueTask) : Int :=
  (if t.task.background then 2 * prioritySectionSize else 0) +
    (if t.sourceBuild then 0 else prioritySectionSize)

instance : QueueTask BuildQueueTask where
  taskId t := t.task.taskId
  priority t := t.frontendPriority + t.backendPriority

end BuildQueueTask

/-- The frontend's database, the backend and the answer that is on its way. -/
structure BuildSystem where
  /-- The tables of the frontend. -/
  frontend : Database
  /-- The manager of the build dispatcher, Redis and the background workers. -/
  backend : World BuildQueueTask
  /-- What `get_frontend_tasks` has returned, until it is handed over. -/
  answer : Option (List BuildQueueTask)
  /-- The ids of all tasks that were ever fetched (history). -/
  fetched : List String
  /-- The ids of tasks that were taken back after they were fetched last (history). -/
  takenBack : List String
  /-- The batches that a fetch has found finished (history). -/
  finishedBatches : List Nat

/-- What happens next. -/
inductive SystemEvent
  /-- The frontend serves a request. -/
  | frontend (op : Operation)
  /-- `get_frontend_tasks` gets the list of jobs; the answers of the cache about batches and
  the dynamic priorities. -/
  | fetch (cached : Nat → Bool) (backendPriority : Nat → Int)
  /-- `get_frontend_tasks` fails and returns an empty list. -/
  | fetchFails
  /-- The dispatcher hands the returned list over. -/
  | refill
  /-- Anything else that happens in the backend. -/
  | backend (event : Event BuildQueueTask)

namespace BuildSystem

variable (cfg : WorkerConfig) (limits : List (WorkerLimit BuildQueueTask))

/-- Both sides start empty. -/
def initial : BuildSystem where
  frontend := .empty
  backend := .initial cfg limits ⟨∅⟩ []
  answer := none
  fetched := []
  takenBack := []
  finishedBatches := []

/-- `get_frontend_tasks`. -/
def fetch (s : BuildSystem) (cached : Nat → Bool) (backendPriority : Nat → Int) : BuildSystem :=
  let jobs := s.frontend.pendingJobs cached
  let ids := jobs.map JobRecord.taskId
  { s with
    answer := some (jobs.mapIdx fun i job => ⟨job, backendPriority i⟩)
    fetched := s.fetched ++ ids
    takenBack := s.takenBack.filter fun id => decide (id ∉ ids)
    finishedBatches := s.finishedBatches ++
      (s.frontend.batches.map Batch.id).filter (s.frontend.batchFinished cached) }

/-- One step of frontend or backend. -/
def step (s : BuildSystem) : SystemEvent → Option BuildSystem
  | .frontend op =>
    (s.frontend.operate op).map fun db =>
      { s with
        frontend := db
        takenBack := s.takenBack ++ s.fetched.filter fun id => s.frontend.takesBack id op }
  | .fetch cached backendPriority => some (s.fetch cached backendPriority)
  | .fetchFails => some { s with answer := some [] }
  | .refill =>
    match s.answer with
    | none => none
    | some tasks =>
      (s.backend.step cfg limits (.refill tasks)).map fun w =>
        { s with backend := w, answer := none }
  | .backend event =>
    match event with
    | .addTask _ => none
    | .cleanTasks => none
    | .refill _ => none
    | _ => (s.backend.step cfg limits event).map fun w => { s with backend := w }

variable {cfg limits}

/-! ## What holds in every state -/

/-- All workers are those of fetched tasks, and a fetched task stays open until it is taken
back. -/
structure Consistent (cfg : WorkerConfig) (s : BuildSystem) : Prop where
  /-- References to batches. -/
  batches : s.frontend.BatchesKnown
  /-- All worker ids in the backend. -/
  workers : s.backend.Within cfg fun worker => ∃ id ∈ s.fetched, cfg.workerId id = worker
  /-- The answer that is on its way. -/
  answer : ∀ tasks, s.answer = some tasks → ∀ t ∈ tasks, t.task.taskId ∈ s.fetched
  /-- Fetched tasks. -/
  opened : ∀ id ∈ s.fetched, id ∉ s.takenBack → s.frontend.Open s.finishedBatches id

/-- At the start nothing was fetched, so the system is consistent. -/
theorem initial_consistent : (initial cfg limits).Consistent cfg where
  batches := ⟨by simp [initial, Database.empty], by simp [initial, Database.empty],
    by simp [initial, Database.empty]⟩
  workers :=
    { redis := by simp [initial, World.initial, Redis.keys]
      manager := ⟨JobQueue.empty_wellFormed,
        by simp [initial, World.initial, WorkerManager.construct, JobQueue.live, JobQueue.empty],
        by simp [initial, World.initial, WorkerManager.construct, WorkerConfig.workerIds,
          Redis.keys]⟩
      pc := trivial
      procs := by simp [initial, World.initial] }
  answer := by simp [initial]
  opened := by simp [initial]

/-- An operation of the frontend keeps the system consistent: a fetched task stays open until it is
taken back. -/
theorem Consistent.frontend {s : BuildSystem} (consistent : s.Consistent cfg) {op : Operation}
    {db : Database} (operated : s.frontend.operate op = some db) :
    Consistent cfg { s with
      frontend := db
      takenBack := s.takenBack ++ s.fetched.filter fun id => s.frontend.takesBack id op } where
  batches := (Database.operate_batches consistent.batches operated).1
  workers := consistent.workers
  answer := consistent.answer
  opened id listed kept := by
    simp only [List.mem_append, List.mem_filter, not_or, not_and, Bool.not_eq_true] at kept
    exact Database.operate_open consistent.batches (consistent.opened id listed kept.1) operated
      (kept.2 listed)

/-- A fetch keeps the system consistent: what it brings is open. -/
theorem Consistent.fetch {s : BuildSystem} (consistent : s.Consistent cfg) (cached : Nat → Bool)
    (backendPriority : Nat → Int) : (s.fetch cached backendPriority).Consistent cfg where
  batches := consistent.batches
  workers := consistent.workers.mono fun worker ⟨id, listed, same⟩ =>
    ⟨id, List.mem_append_left _ listed, same⟩
  answer tasks same t member := by
    obtain rfl := Option.some.inj same
    obtain ⟨i, bound, rfl⟩ := List.mem_mapIdx.mp member
    exact List.mem_append_right _ (List.mem_map_of_mem (List.getElem_mem bound))
  opened id listed kept := by
    by_cases now : id ∈ (s.frontend.pendingJobs cached).map JobRecord.taskId
    · obtain ⟨record, inside, rfl⟩ := List.mem_map.mp now
      refine Database.open_of_listed consistent.batches inside fun batch member finished => ?_
      exact List.mem_append_right _ (List.mem_filter.mpr ⟨List.mem_map_of_mem member, finished⟩)
    · have before : id ∈ s.fetched := (List.mem_append.mp listed).resolve_right now
      have untaken : id ∉ s.takenBack := fun taken =>
        kept (List.mem_filter.mpr ⟨taken, decide_eq_true now⟩)
      obtain ⟨b, member, active, carries, ready⟩ := consistent.opened id before untaken
      refine ⟨b, member, active, carries, ready.grow consistent.batches member rfl ?_ ?_⟩
      · exact ⟨[], (List.append_nil _).symm⟩
      · exact fun n inside => List.mem_append_left _ inside

/-- A step of the backend that brings in only workers of fetched tasks keeps the system consistent.
-/
theorem Consistent.backend {s : BuildSystem} (consistent : s.Consistent cfg)
    {e : Event BuildQueueTask} {w : World BuildQueueTask}
    (given : e.Within cfg fun worker => ∃ id ∈ s.fetched, cfg.workerId id = worker)
    (stepped : s.backend.step cfg limits e = some w) :
    Consistent cfg { s with backend := w } where
  batches := consistent.batches
  workers := World.step_within consistent.workers given stepped
  answer := consistent.answer
  opened := consistent.opened

/-- Every step keeps the system consistent. -/
theorem step_consistent {s t : BuildSystem} {e : SystemEvent} (consistent : s.Consistent cfg)
    (stepped : s.step cfg limits e = some t) : t.Consistent cfg := by
  cases e with
  | frontend op =>
    obtain ⟨db, operated, rfl⟩ := Option.map_eq_some_iff.mp stepped
    exact consistent.frontend operated
  | fetch cached backendPriority =>
    obtain rfl := Option.some.inj stepped
    exact consistent.fetch cached backendPriority
  | fetchFails =>
    obtain rfl := Option.some.inj stepped
    exact ⟨consistent.batches, consistent.workers,
      fun tasks same t member => by simp [← Option.some.inj same] at member, consistent.opened⟩
  | refill =>
    simp only [step] at stepped
    split at stepped
    · contradiction
    · rename_i tasks same
      obtain ⟨w, handed, rfl⟩ := Option.map_eq_some_iff.mp stepped
      have given : (Event.refill tasks).Within cfg
          fun worker => ∃ id ∈ s.fetched, cfg.workerId id = worker :=
        fun task member => ⟨_, consistent.answer tasks same task member, rfl⟩
      have next := consistent.backend given handed
      exact ⟨next.batches, next.workers, by simp, next.opened⟩
  | backend event =>
    simp only [step] at stepped
    split at stepped
    · contradiction
    · contradiction
    · contradiction
    · obtain ⟨w, done, rfl⟩ := Option.map_eq_some_iff.mp stepped
      refine consistent.backend ?_ done
      cases event <;> first | trivial | simp_all

/-- In every reachable state of the whole system a tracked worker is one for a task that has
been fetched, and this task is in the list of jobs unless it was taken back after it was
fetched last; batches that a fetch has found finished count as finished. -/
theorem tracked_tasks_listed {s : BuildSystem}
    (run : Run (step cfg limits) anyEvent (initial cfg limits) s) :
    ∀ worker ∈ s.backend.manager.tracked, ∃ id ∈ s.fetched, cfg.workerId id = worker ∧
      (id ∉ s.takenBack →
        ∀ cached, (∀ n ∈ s.finishedBatches, s.frontend.batchFinished cached n = true) →
          ∃ record ∈ s.frontend.pendingJobs cached, record.taskId = id) := by
  have consistent : s.Consistent cfg :=
    run_invariant (Consistent cfg) (fun _ _ _ consistent _ stepped =>
      step_consistent consistent stepped) run initial_consistent
  intro worker tracked
  obtain ⟨id, listed, same⟩ := consistent.workers.manager.tracked worker tracked
  refine ⟨id, listed, same, fun kept cached still => ?_⟩
  exact Database.listed_of_open consistent.batches (consistent.opened id listed kept) still

/-- `RPMBuildWorkerManager` with the default of `builds_max_workers`. -/
def rpmBuildWorkerManager : WorkerConfig :=
  { World.defaultConfig with workerPrefix := "rpm_build_worker", maxWorkers := some 60 }

/-- The source task of a new build is fetched, started and runs. -/
def sourceTaskRuns : List SystemEvent :=
  [.frontend Sample.submitted, .fetch (fun _ => false) (fun _ => 1), .refill, .backend .run,
    .backend (.cleanup 100 []), .backend (.manager 100), .backend (.manager 100),
    .backend (.startTask 7), .backend (.proc 0 .next), .backend (.proc 0 .next),
    .backend (.proc 0 .next), .frontend (.message (Sample.sourceReport .starting)),
    .frontend (.message (Sample.sourceReport .running))]

/-- The task of a running worker is listed. -/
theorem tracked_tasks_listed_running :
    ∃ s : BuildSystem, s.backend.manager.tracked = {"rpm_build_worker:1"} ∧
      ∃ record ∈ s.frontend.pendingJobs fun _ => false, record.taskId = "1" := by
  obtain ⟨s, run, seen⟩ := exec_observe (step rpmBuildWorkerManager []) (fun _ _ => true)
    (initial rpmBuildWorkerManager []) sourceTaskRuns
    (fun s => (s.backend.manager.tracked, s.fetched, s.takenBack, s.finishedBatches))
    ({"rpm_build_worker:1"}, ["1"], [], []) rfl
  simp only [Prod.mk.injEq] at seen
  obtain ⟨tracked, fetched, takenBack, finished⟩ := seen
  refine ⟨s, tracked, ?_⟩
  obtain ⟨id, listed, -, kept⟩ := tracked_tasks_listed (run_weaken (fun _ _ _ => trivial) run)
    "rpm_build_worker:1" (by simp [tracked])
  rw [fetched, List.mem_singleton] at listed
  subst listed
  exact kept (by simp [takenBack]) _ (by simp [finished])

/-- When a user cancels the build of a running worker, its task leaves the list of jobs at once,
while the worker is tracked and still handles its task. -/
theorem canceled_task_not_listed : ¬ ∀ (cfg : WorkerConfig)
    (limits : List (WorkerLimit BuildQueueTask)) (s : BuildSystem),
    Run (step cfg limits) anyEvent (initial cfg limits) s →
    ∀ p ∈ s.backend.procs, p.pc = .handling → p.workerId ∈ s.backend.manager.tracked →
      ∃ record ∈ s.frontend.pendingJobs fun _ => false,
        cfg.workerId record.taskId = p.workerId := by
  intro claimed
  obtain ⟨s, run, seen⟩ := exec_observe (step rpmBuildWorkerManager []) (fun _ _ => true)
    (initial rpmBuildWorkerManager []) (sourceTaskRuns ++ [.frontend (.message (.cancelBuild 1))])
    (fun s => (s.backend.procs.map fun p => (p.workerId, p.pc), s.backend.manager.tracked,
      s.frontend.pendingJobs fun _ => false))
    ([("rpm_build_worker:1", .handling)], {"rpm_build_worker:1"}, []) rfl
  simp only [Prod.mk.injEq] at seen
  obtain ⟨procs, tracked, listed⟩ := seen
  obtain ⟨p, member, same⟩ := List.mem_map.mp
    (procs ▸ List.mem_singleton_self ("rpm_build_worker:1", ProcPc.handling))
  simp only [Prod.mk.injEq] at same
  obtain ⟨record, inside, -⟩ := claimed _ _ s (run_weaken (fun _ _ _ => trivial) run) p member
    same.2 (by simp [same.1, tracked])
  simp [listed] at inside

end BuildSystem

end Copr
