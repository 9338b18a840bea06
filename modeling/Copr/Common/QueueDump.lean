import Copr.Common.QueueRefinement
import Copr.Common.WorkerSafety
import Copr.Lib.Traces

/-!
# The dump of the queue

`Dispatcher.dump_queue` of `copr_common/dispatcher.py` walks the heap itself. What stands there
for a removed task is the text of `JobQueue.removed`, which has no `id`.
-/

namespace Copr

open Traces

namespace JobQueue

variable {τ : Type} [QueueTask τ]

/-- `logging.DEBUG`. -/
def debugLevel : Nat := 10

/-- `[priority, count, task.id]`. -/
structure DumpRecord where
  /-- `priority`. -/
  priority : Int
  /-- `count`. -/
  count : Nat
  /-- `task.id`. -/
  id : String
  deriving DecidableEq, Repr

/-- The only error of `dump_queue`. -/
inductive DumpError
  /-- `'str' object has no attribute 'id'`. -/
  | attributeError
  deriving DecidableEq, Repr

/-- The record of an entry of the heap. -/
def dumpEntry (e : Entry τ) : Except DumpError DumpRecord :=
  match e.task with
  | some task => .ok ⟨e.priority, e.count, taskId task⟩
  | none => .error .attributeError

/-- `dump_queue`: what is written to the file, or nothing when the log level is too high. An entry
of the heap is always a list of three. The heap is kept sorted here and the source walks its array,
so the records are those of the source, but not in its order. -/
def dumpQueue (level : Nat) (q : JobQueue τ) : Except DumpError (Option (List DumpRecord)) :=
  if level > debugLevel then .ok none else (q.prioQueue.mapM dumpEntry).map some

/-- The dump is written, with one record for each task in the queue. -/
def Dumped (q : JobQueue τ) : Prop :=
  ∃ records, q.dumpQueue debugLevel = .ok (some records) ∧ records.Nodup ∧
    ∀ record, record ∈ records ↔ ∃ task,
      q.slot record.id = some ⟨record.priority, record.count, task⟩

/-- A request takes a task of the queue out of turn. -/
def Displaces (q : JobQueue τ) : PriorityMap.Request String Int τ → Prop
  | .add task _ => q.slot (taskId task) ≠ none
  | .remove task => q.slot (taskId task) ≠ none
  | .removeKey id => q.slot id ≠ none
  | .pop => False

/-- No entry of the heap is a placeholder. -/
def Clean (q : JobQueue τ) : Prop := ∀ e ∈ q.prioQueue, e.task ≠ none

/-! ## When the dump succeeds -/

/-- A loop over entries fails on a placeholder. -/
theorem mapM_dumpEntry {l : List (Entry τ)} {records : List DumpRecord} :
    l.mapM dumpEntry = .ok records ↔
      l.map (fun e => (e.priority, e.count, e.task.map taskId)) =
        records.map fun r => (r.priority, r.count, some r.id) := by
  induction l generalizing records with
  | nil => cases records <;> simp [pure, Except.pure]
  | cons e rest ih =>
    obtain ⟨priority, count, task⟩ := e
    rw [List.mapM_cons]
    cases task with
    | none => cases records <;> simp [dumpEntry, bind, Except.bind]
    | some task =>
      cases others : rest.mapM dumpEntry with
      | error e =>
        have never : ∀ tail : List DumpRecord,
            ¬ rest.map (fun e => (e.priority, e.count, e.task.map taskId)) =
              tail.map fun r => (r.priority, r.count, some r.id) := by
          intro tail same
          rw [ih.mpr same] at others
          contradiction
        cases records with
        | nil => simp [dumpEntry, bind, Except.bind]
        | cons r tail => simp [dumpEntry, bind, Except.bind, never tail]
      | ok tail =>
        have same := ih.mp others
        cases records with
        | nil => simp [dumpEntry, bind, Except.bind, pure, Except.pure]
        | cons r tail' =>
          have tails : tail = tail' ↔ rest.map (fun e => (e.priority, e.count, e.task.map taskId)) =
              tail'.map fun r => (r.priority, r.count, some r.id) := by
            rw [← ih, others, Except.ok.injEq]
          obtain ⟨p, n, id⟩ := r
          simp [dumpEntry, bind, Except.bind, pure, Except.pure, tails, and_assoc]

/-- The dump succeeds exactly if there is no placeholder in the heap. -/
theorem dumped_iff {q : JobQueue τ} (wf : q.WellFormed) : q.Dumped ↔ q.Clean := by
  have level : q.dumpQueue debugLevel = (q.prioQueue.mapM dumpEntry).map some := by
    simp [dumpQueue, debugLevel]
  constructor
  · rintro ⟨records, written, -, -⟩ e member gone
    rw [level] at written
    cases dump : q.prioQueue.mapM dumpEntry with
    | error e => simp [dump, Except.map] at written
    | ok all =>
      have same := mapM_dumpEntry.mp dump
      have listed := List.mem_map_of_mem
        (f := fun e : Entry τ => (e.priority, e.count, e.task.map taskId)) member
      rw [same, List.mem_map] at listed
      obtain ⟨record, -, equal⟩ := listed
      simp [gone] at equal
  · intro clean
    have identified : ∀ e ∈ q.prioQueue, ∃ task, e.task = some task :=
      fun e member => Option.ne_none_iff_exists'.mp (clean e member)
    let records := q.prioQueue.filterMap fun e =>
      e.task.map fun task => DumpRecord.mk e.priority e.count (taskId task)
    have complete : q.prioQueue.mapM dumpEntry = .ok records := by
      refine mapM_dumpEntry.mpr ?_
      simp only [records]
      generalize q.prioQueue = l at identified
      induction l with
      | nil => rfl
      | cons e rest ih =>
        obtain ⟨task, live⟩ := identified e List.mem_cons_self
        have others := ih fun e member => identified e (List.mem_cons_of_mem _ member)
        simp [live, others]
    have mem : ∀ record, record ∈ records ↔ ∃ task,
        ⟨record.priority, record.count, some task⟩ ∈ q.prioQueue ∧ taskId task = record.id := by
      intro record
      simp only [records, List.mem_filterMap, Option.map_eq_some_iff]
      constructor
      · rintro ⟨e, member, task, live, rfl⟩
        exact ⟨task, live ▸ member, rfl⟩
      · rintro ⟨task, member, its⟩
        refine ⟨_, member, task, rfl, ?_⟩
        rw [its]
    refine ⟨records, by rw [level, complete]; rfl, ?_, fun record => (mem record).trans ?_⟩
    · have counts : records.map DumpRecord.count = q.prioQueue.map Entry.count := by
        have same := congrArg (List.map fun r : Int × Nat × Option String => r.2.1)
          (mapM_dumpEntry.mp complete)
        simpa [List.map_map, Function.comp_def] using same.symm
      exact List.Nodup.of_map DumpRecord.count (counts ▸ wf.distinct)
    · refine exists_congr fun task => ?_
      exact (slot_iff wf (s := ⟨record.priority, record.count, task⟩)).symm

/-! ## Along a run -/

/-- Pushing a task leaves no placeholder. -/
theorem pushTask_clean {q : JobQueue τ} {task : τ} {priority : Int} :
    (q.pushTask task priority).Clean ↔ q.Clean := by
  simp [Clean, pushTask, List.mem_orderedInsert]

/-- Removing a known id leaves a placeholder. -/
theorem removeTaskById_not_clean {q r : JobQueue τ} {id : String} (wf : q.WellFormed)
    (removed : q.removeTaskById id = some r) : ¬ r.Clean := by
  obtain ⟨count, known, rfl⟩ := Option.map_eq_some_iff.mp removed
  obtain ⟨e, inside, same, -⟩ := wf.found id count known
  intro clean
  refine clean { e with task := none } ?_ rfl
  exact List.mem_map.mpr ⟨e, inside, if_pos same⟩

/-- A call on a queue without placeholders leaves one exactly if it takes a task out of turn. -/
theorem serve_clean {q : JobQueue τ} (wf : q.WellFormed) (clean : q.Clean)
    (request : PriorityMap.Request String Int τ) :
    (q.serve request).2.Clean ↔ ¬ q.Displaces request := by
  have removal : ∀ id, q.slot id ≠ none → ∃ r, q.removeTaskById id = some r :=
    fun id present => Option.ne_none_iff_exists'.mp
      (mt (removeTaskById_eq_none wf).mp present)
  cases request with
  | add task priority =>
    change (q.addTask task priority).Clean ↔ ¬ q.slot (taskId task) ≠ none
    unfold addTask removeTask
    by_cases absent : q.slot (taskId task) = none
    · rw [(removeTaskById_eq_none wf).mpr absent, Option.getD_none, pushTask_clean]
      exact iff_of_true clean (not_not.mpr absent)
    · obtain ⟨r, removed⟩ := removal _ absent
      rw [removed, Option.getD_some, pushTask_clean]
      exact iff_of_false (removeTaskById_not_clean wf removed) (not_not.mpr absent)
  | remove task =>
    by_cases absent : q.slot (taskId task) = none
    · have missing : q.removeTask task = none := (removeTaskById_eq_none wf).mpr absent
      simp [serve, missing, Displaces, absent, clean]
    · obtain ⟨r, removed⟩ := removal _ absent
      have removed : q.removeTask task = some r := removed
      simp [serve, removed, Displaces, absent, removeTaskById_not_clean wf removed]
  | removeKey id =>
    by_cases absent : q.slot id = none
    · have missing := (removeTaskById_eq_none wf).mpr absent
      simp [serve, missing, Displaces, absent, clean]
    · obtain ⟨r, removed⟩ := removal _ absent
      simp [serve, removed, Displaces, absent, removeTaskById_not_clean wf removed]
  | pop =>
    refine iff_of_true ?_ not_false
    rcases popLive_spec q.prioQueue with ⟨dropped, e, rest, task, split, -, -, pop⟩ | ⟨-, pop⟩
    · intro f member
      have inside : f ∈ rest := by simpa [serve, popTask, pop] using member
      refine clean f ?_
      rw [split]
      exact List.mem_append_right _ (List.mem_cons_of_mem _ inside)
    · intro f member
      simp [serve, popTask, pop] at member

/-- Along a run that starts with the empty queue the dump always succeeds exactly if no call
removes a task of the queue out of turn or adds one again. -/
theorem always_dumped_iff (requests : List (PriorityMap.Request String Int τ)) :
    Always (fun q request => (serve q request).2) Dumped (empty : JobQueue τ) requests ↔
      EachStep (fun q request => (serve q request).2) (fun q request => ¬ q.Displaces request)
        (empty : JobQueue τ) requests := by
  have exact : ∀ q : JobQueue τ, ∀ request ∈ requests, (q.WellFormed ∧ q.Clean) →
      (((q.serve request).2.WellFormed ∧ (q.serve request).2.Clean) ↔ ¬ q.Displaces request) := by
    rintro q request - ⟨wf, clean⟩
    exact (and_iff_right (serve_spec wf request).1).trans (serve_clean wf clean request)
  have start : (empty : JobQueue τ).WellFormed ∧ (empty : JobQueue τ).Clean :=
    ⟨empty_wellFormed, by simp [Clean, empty]⟩
  rw [← always_iff_eachStep exact start]
  exact always_congr (fun q request wf => (serve_spec wf request).1)
    (fun q wf => (dumped_iff wf).trans (and_iff_right wf).symm) start.1

/-- Not every run leaves a queue that can be dumped: a task is added and then canceled. -/
theorem canceled_task_not_dumped : ¬ ∀ requests,
    Dumped ((empty : JobQueue World.PlainTask).serveAll requests).2 := by
  intro always
  obtain ⟨records, written, -⟩ := always [.add ⟨"1"⟩ 0, .removeKey "1"]
  have failed : dumpQueue debugLevel
      ((empty : JobQueue World.PlainTask).serveAll [.add ⟨"1"⟩ 0, .removeKey "1"]).2 =
        .error .attributeError := rfl
  rw [failed] at written
  contradiction

end JobQueue

/-- In the loop of the dispatcher: after a cancel request the dump succeeds exactly if the task is
not in the queue. -/
theorem WorkerManager.dumped_after_cancel {τ : Type} [QueueTask τ] {m : WorkerManager τ}
    (wf : m.tasks.WellFormed) (clean : m.tasks.Clean) (id : String) :
    (m.dropTaskIdSafe id).tasks.Dumped ↔ m.tasks.slot id = none := by
  have same : (m.dropTaskIdSafe id).tasks = (m.tasks.serve (.removeKey id)).2 := by
    unfold dropTaskIdSafe JobQueue.serve
    cases removed : m.tasks.removeTaskById id <;> simp [removed]
  rw [same, JobQueue.dumped_iff (JobQueue.serve_spec wf _).1, JobQueue.serve_clean wf clean]
  exact not_not

end Copr
