import Mathlib.Data.List.AList
import Mathlib.Data.List.Sort

/-!
# The priority queue of the worker manager

`QueueTask` and `JobQueue` of `copr_common/worker_manager.py`. The heap of `heapq` is kept
as the list of its entries in the order in which they are popped: the counter makes the
entries distinct before their tasks are compared. A task is removed lazily, so an entry
whose task is `none` is the source's `<removed-task>` placeholder.
-/

namespace Copr

/-- What `WorkerManager` asks of a task. -/
class QueueTask (τ : Type) where
  /-- `repr(task)`, the text of the task's `id`. -/
  taskId : τ → String
  /-- The higher it is, the later the task is taken. -/
  priority : τ → Int

export QueueTask (taskId)

namespace JobQueue

variable {τ : Type}

/-- A heap entry `[priority, count, task]`. -/
structure Entry (τ : Type) where
  /-- Priority given when the task was added. -/
  priority : Int
  /-- Sequence number. -/
  count : Nat
  /-- The task, or `none` once removed. -/
  task : Option τ

/-- The order of `[priority, count, …]` lists. -/
def Entry.le (a b : Entry τ) : Prop :=
  a.priority < b.priority ∨ (a.priority = b.priority ∧ a.count ≤ b.count)

instance : DecidableRel (@Entry.le τ) :=
  fun a b => inferInstanceAs
    (Decidable (a.priority < b.priority ∨ (a.priority = b.priority ∧ a.count ≤ b.count)))

instance : Std.Total (@Entry.le τ) where
  total a b := by
    unfold Entry.le
    omega

instance : IsTrans (Entry τ) Entry.le where
  trans a b c := by
    unfold Entry.le
    omega

end JobQueue

/-- `JobQueue`. -/
structure JobQueue (τ : Type) where
  /-- `prio_queue`, least entry first. -/
  prioQueue : List (JobQueue.Entry τ)
  /-- `entry_finder`: the sequence number of the live entry of a task id. -/
  entryFinder : AList fun _ : String => Nat
  /-- The next sequence number. -/
  counter : Nat

namespace JobQueue

variable {τ : Type} [QueueTask τ]

/-- `JobQueue()`. -/
def empty : JobQueue τ := ⟨[], ∅, 0⟩

/-- `remove_task_by_id`; `none` is the `KeyError`. -/
def removeTaskById (q : JobQueue τ) (id : String) : Option (JobQueue τ) :=
  (q.entryFinder.lookup id).map fun count =>
    { q with
      entryFinder := q.entryFinder.erase id
      prioQueue := q.prioQueue.map fun e => if e.count = count then { e with task := none } else e }

/-- `remove_task`. -/
def removeTask (q : JobQueue τ) (task : τ) : Option (JobQueue τ) := q.removeTaskById (taskId task)

/-- The push at the end of `add_task`. -/
def pushTask (q : JobQueue τ) (task : τ) (priority : Int) : JobQueue τ where
  prioQueue := q.prioQueue.orderedInsert Entry.le ⟨priority, q.counter, some task⟩
  entryFinder := q.entryFinder.insert (taskId task) q.counter
  counter := q.counter + 1

/-- `add_task`: a known id is removed first. -/
def addTask (q : JobQueue τ) (task : τ) (priority : Int) : JobQueue τ :=
  ((q.removeTask task).getD q).pushTask task priority

/-- The loop of `pop_task`: drop placeholders up to the first live entry. -/
def popLive : List (Entry τ) → Option τ × List (Entry τ)
  | [] => (none, [])
  | e :: rest =>
    match e.task with
    | none => popLive rest
    | some task => (some task, rest)

/-- `pop_task`; no task is the `KeyError`, after which the placeholders are gone. -/
def popTask (q : JobQueue τ) : Option τ × JobQueue τ :=
  match popLive q.prioQueue with
  | (none, rest) => (none, { q with prioQueue := rest })
  | (some task, rest) =>
    (some task, { q with prioQueue := rest, entryFinder := q.entryFinder.erase (taskId task) })

/-- The tasks in the queue, in the order in which they will be popped. -/
def live (q : JobQueue τ) : List τ := q.prioQueue.filterMap Entry.task

/-- What every operation keeps: the finder names exactly the live entries, and sequence
numbers are distinct. -/
structure WellFormed (q : JobQueue τ) : Prop where
  /-- Entries stand in popping order. -/
  sorted : q.prioQueue.Pairwise Entry.le
  /-- No sequence number is used twice. -/
  distinct : (q.prioQueue.map Entry.count).Nodup
  /-- Sequence numbers are below the counter. -/
  below : ∀ e ∈ q.prioQueue, e.count < q.counter
  /-- The finder finds every live entry. -/
  finds : ∀ e ∈ q.prioQueue, ∀ task, e.task = some task →
    q.entryFinder.lookup (taskId task) = some e.count
  /-- What the finder names is a live entry of that id. -/
  found : ∀ id count, q.entryFinder.lookup id = some count →
    ∃ e ∈ q.prioQueue, e.count = count ∧ ∃ task, e.task = some task ∧ taskId task = id

/-! ## Every operation keeps the queue well formed -/

/-- The empty queue is well formed. -/
theorem empty_wellFormed : (empty : JobQueue τ).WellFormed := by
  constructor <;> simp [empty]

/-- Pushing a task whose id is not in the queue. -/
theorem pushTask_wellFormed {q : JobQueue τ} (wf : q.WellFormed) (task : τ) (priority : Int)
    (absent : q.entryFinder.lookup (taskId task) = none) :
    (q.pushTask task priority).WellFormed := by
  constructor
  · exact wf.sorted.orderedInsert _ _
  · have inserted := List.perm_orderedInsert Entry.le (⟨priority, q.counter, some task⟩ : Entry τ)
      q.prioQueue
    refine (inserted.map Entry.count).nodup_iff.mpr (List.nodup_cons.mpr ⟨?_, wf.distinct⟩)
    intro member
    obtain ⟨e, inside, same⟩ := List.mem_map.mp member
    exact Nat.ne_of_lt (wf.below e inside) same
  · intro e member
    rcases (List.mem_orderedInsert _).mp member with rfl | member
    · exact Nat.lt_succ_self _
    · exact Nat.lt_succ_of_lt (wf.below e member)
  · intro e member other live
    rcases (List.mem_orderedInsert _).mp member with rfl | member
    · obtain rfl := Option.some.inj live
      exact AList.lookup_insert _
    · have found := wf.finds e member other live
      have differ : taskId other ≠ taskId task := by
        intro same
        rw [same, absent] at found
        contradiction
      exact (AList.lookup_insert_ne differ).trans found
  · intro id count found
    by_cases same : id = taskId task
    · subst same
      obtain rfl := Option.some.inj ((AList.lookup_insert _).symm.trans found)
      exact ⟨_, (List.mem_orderedInsert _).mpr (.inl rfl), rfl, task, rfl, rfl⟩
    · have old := (AList.lookup_insert_ne same).symm.trans found
      obtain ⟨e, member, live⟩ := wf.found id count old
      exact ⟨e, (List.mem_orderedInsert _).mpr (.inr member), live⟩

omit [QueueTask τ] in
/-- Marking the entry of one sequence number as removed. -/
theorem mem_marked {l : List (Entry τ)} {count : Nat} {e : Entry τ}
    (member : e ∈ l.map fun e => if e.count = count then { e with task := none } else e) :
    ∃ old ∈ l, old.priority = e.priority ∧ old.count = e.count ∧
      e.task = if old.count = count then none else old.task := by
  obtain ⟨old, inside, rfl⟩ := List.mem_map.mp member
  refine ⟨old, inside, ?_⟩
  split <;> simp

/-- Removing a known id keeps the queue well formed. -/
theorem removeTaskById_wellFormed {q r : JobQueue τ} {id : String} (wf : q.WellFormed)
    (removed : q.removeTaskById id = some r) : r.WellFormed := by
  obtain ⟨count, known, rfl⟩ := Option.map_eq_some_iff.mp removed
  obtain ⟨named, namedMember, namedCount, namedTask, namedLive, namedId⟩ := wf.found id count known
  constructor
  · refine List.pairwise_map.mpr (wf.sorted.imp ?_)
    intro a b le
    split <;> split <;> exact le
  · have counts : (q.prioQueue.map fun e => if e.count = count then { e with task := none }
        else e).map Entry.count = q.prioQueue.map Entry.count := by
      rw [List.map_map]
      refine List.map_congr_left fun e _ => ?_
      simp only [Function.comp_apply]
      split <;> rfl
    exact counts ▸ wf.distinct
  · intro e member
    obtain ⟨old, inside, -, sameCount, -⟩ := mem_marked member
    exact sameCount ▸ wf.below old inside
  · intro e member task live
    obtain ⟨old, inside, -, sameCount, marked⟩ := mem_marked member
    rw [live] at marked
    split at marked
    · contradiction
    · rename_i kept
      have found := wf.finds old inside task marked.symm
      have differ : taskId task ≠ id := by
        intro same
        rw [same, known] at found
        exact kept (Option.some.inj found).symm
      exact (AList.lookup_erase_ne differ).trans (sameCount ▸ found)
  · intro other n found
    by_cases same : other = id
    · subst same
      rw [AList.lookup_erase] at found
      contradiction
    · have old := (AList.lookup_erase_ne same).symm.trans found
      obtain ⟨e, member, sameCount, task, live, its⟩ := wf.found other n old
      have differ : e.count ≠ count := by
        -- Two ids named by one sequence number would be the id of one entry.
        intro clash
        obtain rfl := List.inj_on_of_nodup_map wf.distinct member namedMember
          (clash.trans namedCount.symm)
        obtain rfl := Option.some.inj (live.symm.trans namedLive)
        exact same (its.symm.trans namedId)
      exact ⟨e, List.mem_map.mpr ⟨e, member, by simp [differ]⟩, sameCount, task, live, its⟩

/-- Adding a task pushes it on a queue without its id whose tasks are all old ones. -/
theorem addTask_pushes {q : JobQueue τ} (wf : q.WellFormed) (task : τ) (priority : Int) :
    ∃ r : JobQueue τ, r.WellFormed ∧ r.entryFinder.lookup (taskId task) = none ∧
      (∀ other ∈ r.live, other ∈ q.live) ∧ q.addTask task priority = r.pushTask task priority := by
  unfold addTask
  cases removed : q.removeTask task with
  | none => exact ⟨q, wf, Option.map_eq_none_iff.mp removed, fun _ h => h, rfl⟩
  | some r =>
    refine ⟨r, removeTaskById_wellFormed wf removed, ?_, ?_, rfl⟩
    · obtain ⟨count, -, rfl⟩ := Option.map_eq_some_iff.mp removed
      exact AList.lookup_erase _ _
    · obtain ⟨count, -, rfl⟩ := Option.map_eq_some_iff.mp removed
      intro other member
      obtain ⟨e, inside, live⟩ := List.mem_filterMap.mp member
      obtain ⟨old, oldInside, -, -, marked⟩ := mem_marked inside
      rw [live] at marked
      split at marked
      · contradiction
      · exact List.mem_filterMap.mpr ⟨old, oldInside, marked.symm⟩

/-- `add_task` keeps the queue well formed. -/
theorem addTask_wellFormed {q : JobQueue τ} (wf : q.WellFormed) (task : τ) (priority : Int) :
    (q.addTask task priority).WellFormed := by
  obtain ⟨r, rwf, absent, -, same⟩ := addTask_pushes wf task priority
  exact same ▸ pushTask_wellFormed rwf task priority absent

/-- `add_task` adds no other task. -/
theorem mem_live_addTask {q : JobQueue τ} (wf : q.WellFormed) {task other : τ} {priority : Int}
    (member : other ∈ (q.addTask task priority).live) : other = task ∨ other ∈ q.live := by
  obtain ⟨r, -, -, old, same⟩ := addTask_pushes wf task priority
  rw [same] at member
  obtain ⟨e, inside, live⟩ := List.mem_filterMap.mp member
  rcases (List.mem_orderedInsert _).mp inside with rfl | inside
  · exact .inl (Option.some.inj live).symm
  · exact .inr (old other (List.mem_filterMap.mpr ⟨e, inside, live⟩))

omit [QueueTask τ] in
/-- `remove_task_by_id` leaves only tasks that were there. -/
theorem mem_live_removeTaskById {q r : JobQueue τ} {id : String} {task : τ}
    (removed : q.removeTaskById id = some r) (member : task ∈ r.live) : task ∈ q.live := by
  obtain ⟨count, -, rfl⟩ := Option.map_eq_some_iff.mp removed
  obtain ⟨e, inside, live⟩ := List.mem_filterMap.mp member
  obtain ⟨old, oldInside, -, -, marked⟩ := mem_marked inside
  rw [live] at marked
  split at marked
  · contradiction
  · exact List.mem_filterMap.mpr ⟨old, oldInside, marked.symm⟩

omit [QueueTask τ] in
/-- The loop of `pop_task` drops placeholders and stops behind the first live entry. -/
theorem popLive_spec (l : List (Entry τ)) :
    (∃ dropped e rest task, l = dropped ++ e :: rest ∧ (∀ d ∈ dropped, d.task = none) ∧
      e.task = some task ∧ popLive l = (some task, rest)) ∨
    ((∀ d ∈ l, d.task = none) ∧ popLive l = (none, [])) := by
  induction l with
  | nil => exact .inr ⟨by simp, rfl⟩
  | cons e l ih =>
    cases live : e.task with
    | some task => exact .inl ⟨[], e, l, task, rfl, by simp, live, by simp [popLive, live]⟩
    | none =>
      have skip : popLive (e :: l) = popLive l := by simp [popLive, live]
      rcases ih with ⟨dropped, f, rest, task, split, gone, its, popped⟩ | ⟨gone, popped⟩
      · exact .inl ⟨e :: dropped, f, rest, task, by simp [split], by simpa [live] using gone, its,
          skip.trans popped⟩
      · exact .inr ⟨by simpa [live] using gone, skip.trans popped⟩

/-- A popped task stood in front of all other live tasks, and its id leaves the queue. -/
theorem popTask_some {q r : JobQueue τ} {task : τ} (wf : q.WellFormed)
    (popped : q.popTask = (some task, r)) :
    r.WellFormed ∧ q.live = task :: r.live ∧ ∀ other ∈ r.live, taskId other ≠ taskId task := by
  rcases popLive_spec q.prioQueue with ⟨dropped, e, rest, first, split, gone, its, pop⟩ | ⟨-, pop⟩
  · simp only [popTask, pop, Prod.mk.injEq, Option.some.injEq] at popped
    obtain ⟨rfl, rfl⟩ := popped
    have suffix : rest.Sublist q.prioQueue := by
      rw [split]
      exact (List.sublist_cons_self e rest).trans (List.sublist_append_right dropped _)
    have member : e ∈ q.prioQueue := by simp [split]
    have alone : ∀ f ∈ rest, f.count ≠ e.count := by
      have nodup := wf.distinct
      rw [split, List.map_append, List.map_cons, List.nodup_append] at nodup
      intro f inside same
      exact (List.nodup_cons.mp nodup.2.1).1 (List.mem_map.mpr ⟨f, inside, same⟩)
    have others : ∀ f ∈ rest, ∀ t, f.task = some t → taskId t ≠ taskId first := by
      intro f inside t live same
      have one := wf.finds f (suffix.subset inside) t live
      rw [same, wf.finds e member first its] at one
      exact alone f inside (Option.some.inj one).symm
    refine ⟨?_, ?_, ?_⟩
    · constructor
      · exact wf.sorted.sublist suffix
      · exact wf.distinct.sublist (suffix.map _)
      · exact fun f inside => wf.below f (suffix.subset inside)
      · intro f inside t live
        exact (AList.lookup_erase_ne (others f inside t live)).trans
          (wf.finds f (suffix.subset inside) t live)
      · intro id count found
        by_cases same : id = taskId first
        · subst same
          rw [AList.lookup_erase] at found
          contradiction
        · have old := (AList.lookup_erase_ne same).symm.trans found
          obtain ⟨f, inside, sameCount, t, live, itsId⟩ := wf.found id count old
          rw [split, List.mem_append, List.mem_cons] at inside
          rcases inside with inside | rfl | inside
          · rw [gone f inside] at live
            contradiction
          · obtain rfl := Option.some.inj (its.symm.trans live)
            exact absurd itsId.symm same
          · exact ⟨f, inside, sameCount, t, live, itsId⟩
    · have none : dropped.filterMap Entry.task = [] := List.filterMap_eq_nil_iff.mpr gone
      simp [live, split, none, its]
    · intro other inside
      obtain ⟨f, member, live⟩ := List.mem_filterMap.mp inside
      exact others f member other live
  · simp [popTask, pop] at popped

/-- `pop_task` fails only on a queue without live tasks, and leaves it well formed. -/
theorem popTask_none {q r : JobQueue τ} (wf : q.WellFormed) (popped : q.popTask = (none, r)) :
    r.WellFormed ∧ q.live = [] ∧ r.live = [] := by
  rcases popLive_spec q.prioQueue with
    ⟨dropped, e, rest, first, split, gone, its, pop⟩ | ⟨gone, pop⟩
  · simp [popTask, pop] at popped
  · simp only [popTask, pop, Prod.mk.injEq, true_and] at popped
    subst popped
    refine ⟨?_, List.filterMap_eq_nil_iff.mpr gone, rfl⟩
    constructor
    · simp
    · simp
    · simp
    · simp
    · intro id count found
      obtain ⟨e, inside, -, task, live, -⟩ := wf.found id count found
      rw [gone e inside] at live
      contradiction

end JobQueue

end Copr
