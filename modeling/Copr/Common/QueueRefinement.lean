import Copr.Common.JobQueue
import Copr.Lib.PriorityMap

/-!
# The queue as a map with priorities

What `JobQueue` is for: a map from task ids to tasks with priorities, where an id that is added
again gets a new place. Neither the heap nor the placeholders of removed tasks can be seen from
the answers.
-/

namespace Copr

namespace JobQueue

variable {τ : Type} [QueueTask τ]

/-- The entry of an id. -/
def slot (q : JobQueue τ) (id : String) : Option (PrioritySlot Int τ) := do
  let count ← q.entryFinder.lookup id
  let entry ← q.prioQueue.find? fun e => e.count = count
  let task ← entry.task
  return ⟨entry.priority, entry.count, task⟩

/-- The map that a queue stands for. -/
def toMap (q : JobQueue τ) : PriorityMap String Int τ := ⟨q.slot, q.counter⟩

/-- One call of a method, with what it returns or raises. -/
def serve (q : JobQueue τ) :
    PriorityMap.Request String Int τ → PriorityMap.Answer τ × JobQueue τ
  | .add task priority => (.done, q.addTask task priority)
  | .remove task =>
    match q.removeTask task with
    | some r => (.done, r)
    | none => (.keyError, q)
  | .removeKey id =>
    match q.removeTaskById id with
    | some r => (.done, r)
    | none => (.keyError, q)
  | .pop =>
    match q.popTask with
    | (some task, r) => (.popped task, r)
    | (none, r) => (.keyError, r)

/-- Calls one after the other, with what they return or raise. -/
def serveAll (q : JobQueue τ) :
    List (PriorityMap.Request String Int τ) →
      List (PriorityMap.Request String Int τ × PriorityMap.Answer τ) × JobQueue τ
  | [] => ([], q)
  | request :: rest =>
    let (answer, r) := q.serve request
    let (history, last) := r.serveAll rest
    ((request, answer) :: history, last)

/-! ## The entries of a well-formed queue -/

/-- The entry of an id is the live entry of the heap with that id. -/
theorem slot_iff {q : JobQueue τ} (wf : q.WellFormed) {id : String} {s : PrioritySlot Int τ} :
    q.slot id = some s ↔
      ⟨s.priority, s.number, some s.value⟩ ∈ q.prioQueue ∧ taskId s.value = id := by
  constructor
  · intro held
    obtain ⟨count, named, held⟩ := Option.bind_eq_some_iff.mp held
    obtain ⟨e, found, held⟩ := Option.bind_eq_some_iff.mp held
    obtain ⟨task, live, held⟩ := Option.bind_eq_some_iff.mp held
    obtain rfl := Option.some.inj held
    have member := List.mem_of_find?_eq_some found
    have numbered : e.count = count := by simpa using List.find?_some found
    obtain ⟨f, inside, same, other, its, identified⟩ := wf.found id count named
    obtain rfl := List.inj_on_of_nodup_map wf.distinct member inside (numbered.trans same.symm)
    obtain rfl := Option.some.inj (live.symm.trans its)
    exact ⟨live ▸ member, identified⟩
  · rintro ⟨member, rfl⟩
    have named := wf.finds _ member s.value rfl
    have found : q.prioQueue.find? (fun e => e.count = s.number) =
        some ⟨s.priority, s.number, some s.value⟩ := by
      cases search : q.prioQueue.find? (fun e => e.count = s.number) with
      | none =>
        have missed := List.find?_eq_none.mp search _ member
        simp at missed
      | some e =>
        have inside := List.mem_of_find?_eq_some search
        have numbered : e.count = s.number := by simpa using List.find?_some search
        exact congrArg some (List.inj_on_of_nodup_map wf.distinct inside member numbered)
    simp [slot, named, found]

/-- A known id has an entry. -/
theorem slot_eq_none {q : JobQueue τ} (wf : q.WellFormed) {id : String} :
    q.slot id = none ↔ q.entryFinder.lookup id = none := by
  constructor
  · intro absent
    cases named : q.entryFinder.lookup id with
    | none => rfl
    | some count =>
      obtain ⟨e, inside, -, task, live, identified⟩ := wf.found id count named
      have held := (slot_iff wf (s := ⟨e.priority, e.count, task⟩)).mpr
        ⟨live ▸ inside, identified⟩
      simp [absent] at held
  · intro absent
    simp [slot, absent]

/-- Two queues with the same live entries and the same counter stand for the same map. -/
theorem toMap_eq {q : JobQueue τ} (wf : q.WellFormed) {m : PriorityMap String Int τ}
    (slots : ∀ id s, m.slot id = some s ↔
      ⟨s.priority, s.number, some s.value⟩ ∈ q.prioQueue ∧ taskId s.value = id)
    (counter : m.next = q.counter) : q.toMap = m := by
  have same : q.slot = m.slot := by
    funext id
    apply Option.ext
    intro s
    exact (slot_iff wf).trans (slots id s).symm
  cases m
  exact congrArg₂ PriorityMap.mk same counter.symm

/-! ## Every method is an operation of the map -/

/-- Pushing a task whose id is not queued inserts it into the map. -/
theorem toMap_pushTask {q : JobQueue τ} (wf : q.WellFormed) (task : τ) (priority : Int)
    (absent : q.entryFinder.lookup (taskId task) = none) :
    (q.pushTask task priority).toMap = q.toMap.insert (taskId task) priority task := by
  refine toMap_eq (pushTask_wellFormed wf task priority absent) (fun id s => ?_) rfl
  rw [PriorityMap.slot_insert]
  have pushed : ⟨s.priority, s.number, some s.value⟩ ∈ (q.pushTask task priority).prioQueue ↔
      s = ⟨priority, q.counter, task⟩ ∨
        ⟨s.priority, s.number, some s.value⟩ ∈ q.prioQueue := by
    obtain ⟨p, n, t⟩ := s
    simp [pushTask, List.mem_orderedInsert]
  have old : q.slot id = some s ↔ _ := slot_iff wf
  rw [pushed]
  constructor
  · rintro (⟨rfl, rfl⟩ | ⟨other, held⟩)
    · exact ⟨Or.inl rfl, rfl⟩
    · obtain ⟨member, identified⟩ := old.mp held
      exact ⟨Or.inr member, identified⟩
  · rintro ⟨rfl | member, identified⟩
    · exact Or.inl ⟨identified.symm, rfl⟩
    · refine Or.inr ⟨?_, old.mpr ⟨member, identified⟩⟩
      rintro rfl
      have held := old.mpr ⟨member, identified⟩
      rw [(slot_eq_none wf).mpr absent] at held
      contradiction

/-- Removing a known id erases it from the map. -/
theorem toMap_removeTaskById {q r : JobQueue τ} {id : String} (wf : q.WellFormed)
    (removed : q.removeTaskById id = some r) :
    q.slot id ≠ none ∧ r.toMap = q.toMap.erase id := by
  have kept := removeTaskById_wellFormed wf removed
  obtain ⟨count, known, rfl⟩ := Option.map_eq_some_iff.mp removed
  constructor
  · rw [Ne, slot_eq_none wf, known]
    simp
  refine toMap_eq kept (fun other s => ?_) rfl
  rw [PriorityMap.slot_erase]
  have old : q.slot other = some s ↔ _ := slot_iff wf
  change other ≠ id ∧ q.slot other = some s ↔ _
  rw [old]
  constructor
  · rintro ⟨differ, member, identified⟩
    refine ⟨List.mem_map.mpr ⟨_, member, if_neg ?_⟩, identified⟩
    -- The entry that the finder names for `id` is one of `id`.
    rintro (rfl : s.number = count)
    obtain ⟨e, inside, same, task, live, its⟩ := wf.found id s.number known
    obtain rfl := List.inj_on_of_nodup_map wf.distinct inside member same
    obtain rfl := Option.some.inj live
    exact differ (identified.symm.trans its)
  · rintro ⟨member, identified⟩
    obtain ⟨e, inside, samePriority, sameCount, marked⟩ := mem_marked member
    split at marked
    · contradiction
    · rename_i spared
      have same : e = ⟨s.priority, s.number, some s.value⟩ := by
        cases e
        simp_all
      subst same
      refine ⟨?_, inside, identified⟩
      rintro rfl
      have named := wf.finds _ inside s.value rfl
      rw [identified, known] at named
      exact spared (Option.some.inj named).symm

/-- An unknown id is not removed. -/
theorem removeTaskById_eq_none {q : JobQueue τ} {id : String} (wf : q.WellFormed) :
    q.removeTaskById id = none ↔ q.slot id = none := by
  rw [slot_eq_none wf]
  exact Option.map_eq_none_iff

/-- `add_task` inserts the task into the map, in place of one with the same id. -/
theorem toMap_addTask {q : JobQueue τ} (wf : q.WellFormed) (task : τ) (priority : Int) :
    (q.addTask task priority).toMap = q.toMap.insert (taskId task) priority task := by
  unfold addTask
  cases removed : q.removeTask task with
  | none =>
    have absent := (slot_eq_none wf).mp ((removeTaskById_eq_none wf).mp removed)
    exact toMap_pushTask wf task priority absent
  | some r =>
    have kept := removeTaskById_wellFormed wf removed
    obtain ⟨-, erased⟩ := toMap_removeTaskById wf removed
    have gone : r.slot (taskId task) = none := by
      have there := congrFun (congrArg PriorityMap.slot erased) (taskId task)
      simpa [PriorityMap.erase, toMap] using there
    rw [Option.getD_some, toMap_pushTask kept task priority ((slot_eq_none kept).mp gone), erased]
    simp [PriorityMap.insert, PriorityMap.erase]

/-- The entry of a popped task is the least one, and it is erased. -/
theorem toMap_popTask_some {q r : JobQueue τ} {task : τ} (wf : q.WellFormed)
    (popped : q.popTask = (some task, r)) :
    ∃ s, q.toMap.Least (taskId task) s ∧ s.value = task ∧
      r.toMap = q.toMap.erase (taskId task) := by
  obtain ⟨kept, -, others⟩ := popTask_some wf popped
  rcases popLive_spec q.prioQueue with ⟨dropped, e, rest, first, split, gone, its, pop⟩ | ⟨-, pop⟩
  · simp only [popTask, pop, Prod.mk.injEq, Option.some.injEq] at popped
    obtain ⟨rfl, rfl⟩ := popped
    have member : ⟨e.priority, e.count, some first⟩ ∈ q.prioQueue := by
      rw [← its, split]
      simp
    have inside : ∀ s : PrioritySlot Int τ,
        ⟨s.priority, s.number, some s.value⟩ ∈ q.prioQueue →
        taskId s.value ≠ taskId first → ⟨s.priority, s.number, some s.value⟩ ∈ rest := by
      intro s listed differ
      rw [split, List.mem_append, List.mem_cons] at listed
      rcases listed with listed | same | listed
      · exact absurd (gone _ listed) (by simp)
      · rw [← same] at its
        exact absurd (congrArg taskId (Option.some.inj its)) differ
      · exact listed
    refine ⟨⟨e.priority, e.count, first⟩, ⟨(slot_iff wf).mpr ⟨member, rfl⟩, ?_⟩, rfl, ?_⟩
    · intro id s held differ
      obtain ⟨listed, identified⟩ := (slot_iff wf).mp held
      have behind := inside s listed (by rw [identified]; exact differ)
      have ordered := wf.sorted
      have numbers := wf.distinct
      rw [split] at ordered numbers
      have least := (List.pairwise_cons.mp (List.pairwise_append.mp ordered).2.1).1 _ behind
      rw [List.map_append, List.map_cons, List.nodup_append] at numbers
      have fresh : e.count ≠ s.number := fun same =>
        (List.nodup_cons.mp numbers.2.1).1 (List.mem_map.mpr ⟨_, behind, same.symm⟩)
      rcases least with less | ⟨equal, older⟩
      · exact Or.inl less
      · exact Or.inr ⟨equal, lt_of_le_of_ne older fresh⟩
    · refine toMap_eq kept (fun id s => ?_) rfl
      rw [PriorityMap.slot_erase]
      change id ≠ taskId first ∧ q.slot id = some s ↔ _
      rw [slot_iff wf]
      constructor
      · rintro ⟨differ, listed, rfl⟩
        exact ⟨inside s listed differ, rfl⟩
      · rintro ⟨listed, rfl⟩
        have live : s.value ∈ live (⟨rest, q.entryFinder.erase (taskId first), q.counter⟩) :=
          List.mem_filterMap.mpr ⟨_, listed, rfl⟩
        refine ⟨others _ live, ?_, rfl⟩
        rw [split]
        exact List.mem_append_right _ (List.mem_cons_of_mem _ listed)
  · simp [popTask, pop] at popped

/-- A failing pop finds no entry and changes nothing in the map. -/
theorem toMap_popTask_none {q r : JobQueue τ} (wf : q.WellFormed)
    (popped : q.popTask = (none, r)) : (∀ id, q.slot id = none) ∧ r.toMap = q.toMap := by
  obtain ⟨kept, dead, gone⟩ := popTask_none wf popped
  have nothing : ∀ p : JobQueue τ, p.WellFormed → p.live = [] → ∀ id, p.slot id = none := by
    intro p pwf none id
    rw [Option.eq_none_iff_forall_not_mem]
    intro s held
    obtain ⟨member, -⟩ := (slot_iff pwf).mp held
    have live : s.value ∈ p.live := List.mem_filterMap.mpr ⟨_, member, rfl⟩
    simp [none] at live
  have counter : r.counter = q.counter := by
    unfold popTask at popped
    split at popped
    · exact (congrArg JobQueue.counter (congrArg Prod.snd popped)).symm
    · simp at popped
  refine ⟨nothing q wf dead, ?_⟩
  have same : r.slot = q.slot := by
    funext id
    rw [nothing q wf dead, nothing r kept gone]
  exact congrArg₂ PriorityMap.mk same counter

/-! ## Runs -/

/-- A method keeps the queue well formed and does what the map does. -/
theorem serve_spec {q : JobQueue τ} (wf : q.WellFormed)
    (request : PriorityMap.Request String Int τ) :
    (q.serve request).2.WellFormed ∧
      PriorityMap.Serves taskId q.toMap request (q.serve request).1 (q.serve request).2.toMap := by
  cases request with
  | add task priority =>
    refine ⟨addTask_wellFormed wf task priority, ?_⟩
    change PriorityMap.Serves taskId q.toMap _ _ (q.addTask task priority).toMap
    rw [toMap_addTask wf]
    exact .add _ task priority
  | remove task =>
    cases removed : q.removeTask task with
    | none =>
      simp only [serve, removed]
      exact ⟨wf, .removeMissing ((removeTaskById_eq_none wf).mp removed)⟩
    | some r =>
      simp only [serve, removed]
      obtain ⟨present, erased⟩ := toMap_removeTaskById wf removed
      rw [erased]
      exact ⟨removeTaskById_wellFormed wf removed, .remove present⟩
  | removeKey id =>
    cases removed : q.removeTaskById id with
    | none =>
      simp only [serve, removed]
      exact ⟨wf, .removeMissingKey ((removeTaskById_eq_none wf).mp removed)⟩
    | some r =>
      simp only [serve, removed]
      obtain ⟨present, erased⟩ := toMap_removeTaskById wf removed
      rw [erased]
      exact ⟨removeTaskById_wellFormed wf removed, .removeKey present⟩
  | pop =>
    rcases popped : q.popTask with ⟨_ | task, r⟩
    · simp only [serve, popped]
      obtain ⟨nothing, same⟩ := toMap_popTask_none wf popped
      rw [same]
      exact ⟨(popTask_none wf popped).1, .popEmpty nothing⟩
    · simp only [serve, popped]
      obtain ⟨s, least, rfl, erased⟩ := toMap_popTask_some wf popped
      rw [erased]
      exact ⟨(popTask_some wf popped).1, .pop least⟩

/-- All calls of a run do what the map does. -/
theorem serveAll_spec {q : JobQueue τ} (wf : q.WellFormed)
    (requests : List (PriorityMap.Request String Int τ)) :
    (q.serveAll requests).2.WellFormed ∧
      (q.serveAll requests).1.map Prod.fst = requests ∧
      PriorityMap.Answers taskId q.toMap (q.serveAll requests).1 (q.serveAll requests).2.toMap := by
  induction requests generalizing q with
  | nil => exact ⟨wf, rfl, rfl⟩
  | cons request rest ih =>
    obtain ⟨kept, served⟩ := serve_spec wf request
    obtain ⟨last, listed, answered⟩ := ih kept
    exact ⟨last, congrArg (List.cons request) listed, _, served, answered⟩

/-- The empty queue stands for the empty map. -/
theorem toMap_empty : (empty : JobQueue τ).toMap = .empty := by
  refine toMap_eq empty_wellFormed ?_ rfl
  simp [PriorityMap.empty, empty]

/-- `JobQueue` is a map with priorities: a history of calls is the one of the queue exactly if
the map answers so, and then the queue stands for the map. A task that is popped was added
before, and since then its id was neither added again nor removed nor popped; a task that was
added stays in the queue until one of these happens to its id. -/
theorem queue_is_priority_map (requests : List (PriorityMap.Request String Int τ)) :
    (∀ history m, history.map Prod.fst = requests →
      (PriorityMap.Answers taskId .empty history m ↔
        history = ((empty : JobQueue τ).serveAll requests).1 ∧
          m = ((empty : JobQueue τ).serveAll requests).2.toMap)) ∧
    (∀ past task future,
      ((empty : JobQueue τ).serveAll requests).1 = past ++ (.pop, .popped task) :: future →
      ∃ before priority answer after, past = before ++ (.add task priority, answer) :: after ∧
        ∀ event ∈ after, ¬ PriorityMap.Concerns taskId (taskId task) event) ∧
    ∀ task priority,
      (∃ n, ((empty : JobQueue τ).serveAll requests).2.slot (taskId task) =
        some ⟨priority, n, task⟩) ↔
      ∃ before answer after, ((empty : JobQueue τ).serveAll requests).1 =
          before ++ (.add task priority, answer) :: after ∧
        ∀ event ∈ after, ¬ PriorityMap.Concerns taskId (taskId task) event := by
  obtain ⟨wf, listed, answered⟩ := serveAll_spec (empty_wellFormed (τ := τ)) requests
  rw [toMap_empty] at answered
  refine ⟨fun history m asked => ⟨fun other => ?_, ?_⟩, fun past task future split => ?_,
    fun task priority => ?_⟩
  · exact other.unique answered (asked.trans listed.symm)
  · rintro ⟨rfl, rfl⟩
    exact answered
  · rw [split] at answered
    exact answered.popped
  · refine (answered.slot_iff (PriorityMap.empty_keyed taskId)).trans ?_
    simp [PriorityMap.empty]

end JobQueue

end Copr
