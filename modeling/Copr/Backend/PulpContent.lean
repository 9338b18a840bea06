import Mathlib.Data.Finset.SDiff
import Mathlib.Data.Finset.Lattice.Basic
import Copr.Lib.Batching
import Copr.Lib.SetUpdates

/-!
# Batched changes of a Pulp repository

`BatchedAddRemoveContent` of `copr_backend/pulp.py`: requests to add content units to a
repository or to remove them are recorded in Redis, as those of `copr-repo` are, and merged into
one call that modifies the repository.
-/

namespace Copr

open Batching

/-- `_json_redis_task` of `BatchedAddRemoveContent`. -/
structure ContentTask where
  /-- `add_content_units`. -/
  addContentUnits : List String
  /-- `remove_content_units`. -/
  removeContentUnits : List String
  /-- `dirs_to_delete`; old records have none. -/
  dirsToDelete : Option (List String) := none
  deriving DecidableEq, Repr

/-- The request of `add_content` for one page of units. -/
def addContent (page : List String) : ContentTask where
  addContentUnits := page
  removeContentUnits := []
  dirsToDelete := some []

/-- The request of `delete_content` for one page of units. -/
def deleteContent (page dirs : List String) : ContentTask where
  addContentUnits := []
  removeContentUnits := page
  dirsToDelete := some dirs

/-- `MAX_CONTENT_UNITS_IN_BATCH`. -/
def maxContentUnitsInBatch : Nat := 10000

/-- The sets that `options` builds, as lists whose order nobody reads. -/
structure ContentOptions where
  /-- `rpms_to_add`. -/
  rpmsToAdd : List String
  /-- `rpms_to_remove`. -/
  rpmsToRemove : List String
  /-- `dirs_to_delete`. -/
  dirsToDelete : List String
  deriving DecidableEq, Repr

namespace ContentOptions

/-- The sets of the own request. -/
def start (own : ContentTask) : ContentOptions where
  rpmsToAdd := own.addContentUnits
  rpmsToRemove := own.removeContentUnits
  dirsToDelete := own.dirsToDelete.getD []

/-- What `options` does with a task that it can process. -/
def merge (o : ContentOptions) (task : ContentTask) : ContentOptions where
  rpmsToAdd := o.rpmsToAdd ∪ task.addContentUnits
  rpmsToRemove := o.rpmsToRemove ∪ task.removeContentUnits
  dirsToDelete := o.dirsToDelete ∪ task.dirsToDelete.getD []

/-- The units that are both added and removed are dropped from both sets. -/
def cancel (o : ContentOptions) : ContentOptions :=
  let common := o.rpmsToAdd.filter fun unit => decide (unit ∈ o.rpmsToRemove)
  { o with
    rpmsToAdd := o.rpmsToAdd.filter fun unit => decide (unit ∉ common)
    rpmsToRemove := o.rpmsToRemove.filter fun unit => decide (unit ∉ common) }

end ContentOptions

/-- `options` looks at the task of another process; a task that is too large ends the loop. -/
def joinContent (o : ContentOptions) (task : ContentTask) : Decision ContentOptions :=
  if maxContentUnitsInBatch < task.addContentUnits.length + task.removeContentUnits.length then
    .stop
  else .take (o.merge task)

/-- How `BatchedAddRemoveContent` records and merges requests. -/
def contentScheme : Scheme ContentTask ContentTask ContentOptions ContentOptions Unit where
  record := id
  start := .start
  join _ _ o task := joinContent o task
  work _ o _ := o.cancel

/-- The requests for a repository in Redis, by PID. -/
abbrev ContentRequests := AList fun _ : Nat => Entry ContentTask

/-- `BatchedAddRemoveContent.options`, with `notify_keys`. -/
def contentOptions (own : ContentTask) (pid : Nat) (redis : ContentRequests) :
    Option (ContentOptions × List Nat) :=
  (collect contentScheme own pid (.start own) [] (redis.entries.map fun e => (e.1, some e.2))).map
    fun (o, notify) => (o.cancel, notify)

/-- What `modify_repository_content` does in Pulp: units are taken out, then units are put in. -/
def modifyRepositoryContent (content : Finset String) (add remove : List String) :
    Finset String := (content \ remove.toFinset) ∪ add.toFinset

/-- `_execute_locked` with Pulp calls that succeed: the content of the repository afterwards and
the keys that `commit` marks; `none` when another process has processed the task. -/
def executeLocked (own : ContentTask) (pid : Nat) (redis : ContentRequests)
    (content : Finset String) : Option (Finset String × List Nat) :=
  if ((redis.lookup pid).map Entry.success).getD false then none
  else
    (contentOptions own pid (redis.erase pid)).map fun (o, notify) =>
      (if o.rpmsToAdd.isEmpty && o.rpmsToRemove.isEmpty then content
        else modifyRepositoryContent content o.rpmsToAdd o.rpmsToRemove, notify)

/-- The requests under some keys. -/
def tasksUnder (redis : ContentRequests) (notify : List Nat) : List ContentTask :=
  notify.filterMap fun key => (redis.lookup key).bind Entry.task

/-- The content after a request was executed alone. -/
def applyTask (content : Finset String) (task : ContentTask) : Finset String :=
  modifyRepositoryContent content task.addContentUnits task.removeContentUnits

/-! ## What the merged call does -/

/-- Merging the tasks one after another is the union of their units. -/
theorem mem_foldl_merge_content {tasks : List ContentTask} {o : ContentOptions} {unit : String} :
    (unit ∈ (tasks.foldl ContentOptions.merge o).rpmsToAdd ↔
      unit ∈ o.rpmsToAdd ∨ ∃ task ∈ tasks, unit ∈ task.addContentUnits) ∧
    (unit ∈ (tasks.foldl ContentOptions.merge o).rpmsToRemove ↔
      unit ∈ o.rpmsToRemove ∨ ∃ task ∈ tasks, unit ∈ task.removeContentUnits) := by
  induction tasks generalizing o with
  | nil => simp
  | cons head rest ih =>
    obtain ⟨added, removed⟩ := @ih (o.merge head)
    rw [List.foldl_cons, added, removed]
    simp [ContentOptions.merge, or_assoc]

/-- One more key with a recorded task puts that task behind the others. -/
theorem tasksUnder_append {redis : ContentRequests} (keys : List Nat) {key : Nat}
    {entry : Entry ContentTask} {task : ContentTask} (looked : redis.lookup key = some entry)
    (recorded : entry.task = some task) :
    tasksUnder redis (keys ++ [key]) = tasksUnder redis keys ++ [task] := by
  simp [tasksUnder, List.filterMap_append, looked, recorded]

/-- The units that `options` returns are those of the own task and of the tasks it notifies. -/
theorem contentOptions_spec {own : ContentTask} {pid : Nat} {redis : ContentRequests}
    {o : ContentOptions} {notify : List Nat}
    (returned : contentOptions own pid redis = some (o, notify)) :
    o = ((tasksUnder redis notify).foldl ContentOptions.merge (.start own)).cancel := by
  obtain ⟨⟨plan, keys⟩, looped, same⟩ := Option.map_eq_some_iff.mp returned
  obtain ⟨rfl, rfl⟩ := Prod.mk.inj same
  have planned : plan = (tasksUnder redis keys).foldl ContentOptions.merge (.start own) := by
    let I : ContentOptions → List Nat → Prop := fun plan keys =>
      plan = (tasksUnder redis keys).foldl ContentOptions.merge (.start own)
    have start : I (.start own) [] := rfl
    refine collect_invariant I ?_ start looped
    intro plan keys key entry task next member _ recorded joined before
    obtain ⟨⟨_, found⟩, listed, pair⟩ := List.mem_map.mp member
    obtain ⟨rfl, same⟩ := Prod.mk.inj pair
    obtain rfl := Option.some.inj same
    have looked : redis.lookup _ = some found := AList.mem_lookup_iff.mpr listed
    have more := tasksUnder_append keys looked recorded
    have merged : plan.merge task = next := by
      simp only [contentScheme, joinContent] at joined
      split at joined
      · simp [Decision.plan?] at joined
      · exact Option.some.inj joined
    simp only [I] at before ⊢
    rw [more, List.foldl_append, ← before]
    exact merged.symm
  exact congrArg ContentOptions.cancel planned

/-- A task as an update of the set of units. -/
def ContentTask.update (task : ContentTask) : SetUpdates.Update String where
  add := {unit | unit ∈ task.addContentUnits}
  remove := {unit | unit ∈ task.removeContentUnits}

/-- Executing tasks alone one after another runs their updates. -/
theorem coe_foldl_applyTask (tasks : List ContentTask) (content : Finset String) :
    ((tasks.foldl applyTask content : Finset String) : Set String) =
      SetUpdates.run content (tasks.map ContentTask.update) := by
  induction tasks generalizing content with
  | nil => rfl
  | cons task rest ih =>
    have now : ((applyTask content task : Finset String) : Set String) =
        task.update.apply content := by
      ext unit
      simp [applyTask, modifyRepositoryContent, SetUpdates.Update.apply, ContentTask.update]
    have first : SetUpdates.run content ((task :: rest).map ContentTask.update) =
        SetUpdates.run (task.update.apply content) (rest.map ContentTask.update) := rfl
    rw [List.foldl_cons, ih, now, first]

/-- Units are put in by the updates of tasks that add them. -/
theorem mem_adds_map {tasks : List ContentTask} {unit : String} :
    unit ∈ SetUpdates.adds (tasks.map ContentTask.update) ↔
      ∃ task ∈ tasks, unit ∈ task.addContentUnits := by
  simp [SetUpdates.adds, ContentTask.update]

/-- Units are taken out by the updates of tasks that remove them. -/
theorem mem_removes_map {tasks : List ContentTask} {unit : String} :
    unit ∈ SetUpdates.removes (tasks.map ContentTask.update) ↔
      ∃ task ∈ tasks, unit ∈ task.removeContentUnits := by
  simp [SetUpdates.removes, ContentTask.update]

/-- Adding and removing nothing is the same as no call. -/
theorem skipped_call (content : Finset String) (o : ContentOptions) :
    (if o.rpmsToAdd.isEmpty && o.rpmsToRemove.isEmpty then content
      else modifyRepositoryContent content o.rpmsToAdd o.rpmsToRemove) =
      modifyRepositoryContent content o.rpmsToAdd o.rpmsToRemove := by
  split
  · rename_i nothing
    simp only [Bool.and_eq_true, List.isEmpty_iff] at nothing
    simp [modifyRepositoryContent, nothing]
  · rfl

/-- The call made under the lock is the merged update of the own task and those it notifies. -/
theorem mem_executeLocked {own : ContentTask} {pid : Nat} {redis : ContentRequests}
    {content after : Finset String} {notify : List Nat}
    (executed : executeLocked own pid redis content = some (after, notify)) (unit : String) :
    unit ∈ after ↔ unit ∈ (SetUpdates.merged ((own :: tasksUnder (redis.erase pid) notify).map
      ContentTask.update)).apply content := by
  simp only [executeLocked] at executed
  split at executed <;> [contradiction; skip]
  obtain ⟨⟨o, keys⟩, returned, same⟩ := Option.map_eq_some_iff.mp executed
  obtain ⟨rfl, rfl⟩ := Prod.mk.inj same
  obtain rfl := contentOptions_spec returned
  obtain ⟨added, removed⟩ := @mem_foldl_merge_content (tasksUnder (redis.erase pid) keys)
    (.start own) unit
  have adds : unit ∈ SetUpdates.adds ((own :: tasksUnder (redis.erase pid) keys).map
      ContentTask.update) ↔ unit ∈ ((tasksUnder (redis.erase pid) keys).foldl
        ContentOptions.merge (.start own)).rpmsToAdd := by
    rw [mem_adds_map, added]
    simp [ContentOptions.start]
  have removes : unit ∈ SetUpdates.removes ((own :: tasksUnder (redis.erase pid) keys).map
      ContentTask.update) ↔ unit ∈ ((tasksUnder (redis.erase pid) keys).foldl
        ContentOptions.merge (.start own)).rpmsToRemove := by
    rw [mem_removes_map, removed]
    simp [ContentOptions.start]
  rw [skipped_call]
  simp only [modifyRepositoryContent, ContentOptions.cancel, Finset.mem_union, Finset.mem_sdiff,
    List.mem_toFinset, List.mem_filter, decide_eq_true_eq, SetUpdates.Update.apply,
    SetUpdates.merged, SetUpdates.conflicts, Set.mem_union, Set.mem_sdiff, Set.mem_inter_iff,
    adds, removes, Finset.mem_coe]

/-- The tasks that take nothing out. -/
def additive (tasks : List ContentTask) : List ContentTask :=
  tasks.filter fun task => task.removeContentUnits.isEmpty

/-- The tasks that take something out. -/
def subtractive (tasks : List ContentTask) : List ContentTask :=
  tasks.filter fun task => !task.removeContentUnits.isEmpty

/-- Every task is one or the other. -/
theorem additive_append_subtractive (tasks : List ContentTask) :
    (additive tasks ++ subtractive tasks).Perm tasks := List.filter_append_perm _ tasks

/-- Some tasks add a unit and some remove it. -/
def contested (tasks : List ContentTask) (unit : String) : Prop :=
  (∃ task ∈ tasks, unit ∈ task.addContentUnits) ∧ ∃ task ∈ tasks, unit ∈ task.removeContentUnits

/-- Contested units are the conflicts of the updates, in whatever order. -/
theorem mem_conflicts_map {tasks order : List ContentTask} (same : order.Perm tasks)
    {unit : String} :
    unit ∈ SetUpdates.conflicts (order.map ContentTask.update) ↔ contested tasks unit := by
  simp only [SetUpdates.conflicts, Set.mem_inter_iff, mem_adds_map, mem_removes_map, contested,
    same.mem_iff]

section Orders

variable {tasks : List ContentTask}
  (pages : ∀ task ∈ tasks, task.addContentUnits = [] ∨ task.removeContentUnits = [])
  {content : Finset String} {unit : String}

/-- The updates of additive tasks take nothing out. -/
theorem additive_remove : ∀ u ∈ (additive tasks).map ContentTask.update, u.remove = ∅ := by
  intro u member
  obtain ⟨task, inside, rfl⟩ := List.mem_map.mp member
  have nothing := (List.mem_filter.mp inside).2
  simp only [List.isEmpty_iff] at nothing
  simp [ContentTask.update, nothing]

include pages in
/-- The updates of subtractive tasks put nothing in. -/
theorem subtractive_add : ∀ u ∈ (subtractive tasks).map ContentTask.update, u.add = ∅ := by
  intro u member
  obtain ⟨task, inside, rfl⟩ := List.mem_map.mp member
  obtain ⟨listed, something⟩ := List.mem_filter.mp inside
  rcases pages task listed with adds | removes
  · simp [ContentTask.update, adds]
  · simp [removes] at something

include pages in
/-- With the removals last, the merged update is right about a unit unless it is contested and
was there before. -/
theorem removals_last (absent : contested tasks unit → unit ∉ content) :
    unit ∈ (additive tasks ++ subtractive tasks).foldl applyTask content ↔
      unit ∈ (SetUpdates.merged (tasks.map ContentTask.update)).apply content := by
  have same := additive_append_subtractive tasks
  have free : unit ∈ SetUpdates.conflicts ((additive tasks).map ContentTask.update ++
      (subtractive tasks).map ContentTask.update) → unit ∉ (content : Set String) := by
    rw [← List.map_append, mem_conflicts_map same]
    exact absent
  rw [← SetUpdates.merged_perm (same.map ContentTask.update), List.map_append,
    ← SetUpdates.mem_run_removers_last additive_remove (subtractive_add pages) free,
    ← List.map_append, ← coe_foldl_applyTask, Finset.mem_coe]

include pages in
/-- With the removals first, the merged update is right about a unit unless it is contested and
was not there before. -/
theorem removals_first (present : contested tasks unit → unit ∈ content) :
    unit ∈ (subtractive tasks ++ additive tasks).foldl applyTask content ↔
      unit ∈ (SetUpdates.merged (tasks.map ContentTask.update)).apply content := by
  have same := additive_append_subtractive tasks
  have there : unit ∈ SetUpdates.conflicts ((additive tasks).map ContentTask.update ++
      (subtractive tasks).map ContentTask.update) → unit ∈ (content : Set String) := by
    rw [← List.map_append, mem_conflicts_map same]
    exact present
  rw [← SetUpdates.merged_perm (same.map ContentTask.update), List.map_append,
    ← SetUpdates.mem_run_removers_first additive_remove (subtractive_add pages) there,
    ← List.map_append, ← coe_foldl_applyTask, Finset.mem_coe]

end Orders

/-- When every merged request only adds or only removes, as those of `add_content` and
`delete_content` do, what becomes of a unit under the one merged call is explained by some order
of the requests. One order explains all units when the contested ones were all there before, or
none of them was. -/
theorem merged_changes_in_some_order (own : ContentTask) (pid : Nat) (redis : ContentRequests)
    (content after : Finset String) (notify : List Nat)
    (executed : executeLocked own pid redis content = some (after, notify))
    (pages : ∀ task ∈ own :: tasksUnder (redis.erase pid) notify,
      task.addContentUnits = [] ∨ task.removeContentUnits = []) :
    (∀ unit, ∃ order : List ContentTask, order.Perm (own :: tasksUnder (redis.erase pid) notify) ∧
      (unit ∈ after ↔ unit ∈ order.foldl applyTask content)) ∧
    ((∀ unit, contested (own :: tasksUnder (redis.erase pid) notify) unit → unit ∈ content) ∨
      (∀ unit, contested (own :: tasksUnder (redis.erase pid) notify) unit → unit ∉ content) →
      ∃ order : List ContentTask, order.Perm (own :: tasksUnder (redis.erase pid) notify) ∧
        after = order.foldl applyTask content) := by
  have last := additive_append_subtractive (own :: tasksUnder (redis.erase pid) notify)
  have first := List.perm_append_comm.trans last
  have merged := mem_executeLocked executed
  constructor
  · intro unit
    by_cases there : unit ∈ content
    · exact ⟨_, first, (merged unit).trans (removals_first pages fun _ => there).symm⟩
    · exact ⟨_, last, (merged unit).trans (removals_last pages fun _ => there).symm⟩
  · rintro (all | none_)
    · exact ⟨_, first, Finset.ext fun unit =>
        (merged unit).trans (removals_first pages (all unit)).symm⟩
    · exact ⟨_, last, Finset.ext fun unit =>
        (merged unit).trans (removals_last pages (none_ unit)).symm⟩

namespace Sample

/-- One other process waits with a request to remove two units. -/
def removal : ContentRequests := AList.singleton 7 { task := some (deleteContent ["x", "y"] []) }

end Sample

/-- Two units are added and removed; neither was there. -/
theorem merged_changes_in_some_order_pair : ∃ order : List ContentTask,
    order.Perm [addContent ["x", "y"], deleteContent ["x", "y"] []] ∧
      ∅ = order.foldl applyTask ∅ :=
  (merged_changes_in_some_order (addContent ["x", "y"]) 8 Sample.removal ∅ ∅ [7] rfl (by
    intro task member
    rcases List.mem_cons.mp member with rfl | other
    · exact Or.inr rfl
    · obtain rfl := List.mem_singleton.mp other
      exact Or.inl rfl)).2 (Or.inr fun _ _ => by simp)

/-- Two tasks have two orders. -/
theorem orders_of_pair {order : List ContentTask} {a b : ContentTask} (same : order.Perm [a, b]) :
    order = [a, b] ∨ order = [b, a] := by
  obtain ⟨c, d, rfl⟩ := List.length_eq_two.mp same.length_eq
  rcases List.mem_cons.mp (same.mem_iff.mp (List.mem_cons_self ..)) with rfl | other
  · exact Or.inl (by rw [List.perm_singleton.mp (List.perm_cons c |>.mp same)])
  · obtain rfl := List.mem_singleton.mp other
    have rest := (List.perm_cons c).mp (same.trans (List.Perm.swap c a []))
    exact Or.inr (by rw [List.perm_singleton.mp rest])

/-- Two units are added and removed at the same time and only one of them was there before: it
stays, and the other stays away, as in no order of the two requests. -/
theorem merged_changes_without_order : ¬ ∀ (own : ContentTask) (pid : Nat)
    (redis : ContentRequests) (content after : Finset String) (notify : List Nat),
    executeLocked own pid redis content = some (after, notify) →
      ∃ order : List ContentTask, order.Perm (own :: tasksUnder (redis.erase pid) notify) ∧
        after = order.foldl applyTask content := by
  intro claimed
  obtain ⟨order, same, explained⟩ := claimed (addContent ["x", "y"]) 8 Sample.removal {"x"} {"x"}
    [7] rfl
  have orders : order = [addContent ["x", "y"], deleteContent ["x", "y"] []] ∨
      order = [deleteContent ["x", "y"] [], addContent ["x", "y"]] := orders_of_pair same
  rcases orders with rfl | rfl
  · revert explained
    decide
  · revert explained
    decide

end Copr
