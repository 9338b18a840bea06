import Mathlib.Data.Finset.Card
import Mathlib.Data.Finset.SymmDiff
import Copr.Backend.PulpContent

/-!
# How large a batch gets

`BatchedAddRemoveContent.options` compares `MAX_CONTENT_UNITS_IN_BATCH` with the units of each
request that it finds, and not with the units that it has collected. Here is how many units it
returns, for any requests and for any entries that vanish while they are read.
-/

namespace Copr

open Batching

/-- What `options` reads: the listed keys, each with what `hgetall` returns for it. -/
abbrev ContentReads := List (Nat × Option (Entry ContentTask))

/-- `BatchedAddRemoveContent.options` for what it reads, with `notify_keys`. -/
def readOptions (own : ContentTask) (pid : Nat) (reads : ContentReads) :
    Option (ContentOptions × List Nat) :=
  (collect contentScheme own pid (.start own) [] reads).map fun (o, keys) => (o.cancel, keys)

/-- The table that does not change meanwhile is read like this. -/
theorem contentOptions_eq_readOptions (own : ContentTask) (pid : Nat) (redis : ContentRequests) :
    contentOptions own pid redis =
      readOptions own pid (redis.entries.map fun e => (e.1, some e.2)) := rfl

/-- The units of a request, counted as the limit is compared with them. -/
def ContentTask.size (task : ContentTask) : Nat :=
  task.addContentUnits.length + task.removeContentUnits.length

/-- The units that `options` returns. The lists are made of sets. -/
def ContentOptions.size (o : ContentOptions) : Nat :=
  o.rpmsToAdd.toFinset.card + o.rpmsToRemove.toFinset.card

/-- The requests that wait, up to the first one that is too large alone. -/
def processable : ContentReads → List (Nat × ContentTask)
  | [] => []
  | (_, none) :: rest => processable rest
  | (key, some entry) :: rest =>
    match entry.task with
    | none => processable rest
    | some task =>
      if entry.success then processable rest
      else if maxContentUnitsInBatch < task.size then []
      else (key, task) :: processable rest

/-- The requests that are executed together. -/
def mergedTasks (own : ContentTask) (reads : ContentReads) : List ContentTask :=
  own :: (processable reads).map Prod.snd

/-- The units that some of the requests add. -/
def unitsAdded (tasks : List ContentTask) : Finset String :=
  (tasks.flatMap ContentTask.addContentUnits).toFinset

/-- The units that some of the requests remove. -/
def unitsRemoved (tasks : List ContentTask) : Finset String :=
  (tasks.flatMap ContentTask.removeContentUnits).toFinset

/-- The units of the request are in the lists, except for those that another of the requests
takes back. -/
def ContentTask.Included (task : ContentTask) (tasks : List ContentTask) (o : ContentOptions) :
    Prop :=
  (∀ unit ∈ task.addContentUnits, unit ∈ o.rpmsToAdd ∨ unit ∈ unitsRemoved tasks) ∧
    ∀ unit ∈ task.removeContentUnits, unit ∈ o.rpmsToRemove ∨ unit ∈ unitsAdded tasks

/-- What `options` should guarantee: the lists are within the limit, and a request is notified
only if it waits and its units are included. -/
structure WithinLimit (own : ContentTask) (reads : ContentReads) (o : ContentOptions)
    (keys : List Nat) : Prop where
  /-- The limit. -/
  size : o.size ≤ maxContentUnitsInBatch
  /-- The other requests are left unnotified. -/
  notified : ∀ key ∈ keys, ∃ entry task, (key, some entry) ∈ reads ∧ entry.success = false ∧
    entry.task = some task ∧ task.Included (mergedTasks own reads) o

section

variable {own task : ContentTask} {pid key : Nat} {reads : ContentReads} {plan o : ContentOptions}
  {notify keys : List Nat} {tasks : List ContentTask} {unit : String}

/-- The loop merges exactly the requests that can be processed, and plans to notify them. -/
theorem collect_processable
    (looped : collect contentScheme own pid plan notify reads = some (o, keys)) :
    o = ((processable reads).map Prod.snd).foldl ContentOptions.merge plan ∧
      keys = notify ++ (processable reads).map Prod.fst := by
  induction reads generalizing plan notify with
  | nil =>
    have same := Option.some.inj looped
    cases same
    exact ⟨rfl, (List.append_nil _).symm⟩
  | cons head rest ih =>
    obtain ⟨key, found⟩ := head
    simp only [collect] at looped
    split at looped
    · contradiction
    · cases found with
      | none => exact ih looped
      | some entry =>
        simp only [processable]
        cases recorded : entry.task with
        | none =>
          cases marked : entry.success with
          | false => simp [visit, recorded, marked] at looped
          | true =>
            have later : collect contentScheme own pid plan notify rest = some (o, keys) := by
              simpa [visit, marked] using looped
            exact ih later
        | some task =>
          dsimp only
          split
          · rename_i marked
            have later : collect contentScheme own pid plan notify rest = some (o, keys) := by
              simpa [visit, marked] using looped
            exact ih later
          · rename_i waits
            have waits : entry.success = false := by simpa using waits
            have known : task.size = task.addContentUnits.length +
                task.removeContentUnits.length := rfl
            split
            · rename_i large
              have stopped : (plan, notify) = (o, keys) := by
                simpa [visit, waits, recorded, contentScheme, joinContent, ← known, large]
                  using looped
              cases stopped
              exact ⟨rfl, (List.append_nil _).symm⟩
            · rename_i small
              have later : collect contentScheme own pid (plan.merge task) (notify ++ [key]) rest =
                  some (o, keys) := by
                simpa [visit, waits, recorded, contentScheme, joinContent, ← known, small]
                  using looped
              obtain ⟨merged, notified⟩ := ih later
              constructor
              · exact merged
              · rw [notified, List.append_assoc]
                rfl

/-- What the requests that can be processed have in common. -/
theorem mem_processable (member : (key, task) ∈ processable reads) :
    ∃ entry, (key, some entry) ∈ reads ∧ entry.success = false ∧ entry.task = some task := by
  induction reads with
  | nil => exact absurd member List.not_mem_nil
  | cons head rest ih =>
    have later (member : (key, task) ∈ processable rest) : ∃ entry,
        (key, some entry) ∈ head :: rest ∧ entry.success = false ∧ entry.task = some task := by
      have ⟨entry, inside, facts⟩ := ih member
      exact ⟨entry, List.mem_cons_of_mem _ inside, facts⟩
    have ⟨name, found⟩ := head
    cases found with
    | none => exact later member
    | some entry =>
      simp only [processable] at member
      split at member
      · exact later member
      · rename_i other recorded
        split at member
        · exact later member
        · rename_i waits
          split at member
          · exact absurd member List.not_mem_nil
          · cases List.mem_cons.mp member with
            | inl same =>
              cases same
              exact ⟨entry, List.mem_cons_self, by simpa using waits, recorded⟩
            | inr member => exact later member

/-- The units that a request of the list adds. -/
theorem mem_unitsAdded : unit ∈ unitsAdded tasks ↔ ∃ task ∈ tasks, unit ∈ task.addContentUnits := by
  simp [unitsAdded]

/-- The units that a request of the list removes. -/
theorem mem_unitsRemoved :
    unit ∈ unitsRemoved tasks ↔ ∃ task ∈ tasks, unit ∈ task.removeContentUnits := by
  simp [unitsRemoved]

/-- The lists are the units that are added only and those that are removed only. -/
theorem readOptions_units (returned : readOptions own pid reads = some (o, keys)) :
    (∀ unit, unit ∈ o.rpmsToAdd ↔
        unit ∈ unitsAdded (mergedTasks own reads) ∧
          unit ∉ unitsRemoved (mergedTasks own reads)) ∧
      (∀ unit, unit ∈ o.rpmsToRemove ↔
        unit ∈ unitsRemoved (mergedTasks own reads) ∧
          unit ∉ unitsAdded (mergedTasks own reads)) ∧
      keys = (processable reads).map Prod.fst := by
  have ⟨⟨merged, notified⟩, looped, same⟩ := Option.map_eq_some_iff.mp returned
  have ⟨plan, names⟩ := collect_processable looped
  cases same
  have units (unit : String) := @mem_foldl_merge_content ((processable reads).map Prod.snd)
    (.start own) unit
  have added (unit : String) : unit ∈ merged.rpmsToAdd ↔
      unit ∈ unitsAdded (mergedTasks own reads) := by
    rw [plan, (units unit).1, mem_unitsAdded, mergedTasks, List.exists_mem_cons_iff]
    rfl
  have removed (unit : String) : unit ∈ merged.rpmsToRemove ↔
      unit ∈ unitsRemoved (mergedTasks own reads) := by
    rw [plan, (units unit).2, mem_unitsRemoved, mergedTasks, List.exists_mem_cons_iff]
    rfl
  have left (unit : String) : unit ∈ merged.cancel.rpmsToAdd ↔
      unit ∈ merged.rpmsToAdd ∧ unit ∉ merged.rpmsToRemove := by
    simp only [ContentOptions.cancel, List.mem_filter, decide_eq_true_eq, not_and]
    exact and_congr_right fun inside => ⟨fun free => free inside, fun free _ => free⟩
  have right (unit : String) : unit ∈ merged.cancel.rpmsToRemove ↔
      unit ∈ merged.rpmsToRemove ∧ unit ∉ merged.rpmsToAdd := by
    simp only [ContentOptions.cancel, List.mem_filter, decide_eq_true_eq, not_and]
    exact and_congr_right fun inside =>
      ⟨fun free there => free there inside, fun free there => absurd there free⟩
  exact ⟨fun unit => by rw [left, added, removed], fun unit => by rw [right, added, removed], names⟩

/-- How many units are returned. -/
theorem readOptions_size (returned : readOptions own pid reads = some (o, keys)) :
    o.size = (symmDiff (unitsAdded (mergedTasks own reads))
      (unitsRemoved (mergedTasks own reads))).card := by
  have ⟨added, removed, _⟩ := readOptions_units returned
  have adds : o.rpmsToAdd.toFinset = unitsAdded (mergedTasks own reads) \
      unitsRemoved (mergedTasks own reads) := by
    ext unit
    rw [List.mem_toFinset, added, Finset.mem_sdiff]
  have removes : o.rpmsToRemove.toFinset = unitsRemoved (mergedTasks own reads) \
      unitsAdded (mergedTasks own reads) := by
    ext unit
    rw [List.mem_toFinset, removed, Finset.mem_sdiff]
  show o.rpmsToAdd.toFinset.card + o.rpmsToRemove.toFinset.card = _
  rw [adds, removes, symmDiff_def, Finset.sup_eq_union, Finset.card_union_of_disjoint]
  exact disjoint_sdiff_sdiff

end

/-- A batch is within the limit exactly when the own request and the requests that wait, up to
the first one that is too large alone, have no more units than that together. Units that some of
them add and some remove do not count. -/
theorem batch_within_limit_iff (own : ContentTask) (pid : Nat) (reads : ContentReads)
    (o : ContentOptions) (keys : List Nat)
    (returned : readOptions own pid reads = some (o, keys)) :
    WithinLimit own reads o keys ↔
      (symmDiff (unitsAdded (mergedTasks own reads))
        (unitsRemoved (mergedTasks own reads))).card ≤
          maxContentUnitsInBatch := by
  rw [← readOptions_size returned]
  constructor
  · exact WithinLimit.size
  · intro small
    have ⟨added, removed, names⟩ := readOptions_units returned
    refine ⟨small, fun key member => ?_⟩
    rw [names] at member
    have ⟨⟨name, task⟩, inside, same⟩ := List.mem_map.mp member
    cases same
    have ⟨entry, listed, waits, recorded⟩ := mem_processable inside
    have merged : task ∈ mergedTasks own reads :=
      List.mem_cons_of_mem _ (List.mem_map_of_mem inside)
    refine ⟨entry, task, listed, waits, recorded, fun unit adds => ?_, fun unit removes => ?_⟩
    · have there := mem_unitsAdded.mpr ⟨task, merged, adds⟩
      rw [added]
      by_cases back : unit ∈ unitsRemoved (mergedTasks own reads)
      · exact Or.inr back
      · exact Or.inl ⟨there, back⟩
    · have there := mem_unitsRemoved.mpr ⟨task, merged, removes⟩
      rw [removed]
      by_cases back : unit ∈ unitsAdded (mergedTasks own reads)
      · exact Or.inr back
      · exact Or.inl ⟨there, back⟩

namespace Sample

/-- The name of a content unit. -/
def prn (i : Nat) : String := String.ofList (List.replicate i 'x')

/-- A page of units. -/
def page (size : Nat) : List String := (List.range size).map prn

/-- Another process adds one more unit. -/
def oneMore : ContentReads := [(7, some { task := some (addContent ["y"]) })]

/-- The units of a page are different. -/
theorem page_card (size : Nat) : (page size).toFinset.card = size := by
  have different : Function.Injective prn := by
    intro i j same
    have lists := congrArg (fun text => text.toList.length) same
    simpa [prn] using lists
  have distinct : (page size).Nodup := List.nodup_range.map different
  rw [List.toFinset_card_of_nodup distinct]
  simp [page]

/-- One unit more than on the page. -/
theorem oneMore_card (size : Nat) :
    (symmDiff (unitsAdded [addContent (page size), addContent ["y"]])
      (unitsRemoved [addContent (page size), addContent ["y"]])).card = size + 1 := by
  have added : unitsAdded [addContent (page size), addContent ["y"]] =
      insert "y" (page size).toFinset := by
    ext unit
    simp [mem_unitsAdded, addContent, or_comm]
  have removed : unitsRemoved [addContent (page size), addContent ["y"]] = ∅ := rfl
  have other : "y" ∉ (page size).toFinset := by
    intro member
    have ⟨i, _, same⟩ := List.mem_map.mp (List.mem_toFinset.mp member)
    have letters := congrArg String.toList same
    cases i with
    | zero => simp [prn] at letters
    | succ i => simp [prn, List.replicate_succ] at letters
  rw [added, removed, Finset.bot_eq_empty.symm, symmDiff_bot, Finset.card_insert_of_notMem other,
    page_card]

end Sample

/-- Two small requests are merged into a batch within the limit. -/
theorem batch_within_limit_iff_small : ∃ o keys,
    readOptions (addContent (Sample.page 2)) 8 Sample.oneMore = some (o, keys) ∧
      WithinLimit (addContent (Sample.page 2)) Sample.oneMore o keys := by
  refine ⟨_, _, rfl, (batch_within_limit_iff _ 8 Sample.oneMore _ _ rfl).mpr ?_⟩
  show (symmDiff (unitsAdded [addContent (Sample.page 2), addContent ["y"]])
    (unitsRemoved [addContent (Sample.page 2), addContent ["y"]])).card ≤ maxContentUnitsInBatch
  rw [Sample.oneMore_card]
  decide

/-- A full page and one unit of another process are merged into a batch beyond the limit. -/
theorem batch_exceeds_limit : ¬ ∀ (own : ContentTask) (pid : Nat) (reads : ContentReads)
    (o : ContentOptions) (keys : List Nat), own.size ≤ maxContentUnitsInBatch →
      readOptions own pid reads = some (o, keys) → WithinLimit own reads o keys := by
  intro claimed
  have full : (addContent (Sample.page maxContentUnitsInBatch)).size ≤ maxContentUnitsInBatch := by
    simp [ContentTask.size, addContent, Sample.page]
  have within := claimed (addContent (Sample.page maxContentUnitsInBatch)) 8 Sample.oneMore _ _ full
    rfl
  have small := within.size
  rw [@readOptions_size (addContent (Sample.page maxContentUnitsInBatch)) 8 Sample.oneMore _ _ rfl]
    at small
  have large := Sample.oneMore_card maxContentUnitsInBatch
  have same : mergedTasks (addContent (Sample.page maxContentUnitsInBatch)) Sample.oneMore =
      [addContent (Sample.page maxContentUnitsInBatch), addContent ["y"]] := rfl
  rw [same, large] at small
  omega

end Copr
