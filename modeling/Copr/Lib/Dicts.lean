import Mathlib.Data.List.AList
import Mathlib.Data.List.Induction

/-!
# Dictionaries that are filled in a loop

Three shapes: a dictionary of dictionaries in which a loop sets values, a dictionary of lists
to which a loop appends, and a dictionary whose keys are gone through in the order in which they
were first set. What is in them afterwards is what the loop has written, as long as it never
writes two different values for the same keys.
-/

namespace Copr.Dicts

variable {κ ι υ : Type*} [DecidableEq κ] [DecidableEq ι]

/-! ## Dictionaries of dictionaries -/

/-- A dictionary of dictionaries. -/
abbrev Nested (κ ι υ : Type*) := AList fun _ : κ => AList fun _ : ι => υ

/-- A value is found under two keys. -/
def Finds (dict : Nested κ ι υ) (k : κ) (i : ι) (v : υ) : Prop :=
  ∃ inner, dict.lookup k = some inner ∧ inner.lookup i = some v

/-- A value is set under two keys; the inner dictionary is created if there is none. -/
def set (dict : Nested κ ι υ) (k : κ) (i : ι) (v : υ) : Nested κ ι υ :=
  dict.insert k (((dict.lookup k).getD ∅).insert i v)

/-- Values are set one after another. -/
def setAll (dict : Nested κ ι υ) (writes : List (κ × ι × υ)) : Nested κ ι υ :=
  writes.foldl (fun dict w => set dict w.1 w.2.1 w.2.2) dict

/-- What is found after a value was set. -/
theorem finds_set {dict : Nested κ ι υ} {k k' : κ} {i i' : ι} {v v' : υ} :
    Finds (set dict k i v) k' i' v' ↔
      k = k' ∧ i = i' ∧ v = v' ∨ ¬ (k = k' ∧ i = i') ∧ Finds dict k' i' v' := by
  have inner : ∀ dict : AList fun _ : ι => υ, (dict.insert i v).lookup i' = some v' ↔
      i = i' ∧ v = v' ∨ i ≠ i' ∧ dict.lookup i' = some v' := by
    intro dict
    by_cases same : i = i'
    · subst same
      simp only [AList.lookup_insert, Option.some.injEq, true_and, ne_eq, not_true_eq_false,
        false_and, or_false]
    · rw [AList.lookup_insert_ne (Ne.symm same)]
      simp only [same, false_and, false_or, ne_eq, not_false_eq_true, true_and]
  unfold Finds set
  by_cases outer : k = k'
  · subst outer
    cases found : dict.lookup k with
    | none =>
      simp only [Option.getD_none, AList.lookup_insert, Option.some.injEq, exists_eq_left', inner,
        AList.lookup_empty, reduceCtorEq, and_false, or_false, false_and, exists_const, true_and]
    | some dict => simp [inner]
  · simp [outer, AList.lookup_insert_ne (Ne.symm outer)]

/-- The writes never disagree about the value under two keys. -/
def Functional (writes : List (κ × ι × υ)) : Prop :=
  ∀ {k i v v'}, (k, i, v) ∈ writes → (k, i, v') ∈ writes → v = v'

/-- Exactly what was written is found, when nothing was there before. -/
theorem finds_setAll {writes : List (κ × ι × υ)} (functional : Functional writes)
    {dict : Nested κ ι υ} (empty : ∀ k i v, ¬ Finds dict k i v) {k : κ} {i : ι} {v : υ} :
    Finds (setAll dict writes) k i v ↔ (k, i, v) ∈ writes := by
  induction writes using List.reverseRecOn with
  | nil => simp [setAll, empty]
  | append_singleton writes w ih =>
    obtain ⟨k', i', v'⟩ := w
    have before : Functional writes := fun first second =>
      functional (List.mem_append_left _ first) (List.mem_append_left _ second)
    have last : setAll dict (writes ++ [(k', i', v')]) = set (setAll dict writes) k' i' v' := by
      simp [setAll]
    rw [last, finds_set, ih before, List.mem_append, List.mem_singleton, Prod.mk.injEq,
      Prod.mk.injEq]
    constructor
    · rintro (⟨rfl, rfl, rfl⟩ | ⟨_, written⟩)
      · exact Or.inr ⟨rfl, rfl, rfl⟩
      · exact Or.inl written
    · rintro (written | ⟨rfl, rfl, rfl⟩)
      · by_cases same : k' = k ∧ i' = i
        · obtain ⟨rfl, rfl⟩ := same
          have again : (k', i', v') ∈ writes ++ [(k', i', v')] :=
            List.mem_append_right _ (List.mem_singleton_self _)
          exact Or.inl ⟨rfl, rfl, functional again (List.mem_append_left _ written)⟩
        · exact Or.inr ⟨same, written⟩
      · exact Or.inl ⟨rfl, rfl, rfl⟩

/-! ## Dictionaries of lists -/

/-- A value is appended to the list under a key, which is created if there is none. -/
def append (groups : List (κ × List υ)) (w : κ × υ) : List (κ × List υ) :=
  if w.1 ∈ groups.map Prod.fst then
    groups.map fun group => if group.1 = w.1 then (group.1, group.2 ++ [w.2]) else group
  else groups ++ [(w.1, [w.2])]

/-- Values are appended one after another. -/
def group (writes : List (κ × υ)) : List (κ × List υ) := writes.foldl append []

/-- Appending changes no key that is there. -/
theorem keys_append (groups : List (κ × List υ)) (w : κ × υ) :
    (append groups w).map Prod.fst =
      if w.1 ∈ groups.map Prod.fst then groups.map Prod.fst else groups.map Prod.fst ++ [w.1] := by
  unfold append
  split
  · rw [List.map_map]
    refine List.map_congr_left fun group _ => ?_
    simp only [Function.comp_apply]
    split <;> rfl
  · simp

/-- Grouped writes have every key once. -/
theorem group_keys_nodup (writes : List (κ × υ)) : ((group writes).map Prod.fst).Nodup := by
  induction writes using List.reverseRecOn with
  | nil => exact List.nodup_nil
  | append_singleton writes w ih =>
    have last : group (writes ++ [w]) = append (group writes) w := by simp [group]
    rw [last, keys_append]
    split
    · exact ih
    · rename_i fresh
      exact List.nodup_append.mpr ⟨ih, List.nodup_singleton _, fun a member b single => by
        obtain rfl := List.mem_singleton.mp single
        exact fun same => fresh (same ▸ member)⟩

/-- The keys are those to which something was appended. -/
theorem mem_keys_group {writes : List (κ × υ)} {k : κ} :
    k ∈ (group writes).map Prod.fst ↔ ∃ v, (k, v) ∈ writes := by
  induction writes using List.reverseRecOn with
  | nil => simp [group]
  | append_singleton writes w ih =>
    have last : group (writes ++ [w]) = append (group writes) w := by simp [group]
    have one : (∃ v, (k, v) = w) ↔ k = w.1 :=
      ⟨fun ⟨_, same⟩ => same ▸ rfl, fun same => ⟨w.2, Prod.ext same rfl⟩⟩
    simp only [last, keys_append, List.mem_append, List.mem_singleton, exists_or, ← ih, one]
    split
    · rename_i there
      exact ⟨Or.inl, fun either => either.elim id fun same => same ▸ there⟩
    · rw [List.mem_append, List.mem_singleton]

/-- A value is in the list of a group after one was appended. -/
theorem mem_append {groups : List (κ × List υ)} {w : κ × υ} {k : κ} {v : υ} :
    (∃ values, (k, values) ∈ append groups w ∧ v ∈ values) ↔
      (∃ values, (k, values) ∈ groups ∧ v ∈ values) ∨ (k, v) = w := by
  unfold append
  split
  · rename_i there
    obtain ⟨old, member, same⟩ := List.mem_map.mp there
    constructor
    · rintro ⟨values, mapped, inside⟩
      obtain ⟨group, listed, made⟩ := List.mem_map.mp mapped
      split at made
      · rename_i key
        obtain ⟨rfl, rfl⟩ := Prod.mk.inj made
        rcases List.mem_append.mp inside with before | new
        · exact Or.inl ⟨group.2, listed, before⟩
        · exact Or.inr (Prod.ext key (List.mem_singleton.mp new))
      · exact Or.inl ⟨values, made ▸ listed, inside⟩
    · rintro (⟨values, listed, inside⟩ | rfl)
      · by_cases key : k = w.1
        · exact ⟨values ++ [w.2], List.mem_map.mpr ⟨_, listed, by simp [key]⟩,
            List.mem_append_left _ inside⟩
        · exact ⟨values, List.mem_map.mpr ⟨_, listed, by simp [key]⟩, inside⟩
      · exact ⟨old.2 ++ [v], List.mem_map.mpr ⟨old, member, by simp [same]⟩, by simp⟩
  · constructor
    · rintro ⟨values, listed, inside⟩
      rcases List.mem_append.mp listed with before | new
      · exact Or.inl ⟨values, before, inside⟩
      · obtain ⟨rfl, rfl⟩ := Prod.mk.inj (List.mem_singleton.mp new)
        exact Or.inr (Prod.ext rfl (List.mem_singleton.mp inside))
    · rintro (⟨values, listed, inside⟩ | rfl)
      · exact ⟨values, List.mem_append_left _ listed, inside⟩
      · exact ⟨[v], List.mem_append_right _ (List.mem_singleton_self _), List.mem_singleton_self _⟩

/-- The groups have exactly the values that were appended. -/
theorem mem_group {writes : List (κ × υ)} {k : κ} {v : υ} :
    (∃ values, (k, values) ∈ group writes ∧ v ∈ values) ↔ (k, v) ∈ writes := by
  induction writes using List.reverseRecOn with
  | nil => simp [group]
  | append_singleton writes w ih =>
    have last : group (writes ++ [w]) = append (group writes) w := by simp [group]
    rw [last, mem_append, ih, List.mem_append, List.mem_singleton]

/-! ## Ordered dictionaries -/

/-- A value is set under a key, which stays where it is or comes last. -/
def put (dict : List (κ × υ)) (k : κ) (v : υ) : List (κ × υ) :=
  if k ∈ dict.map Prod.fst then dict.map fun entry => if entry.1 = k then (k, v) else entry
  else dict ++ [(k, v)]

/-- What a dictionary has after a value was set. -/
theorem mem_put {dict : List (κ × υ)} {k k' : κ} {v v' : υ} :
    (k', v') ∈ put dict k v ↔ (k' = k ∧ v' = v) ∨ (k' ≠ k ∧ (k', v') ∈ dict) := by
  unfold put
  split
  · rename_i there
    obtain ⟨entry, listed, same⟩ := List.mem_map.mp there
    constructor
    · intro mapped
      obtain ⟨old, inside, made⟩ := List.mem_map.mp mapped
      split at made
      · obtain ⟨rfl, rfl⟩ := Prod.mk.inj made
        exact Or.inl ⟨rfl, rfl⟩
      · rename_i other
        rw [made] at other inside
        exact Or.inr ⟨other, inside⟩
    · rintro (⟨rfl, rfl⟩ | ⟨other, inside⟩)
      · exact List.mem_map.mpr ⟨entry, listed, if_pos same⟩
      · exact List.mem_map.mpr ⟨(k', v'), inside, if_neg other⟩
  · rename_i fresh
    have apart : (k', v') ∈ dict → k' ≠ k := by
      intro inside same
      exact fresh (same ▸ List.mem_map_of_mem inside)
    rw [List.mem_append, List.mem_singleton, Prod.mk.injEq, or_comm]
    exact or_congr_right ⟨fun inside => ⟨apart inside, inside⟩, And.right⟩

end Copr.Dicts
