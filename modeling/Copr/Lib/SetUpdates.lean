import Mathlib.Order.BooleanAlgebra.Set
import Mathlib.Tactic.Tauto

/-!
# Updates of a set

An update takes some elements out of a set and puts others in. Many updates can be merged into
one; elements that are both taken out and put in can be left alone then. When every update
either only puts in or only takes out, two orders decide what the merged update can mean: in
one the conflicting elements end up outside, in the other inside.
-/

namespace Copr.SetUpdates

variable {α : Type*}

/-- Elements to put in and elements to take out. -/
structure Update (α : Type*) where
  /-- What is put in. -/
  add : Set α
  /-- What is taken out first. -/
  remove : Set α

/-- The set after an update. -/
def Update.apply (s : Set α) (u : Update α) : Set α := (s \ u.remove) ∪ u.add

/-- The set after some updates one after another. -/
def run (s : Set α) (us : List (Update α)) : Set α := us.foldl Update.apply s

/-- Everything that some update puts in. -/
def adds (us : List (Update α)) : Set α := {x | ∃ u ∈ us, x ∈ u.add}

/-- Everything that some update takes out. -/
def removes (us : List (Update α)) : Set α := {x | ∃ u ∈ us, x ∈ u.remove}

/-- The elements that are both put in and taken out. -/
def conflicts (us : List (Update α)) : Set α := adds us ∩ removes us

/-- The merged update, which leaves conflicting elements alone. -/
def merged (us : List (Update α)) : Update α where
  add := adds us \ conflicts us
  remove := removes us \ conflicts us

/-- An element ends up outside: nothing puts it in any more once it was taken out, or nothing puts
it in at all and it was not `there` before. -/
def LeftOut (us : List (Update α)) (x : α) (there : Prop) : Prop :=
  (¬ there ∧ x ∉ adds us) ∨
    ∃ earlier u later, us = earlier ++ u :: later ∧ x ∈ u.remove ∧ x ∉ adds (u :: later)

variable {us vs : List (Update α)} {s : Set α} {x : α}

/-- Nothing puts in an element exactly when neither the first update does nor another one. -/
theorem not_mem_adds_cons {u : Update α} :
    x ∉ adds (u :: us) ↔ x ∉ u.add ∧ x ∉ adds us := by
  simp [adds]

/-- The last update that concerns an element decides whether it is in the set. -/
theorem not_mem_run : x ∉ run s us ↔ LeftOut us x (x ∈ s) := by
  induction us generalizing s with
  | nil => simp [run, LeftOut, adds]
  | cons u rest ih =>
    have outside : x ∉ u.apply s ↔ x ∉ u.add ∧ (x ∈ s → x ∈ u.remove) := by
      simp [Update.apply, and_comm]
    have first : run s (u :: rest) = run (u.apply s) rest := rfl
    rw [first, ih]
    constructor
    · rintro (⟨absent, never⟩ | ⟨earlier, v, later, rfl, taken, never⟩)
      · have ⟨free, leaves⟩ := outside.mp absent
        have none_ := not_mem_adds_cons.mpr ⟨free, never⟩
        by_cases there : x ∈ s
        · exact Or.inr ⟨[], u, rest, rfl, leaves there, none_⟩
        · exact Or.inl ⟨there, none_⟩
      · exact Or.inr ⟨u :: earlier, v, later, rfl, taken, never⟩
    · rintro (⟨absent, never⟩ | ⟨earlier, v, later, split_, taken, never⟩)
      · have ⟨free, never⟩ := not_mem_adds_cons.mp never
        exact Or.inl ⟨outside.mpr ⟨free, fun there => absurd there absent⟩, never⟩
      · cases earlier with
        | nil =>
          obtain ⟨rfl, rfl⟩ := List.cons.inj split_
          have ⟨free, never⟩ := not_mem_adds_cons.mp never
          exact Or.inl ⟨outside.mpr ⟨free, fun _ => taken⟩, never⟩
        | cons head earlier =>
          obtain ⟨rfl, rfl⟩ := List.cons.inj split_
          exact Or.inr ⟨earlier, v, later, rfl, taken, never⟩

/-- The order of the updates does not matter for the merged one. -/
theorem merged_perm (same : us.Perm vs) : merged us = merged vs := by
  have added : adds us = adds vs := by
    ext x
    simp [adds, same.mem_iff]
  have removed : removes us = removes vs := by
    ext x
    simp [removes, same.mem_iff]
  simp [merged, conflicts, added, removed]

/-- An element that is taken out and that nothing puts in is left out. -/
theorem leftOut_of_add_empty {there : Prop} (subtractive : ∀ u ∈ us, u.add = ∅)
    (taken : x ∈ removes us) : LeftOut us x there := by
  obtain ⟨u, member, out⟩ := taken
  obtain ⟨earlier, later, rfl⟩ := List.append_of_mem member
  refine Or.inr ⟨earlier, u, later, rfl, out, ?_⟩
  rintro ⟨v, among, inside⟩
  rw [subtractive v (List.mem_append_right _ among)] at inside
  exact inside

/-- Updates that take nothing out. -/
theorem run_of_remove_empty (additive : ∀ u ∈ us, u.remove = ∅) (s : Set α) :
    run s us = s ∪ adds us := by
  induction us generalizing s with
  | nil => simp [run, adds]
  | cons u rest ih =>
    have later := ih (fun v member => additive v (List.mem_cons_of_mem _ member)) (u.apply s)
    have now : u.apply s = s ∪ u.add := by simp [Update.apply, additive u (by simp)]
    have first : run s (u :: rest) = run (u.apply s) rest := rfl
    rw [first, later, now]
    ext x
    simp [adds, or_assoc]

/-- Updates that put nothing in. -/
theorem run_of_add_empty (subtractive : ∀ u ∈ us, u.add = ∅) (s : Set α) :
    run s us = s \ removes us := by
  induction us generalizing s with
  | nil => simp [run, removes]
  | cons u rest ih =>
    have later := ih (fun v member => subtractive v (List.mem_cons_of_mem _ member)) (u.apply s)
    have now : u.apply s = s \ u.remove := by simp [Update.apply, subtractive u (by simp)]
    have first : run s (u :: rest) = run (u.apply s) rest := rfl
    rw [first, later, now]
    ext x
    simp [removes, and_assoc]

/-- Conflicting elements stay as they are under the merged update, the others become what every
update says. -/
theorem mem_merged_apply : x ∈ (merged us).apply s ↔
    (x ∈ conflicts us ∧ x ∈ s) ∨
      (x ∉ conflicts us ∧ (x ∈ adds us ∨ (x ∈ s ∧ x ∉ removes us))) := by
  by_cases conflict : x ∈ conflicts us
  · simp [Update.apply, merged, conflict]
  · simp [Update.apply, merged, conflict, or_comm]

section Orders

variable {adders removers : List (Update α)} (additive : ∀ u ∈ adders, u.remove = ∅)
  (subtractive : ∀ u ∈ removers, u.add = ∅)

include subtractive in
/-- The updates that put in are the only ones that do. -/
theorem mem_adds_append : x ∈ adds (adders ++ removers) ↔ x ∈ adds adders := by
  constructor
  · rintro ⟨u, member, inside⟩
    rcases List.mem_append.mp member with adder | remover
    · exact ⟨u, adder, inside⟩
    · simp [subtractive u remover] at inside
  · rintro ⟨u, member, inside⟩
    exact ⟨u, List.mem_append_left _ member, inside⟩

include additive in
/-- The updates that take out are the only ones that do. -/
theorem mem_removes_append : x ∈ removes (adders ++ removers) ↔ x ∈ removes removers := by
  constructor
  · rintro ⟨u, member, inside⟩
    rcases List.mem_append.mp member with adder | remover
    · simp [additive u adder] at inside
    · exact ⟨u, remover, inside⟩
  · rintro ⟨u, member, inside⟩
    exact ⟨u, List.mem_append_right _ member, inside⟩

include additive subtractive in
/-- With the removals last, the merged update is right about an element unless it is in
conflict and was there before. -/
theorem mem_run_removers_last (free : x ∈ conflicts (adders ++ removers) → x ∉ s) :
    x ∈ run s (adders ++ removers) ↔ x ∈ (merged (adders ++ removers)).apply s := by
  have added : x ∈ adds (adders ++ removers) ↔ x ∈ adds adders :=
    mem_adds_append subtractive
  have removed : x ∈ removes (adders ++ removers) ↔ x ∈ removes removers :=
    mem_removes_append additive
  have last : run s (adders ++ removers) = run (run s adders) removers := List.foldl_append ..
  rw [last, run_of_add_empty subtractive, run_of_remove_empty additive, mem_merged_apply]
  simp only [conflicts, Set.mem_inter_iff, added, removed] at free ⊢
  simp only [Set.mem_sdiff, Set.mem_union]
  tauto

include additive subtractive in
/-- With the removals first, the merged update is right about an element unless it is in
conflict and was not there before. -/
theorem mem_run_removers_first (there : x ∈ conflicts (adders ++ removers) → x ∈ s) :
    x ∈ run s (removers ++ adders) ↔ x ∈ (merged (adders ++ removers)).apply s := by
  have added : x ∈ adds (adders ++ removers) ↔ x ∈ adds adders :=
    mem_adds_append subtractive
  have removed : x ∈ removes (adders ++ removers) ↔ x ∈ removes removers :=
    mem_removes_append additive
  have last : run s (removers ++ adders) = run (run s removers) adders := List.foldl_append ..
  rw [last, run_of_remove_empty additive, run_of_add_empty subtractive, mem_merged_apply]
  simp only [conflicts, Set.mem_inter_iff, added, removed] at there ⊢
  simp only [Set.mem_sdiff, Set.mem_union]
  tauto

end Orders

end Copr.SetUpdates
