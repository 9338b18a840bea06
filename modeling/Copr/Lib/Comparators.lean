import Mathlib.Data.List.Perm.Basic
import Mathlib.Data.List.Sort
import Mathlib.Data.Set.Defs
import Mathlib.Tactic.Common

/-!
# Comparators

A comparator says by the sign of a number which of two elements comes first. On a set on which it
is antisymmetric, transitive and tells different elements apart, sorting gives one list whatever
order the elements were in.
-/

namespace Copr.Comparators

variable {α β : Type*}

/-- A comparator orders different elements of a set. -/
structure Orders (cmp : α → α → Int) (s : Set α) : Prop where
  /-- The other way round the sign is the other one. -/
  antisymm : ∀ a ∈ s, ∀ b ∈ s, a ≠ b → (cmp a b).sign = -(cmp b a).sign
  /-- What comes before what comes before comes before. -/
  trans : ∀ a ∈ s, ∀ b ∈ s, ∀ c ∈ s, cmp a b < 0 → cmp b c < 0 → cmp a c < 0
  /-- Only an element itself is as far. -/
  distinct : ∀ a ∈ s, ∀ b ∈ s, cmp a b = 0 → a = b

/-- The elements in the order of a comparator; no element comes before an equal one that was in
front of it. -/
def sorted (cmp : α → α → Int) (l : List α) : List α :=
  l.insertionSort fun a b => cmp a b ≤ 0

variable {cmp : α → α → Int} {s : Set α}

/-- Different elements are apart, and either may come first. -/
theorem Orders.cases (orders : Orders cmp s) {a b : α} (left : a ∈ s) (right : b ∈ s)
    (apart : a ≠ b) :
    cmp a b < 0 ∧ 0 < cmp b a ∨ cmp b a < 0 ∧ 0 < cmp a b := by
  have signs := orders.antisymm a left b right apart
  rcases Int.lt_trichotomy (cmp a b) 0 with before | same | after
  · rw [Int.sign_eq_neg_one_of_neg before] at signs
    exact Or.inl ⟨before, Int.sign_eq_one_iff_pos.mp (by omega)⟩
  · exact absurd (orders.distinct a left b right same) apart
  · rw [Int.sign_eq_one_of_pos after] at signs
    exact Or.inr ⟨Int.sign_eq_neg_one_iff_neg.mp (by omega), after⟩

/-- Sorting gives one list whatever the order was. -/
theorem Orders.sorted_eq (orders : Orders cmp s) (self : ∀ a ∈ s, cmp a a ≤ 0)
    {l l' : List α} (perm : l.Perm l') (inside : ∀ a ∈ l, a ∈ s) :
    sorted cmp l = sorted cmp l' := by
  let order : {a // a ∈ s} → {a // a ∈ s} → Prop := fun a b => cmp a.1 b.1 ≤ 0
  have antisymm : ∀ a b, order a b → order b a → a = b := by
    intro a b one two
    by_contra apart
    rcases orders.cases a.2 b.2 fun same => apart (Subtype.ext same) with ⟨_, after⟩ | ⟨_, after⟩
    · exact absurd two (not_le_of_gt after)
    · exact absurd one (not_le_of_gt after)
  have total : Std.Total order := by
    refine ⟨fun a b => ?_⟩
    by_cases same : a = b
    · rw [same]
      exact Or.inl (self b.1 b.2)
    · rcases orders.cases a.2 b.2 fun equal => same (Subtype.ext equal) with ⟨first, _⟩ | ⟨first, _⟩
      · exact Or.inl first.le
      · exact Or.inr first.le
  have trans : IsTrans _ order := by
    refine ⟨fun a b c one two => ?_⟩
    rcases (show cmp a.1 b.1 ≤ 0 from one).lt_or_eq with first | same
    · rcases (show cmp b.1 c.1 ≤ 0 from two).lt_or_eq with second | equal
      · exact (orders.trans a.1 a.2 b.1 b.2 c.1 c.2 first second).le
      · rw [← Subtype.ext (orders.distinct b.1 b.2 c.1 c.2 equal)]
        exact one
    · rw [Subtype.ext (orders.distinct a.1 a.2 b.1 b.2 same)]
      exact two
  have inside' : ∀ a ∈ l', a ∈ s := fun a member => inside a (perm.mem_iff.mpr member)
  -- Within the set the sorted list is the only one.
  have within : ∀ (m : List α) (given : ∀ a ∈ m, a ∈ s), sorted cmp m =
      ((m.attachWith (· ∈ s) given).insertionSort order).map Subtype.val := by
    intro m given
    rw [List.map_insertionSort (s := fun a b => cmp a b ≤ 0) _ _ _ fun _ _ _ _ => Iff.rfl,
      List.attachWith_map_subtype_val]
    rfl
  rw [within l inside, within l' inside']
  refine congrArg (List.map Subtype.val) (List.Perm.eq_of_pairwise (fun a b _ _ => antisymm a b)
    (List.pairwise_insertionSort order _) (List.pairwise_insertionSort order _) ?_)
  refine (List.perm_insertionSort order _).trans (.trans ?_ (List.perm_insertionSort order _).symm)
  rw [← List.map_perm_map_iff Subtype.val_injective, List.attachWith_map_subtype_val,
    List.attachWith_map_subtype_val]
  exact perm

/-- Sorting looks only at the elements of the list. -/
theorem insertionSort_eq_sorted {l : List α} (r : α → α → Prop) [DecidableRel r]
    (same : ∀ a ∈ l, ∀ b ∈ l, r a b ↔ cmp a b ≤ 0) : l.insertionSort r = sorted cmp l := by
  have mapped := List.map_insertionSort (s := fun a b => cmp a b ≤ 0) r id l same
  rw [List.map_id, List.map_id] at mapped
  exact mapped

/-- Elements are ordered by what tells them apart. -/
theorem Orders.comap (orders : Orders cmp s) (f : β → α) {t : Set β} (maps : ∀ a ∈ t, f a ∈ s)
    (tells : ∀ a ∈ t, ∀ b ∈ t, f a = f b → a = b) : Orders (fun a b => cmp (f a) (f b)) t where
  antisymm a left b right apart :=
    orders.antisymm _ (maps a left) _ (maps b right) fun same => apart (tells a left b right same)
  trans a one b two c three := orders.trans _ (maps a one) _ (maps b two) _ (maps c three)
  distinct a left b right same :=
    tells a left b right (orders.distinct _ (maps a left) _ (maps b right) same)

end Copr.Comparators
