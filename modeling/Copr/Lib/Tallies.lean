import Mathlib.Algebra.BigOperators.Group.List.Lemmas
import Mathlib.Algebra.Order.BigOperators.Group.List
import Mathlib.Algebra.Order.Group.Nat
import Mathlib.Algebra.GroupWithZero.Nat
import Mathlib.Data.List.Dedup
import Mathlib.Data.List.Perm.Lattice

/-!
# Tallies

A tally counts how often each key was seen. The weight of a tally under a predicate is the sum of
the counts of the keys that fulfil it, which is how many such keys were seen. Behind it are facts
about sums over a list in which one place changes, is the only one that matters, or is bounded
by another sum, and about counting in groups.
-/

namespace Copr.Tallies

variable {κ ι : Type*}

/-! ## Counting keys -/

/-- A key was seen once more. -/
def bump [DecidableEq κ] (key : κ) : List (κ × Nat) → List (κ × Nat)
  | [] => [(key, 1)]
  | item :: items =>
    if item.1 = key then (item.1, item.2 + 1) :: items else item :: bump key items

/-- How often each key was seen, in the order in which they were first seen. -/
def tally [DecidableEq κ] (keys : List κ) : List (κ × Nat) :=
  keys.foldl (fun items key => bump key items) []

/-- The counts of the keys that fulfil a predicate. -/
def weight (p : κ → Bool) (items : List (κ × Nat)) : Nat :=
  (items.map fun item => if p item.1 then item.2 else 0).sum

variable {p : κ → Bool} {items : List (κ × Nat)} {key : κ}

/-- The weights of two lists add up. -/
theorem weight_append (items more : List (κ × Nat)) :
    weight p (items ++ more) = weight p items + weight p more := by
  rw [weight, List.map_append, List.sum_append]
  rfl

/-- The weight of one item is its number if its key counts, and nothing otherwise. -/
theorem weight_singleton (item : κ × Nat) : weight p [item] = if p item.1 then item.2 else 0 :=
  List.sum_singleton

/-- Taking one item more adds the weight of that item. -/
theorem weight_take_succ {item : κ × Nat} {n : Nat} (here : items[n]? = some item) :
    weight p (items.take (n + 1)) =
      weight p (items.take n) + if p item.1 then item.2 else 0 := by
  rw [List.take_add_one, here, Option.toList_some, weight_append, weight_singleton]

/-- An item is a part of the weight. -/
theorem le_weight {item : κ × Nat} (member : item ∈ items) (fulfils : p item.1 = true) :
    item.2 ≤ weight p items := by
  induction items with
  | nil => contradiction
  | cons first items ih =>
    rw [weight, List.map_cons, List.sum_cons]
    rcases List.mem_cons.mp member with rfl | later
    · rw [if_pos fulfils]
      exact Nat.le_add_right _ _
    · exact (ih later).trans (Nat.le_add_left _ _)

/-- Without keys that fulfil the predicate the weight is zero. -/
theorem weight_eq_zero (none : ∀ item ∈ items, p item.1 = false) : weight p items = 0 := by
  refine List.sum_eq_zero fun n listed => ?_
  obtain ⟨item, member, rfl⟩ := List.mem_map.mp listed
  rw [none item member]
  rfl

variable [DecidableEq κ]

/-- One key more is one more if it fulfils the predicate. -/
theorem weight_bump : weight p (bump key items) = weight p items + if p key then 1 else 0 := by
  induction items with
  | nil => simp [bump, weight]
  | cons item items ih =>
    rw [bump]
    split
    · rename_i same
      subst same
      simp only [weight, List.map_cons, List.sum_cons]
      split <;> omega
    · simp only [weight, List.map_cons, List.sum_cons] at ih ⊢
      rw [ih, Nat.add_assoc]

/-- The weight of a tally is the number of such keys that were seen. -/
theorem weight_tally (keys : List κ) : weight p (tally keys) = keys.countP p := by
  have step : ∀ items : List (κ × Nat), weight p (keys.foldl (fun items key => bump key items)
      items) = weight p items + keys.countP p := by
    induction keys with
    | nil => intro items; rfl
    | cons key keys ih =>
      intro items
      rw [List.foldl_cons, ih, weight_bump, List.countP_cons, Nat.add_assoc,
        Nat.add_comm (ite _ _ _)]
  rw [tally, step, weight, List.map_nil, List.sum_nil, Nat.zero_add]

/-- One key more keeps the counts positive and the keys within a set. -/
theorem forall_bump {P : κ → Prop} (given : ∀ item ∈ items, P item.1 ∧ 0 < item.2) (new : P key) :
    ∀ item ∈ bump key items, P item.1 ∧ 0 < item.2 := by
  induction items with
  | nil => exact List.forall_mem_singleton.mpr ⟨new, Nat.one_pos⟩
  | cons first items ih =>
    obtain ⟨here, later⟩ := List.forall_mem_cons.mp given
    rw [bump]
    split
    · exact List.forall_mem_cons.mpr ⟨⟨here.1, Nat.succ_pos _⟩, later⟩
    · exact List.forall_mem_cons.mpr ⟨here, ih later⟩

/-- Every item of a tally is of a key that was seen, and has a positive count. -/
theorem of_mem_tally {keys : List κ} {item : κ × Nat} (member : item ∈ tally keys) :
    item.1 ∈ keys ∧ 0 < item.2 := by
  have step : ∀ (more : List κ) (items : List (κ × Nat)), (∀ key ∈ more, key ∈ keys) →
      (∀ item ∈ items, item.1 ∈ keys ∧ 0 < item.2) →
      ∀ item ∈ more.foldl (fun items key => bump key items) items, item.1 ∈ keys ∧ 0 < item.2 := by
    intro more
    induction more with
    | nil => exact fun _ _ given => given
    | cons key more ih =>
      intro items seen given
      obtain ⟨here, later⟩ := List.forall_mem_cons.mp seen
      exact ih _ later (forall_bump given here)
  exact step keys [] (fun _ seen => seen) (fun _ listed => nomatch listed) item member

/-! ## Sums over lists -/

/-- Counting adds one for each. -/
theorem countP_eq_sum (l : List ι) (p : ι → Bool) :
    l.countP p = (l.map fun x => if p x then 1 else 0).sum := by
  induction l with
  | nil => rfl
  | cons first l ih => rw [List.countP_cons, ih, List.map_cons, List.sum_cons, Nat.add_comm]

/-- One place of a list is changed. -/
theorem sum_map_set {l : List ι} (f : ι → Nat) {n : Nat} {old : ι} (here : l[n]? = some old)
    (new : ι) : ((l.set n new).map f).sum + f old = (l.map f).sum + f new := by
  induction l generalizing n with
  | nil => contradiction
  | cons first l ih =>
    cases n with
    | zero =>
      obtain rfl := Option.some.inj here
      simp only [List.set_cons_zero, List.map_cons, List.sum_cons]
      omega
    | succ n =>
      have later := ih here
      simp only [List.set_cons_succ, List.map_cons, List.sum_cons]
      omega

/-- One place is a part of the sum. -/
theorem le_sum_map {l : List ι} (f : ι → Nat) {n : Nat} {x : ι} (here : l[n]? = some x) :
    f x ≤ (l.map f).sum :=
  List.single_le_sum (fun _ _ => Nat.zero_le _) _
    (List.mem_map_of_mem (List.mem_of_getElem? here))

/-- Two places are a part of the sum. -/
theorem add_le_sum_map {l : List ι} (f : ι → Nat) {n m : Nat} {x y : ι} (here : l[n]? = some x)
    (there : l[m]? = some y) (apart : n ≠ m) : f x + f y ≤ (l.map f).sum := by
  induction l generalizing n m with
  | nil => contradiction
  | cons first l ih =>
    rw [List.map_cons, List.sum_cons]
    cases n with
    | zero =>
      obtain rfl := Option.some.inj here
      cases m with
      | zero => contradiction
      | succ m => exact Nat.add_le_add_left (le_sum_map (l := l) f there) _
    | succ n =>
      cases m with
      | zero =>
        obtain rfl := Option.some.inj there
        rw [Nat.add_comm]
        exact Nat.add_le_add_left (le_sum_map (l := l) f here) _
      | succ m =>
        have later := ih here there (fun same => apart (congrArg Nat.succ same))
        omega

/-- A sum in which only one place counts is the value at that place. -/
theorem sum_map_eq_single {l : List ι} (f : ι → Nat) {n : Nat} {x : ι} (here : l[n]? = some x)
    (others : ∀ m y, l[m]? = some y → m ≠ n → f y = 0) : (l.map f).sum = f x := by
  induction l generalizing n with
  | nil => contradiction
  | cons first l ih =>
    rw [List.map_cons, List.sum_cons]
    cases n with
    | zero =>
      obtain rfl := Option.some.inj here
      have rest : (l.map f).sum = 0 := by
        refine List.sum_eq_zero fun value listed => ?_
        obtain ⟨y, member, rfl⟩ := List.mem_map.mp listed
        obtain ⟨m, there⟩ := List.mem_iff_getElem?.mp member
        exact others (m + 1) y there (Nat.succ_ne_zero m)
      rw [rest, Nat.add_zero]
    | succ n =>
      rw [others 0 first rfl (Nat.succ_ne_zero n).symm, Nat.zero_add]
      exact ih here fun m y there apart =>
        others (m + 1) y there fun same => apart (Nat.succ.inj same)

/-- A sum that is not smaller than one that bounds it place by place has the same places. -/
theorem eq_of_sum_le {l : List ι} {f g : ι → Nat} (bounded : ∀ x ∈ l, f x ≤ g x)
    (total : (l.map g).sum ≤ (l.map f).sum) : ∀ x ∈ l, f x = g x := by
  induction l with
  | nil => exact fun _ member => nomatch member
  | cons first l ih =>
    obtain ⟨here, later⟩ := List.forall_mem_cons.mp bounded
    have rest : (l.map f).sum ≤ (l.map g).sum := List.sum_le_sum later
    simp only [List.map_cons, List.sum_cons] at total
    exact List.forall_mem_cons.mpr ⟨by omega, ih later (by omega)⟩

/-! ## Counting in groups -/

/-- The elements that fulfil a predicate are counted by groups: the counts of the groups that have
such an element. They add up to the right number when no other element is in such a group. -/
theorem sum_groups_eq_iff (l : List ι) (group : ι → κ) (p : ι → Bool) :
    ((((l.filter p).map group).dedup).map fun k => (l.map group).count k).sum = l.countP p ↔
      ∀ x ∈ l, ∀ y ∈ l, p x = true → group x = group y → p y = true := by
  let inGroup : κ → Bool := fun k => decide (k ∈ (l.filter p).map group)
  have order : ((l.filter p).map group).dedup.Perm ((l.map group).dedup.filter inGroup) := by
    refine (List.perm_ext_iff_of_nodup (List.nodup_dedup _)
      ((List.nodup_dedup _).filter _)).mpr fun k => ?_
    rw [List.mem_dedup, List.mem_filter, List.mem_dedup, decide_eq_true_iff]
    exact ⟨fun member => ⟨(List.filter_sublist.map group).subset member, member⟩, And.right⟩
  have counted : ((((l.filter p).map group).dedup).map fun k => (l.map group).count k).sum =
      l.countP (inGroup ∘ group) := by
    rw [(order.map _).sum_eq, List.sum_map_count_dedup_filter_eq_countP, List.countP_map]
  have fulfilled : ∀ x ∈ l, p x = true → (inGroup ∘ group) x = true := by
    intro x member fulfils
    exact decide_eq_true (List.mem_map_of_mem (List.mem_filter.mpr ⟨member, fulfils⟩))
  rw [counted]
  constructor
  · intro same x here y there fulfils alike
    have sublist : (l.filter p).Sublist (l.filter (inGroup ∘ group)) := by
      have both : (l.filter (inGroup ∘ group)).filter p = l.filter p := by
        rw [List.filter_filter]
        refine List.filter_congr fun z listed => ?_
        cases found : p z with
        | false => rfl
        | true => exact fulfilled z listed found
      exact both ▸ List.filter_sublist
    rw [List.countP_eq_length_filter, List.countP_eq_length_filter] at same
    have grouped : y ∈ l.filter (inGroup ∘ group) :=
      List.mem_filter.mpr ⟨there, decide_eq_true (List.mem_map.mpr
        ⟨x, List.mem_filter.mpr ⟨here, fulfils⟩, alike⟩)⟩
    rw [← sublist.eq_of_length same.symm] at grouped
    exact (List.mem_filter.mp grouped).2
  · intro closed
    refine List.countP_congr fun y there => ⟨fun grouped => ?_, fulfilled y there⟩
    obtain ⟨x, listed, alike⟩ := List.mem_map.mp (of_decide_eq_true grouped)
    obtain ⟨here, fulfils⟩ := List.mem_filter.mp listed
    exact closed x here y there fulfils alike

end Copr.Tallies
