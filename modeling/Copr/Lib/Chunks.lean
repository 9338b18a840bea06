import Mathlib.Data.List.Basic
import Mathlib.Tactic.Common

/-!
# Lists in chunks

A list is cut into chunks of a size, and the last chunk may be shorter. A loop over the chunks that
stops at the first one with an unfit element leaves the elements from that chunk on.
-/

namespace Copr.Chunks

variable {α : Type*}

/-- The list in chunks of `n` elements. -/
def batched (n : Nat) (l : List α) : List (List α) :=
  (List.range ((l.length + n - 1) / n)).map fun k => (l.drop (k * n)).take n

/-- The elements from the first chunk on in which `p` fails somewhere. -/
def remaining (n : Nat) (p : α → Bool) (l : List α) : List α :=
  ((batched n l).dropWhile fun chunk => chunk.all p).flatten

variable {n : Nat} {p : α → Bool} {l : List α}

/-- The empty list has no chunks. -/
theorem batched_nil (positive : 0 < n) : batched n ([] : List α) = [] := by
  have none : (([] : List α).length + n - 1) / n = 0 := by
    rw [List.length_nil]
    exact Nat.div_eq_of_lt (by omega)
  rw [batched, none]
  rfl

/-- The first chunk, and the chunks of what follows. -/
theorem batched_of_ne_nil (positive : 0 < n) (occupied : l ≠ []) :
    batched n l = l.take n :: batched n (l.drop n) := by
  have length := List.length_pos_of_ne_nil occupied
  have count : (l.length + n - 1) / n = ((l.drop n).length + n - 1) / n + 1 := by
    rw [List.length_drop, ← Nat.add_div_right _ positive]
    by_cases long : n ≤ l.length
    · congr 1
      omega
    · rw [Nat.div_eq_of_lt_le (m := l.length + n - 1) (k := 1) (by omega) (by omega),
        Nat.div_eq_of_lt_le (k := 1) (by omega) (by omega)]
  rw [batched, batched, count, List.range_succ_eq_map, List.map_cons, List.map_map]
  congr 1
  · rw [Nat.zero_mul, List.drop_zero]
  · refine List.map_congr_left fun k _ => ?_
    rw [Function.comp_apply, List.drop_drop, Nat.succ_mul, Nat.add_comm]

/-- The chunks are the list. -/
theorem flatten_batched (positive : 0 < n) : (batched n l).flatten = l := by
  induction total : l.length using Nat.strongRecOn generalizing l with
  | _ size ih =>
    by_cases empty : l = []
    · rw [empty, batched_nil positive]
      rfl
    · have length := List.length_pos_of_ne_nil empty
      have less : (l.drop n).length < size := by
        rw [List.length_drop]
        omega
      rw [batched_of_ne_nil positive empty, List.flatten_cons, ih _ less rfl,
        List.take_append_drop]

/-- Without the elements of the first chunk, what follows it is left. -/
theorem filter_first (distinct : l.Nodup) (q : α → Bool) (removed : ∀ a ∈ l.take n, q a = false)
    (kept : ∀ a ∈ l, a ∉ l.take n → q a = true) : l.filter q = l.drop n := by
  have apart := List.disjoint_take_drop distinct (Nat.le_refl n)
  have first : (l.take n).filter q = [] := by
    rw [List.filter_eq_nil_iff]
    intro a member unremoved
    rw [removed a member] at unremoved
    contradiction
  have rest : (l.drop n).filter q = l.drop n := by
    rw [List.filter_eq_self]
    intro a member
    exact kept a (List.mem_of_mem_drop member) fun early => apart early member
  have whole : l.filter q = (l.take n).filter q ++ (l.drop n).filter q := by
    rw [← List.filter_append, List.take_append_drop]
  rw [whole, first, rest]
  rfl

/-- The chunks of the images. -/
theorem batched_map {β : Type*} (f : α → β) :
    batched n (l.map f) = (batched n l).map (List.map f) := by
  rw [batched, batched, List.length_map, List.map_map]
  refine List.map_congr_left fun k _ => ?_
  rw [Function.comp_apply, ← List.map_drop, ← List.map_take]

/-- A first chunk that fits is left behind. -/
theorem remaining_of_all (positive : 0 < n) (fits : (l.take n).all p = true) :
    remaining n p l = remaining n p (l.drop n) := by
  by_cases empty : l = []
  · rw [empty, List.drop_nil]
  · rw [remaining, batched_of_ne_nil positive empty, List.dropWhile_cons, if_pos fits]
    rfl

/-- Everything remains when the first chunk does not fit. -/
theorem remaining_of_not_all (positive : 0 < n) (unfit : (l.take n).all p = false) :
    remaining n p l = l := by
  have occupied : l ≠ [] := by
    rintro rfl
    rw [List.take_nil] at unfit
    contradiction
  have stops : ¬ (l.take n).all p = true := by simp [unfit]
  have whole := flatten_batched positive (l := l)
  rw [batched_of_ne_nil positive occupied] at whole
  rw [remaining, batched_of_ne_nil positive occupied, List.dropWhile_cons, if_neg stops, whole]

/-- Nothing remains of the empty list. -/
theorem remaining_nil (positive : 0 < n) : remaining n p [] = [] := by
  rw [remaining, batched_nil positive]
  rfl

/-- The remaining elements are the end of the list. -/
theorem remaining_spec (positive : 0 < n) :
    (∃ gone, l = gone ++ remaining n p l ∧ gone.all p = true) ∧
      (remaining n p l ≠ [] → ((remaining n p l).take n).all p = false) := by
  induction total : l.length using Nat.strongRecOn generalizing l with
  | _ size ih =>
    by_cases empty : l = []
    · rw [empty, remaining_nil positive]
      exact ⟨⟨[], rfl, rfl⟩, fun occupied => absurd rfl occupied⟩
    · cases fits : (l.take n).all p with
      | false =>
        rw [remaining_of_not_all positive fits]
        exact ⟨⟨[], rfl, rfl⟩, fun _ => fits⟩
      | true =>
        have length := List.length_pos_of_ne_nil empty
        have less : (l.drop n).length < size := by
          rw [List.length_drop]
          omega
        obtain ⟨⟨gone, whole, all⟩, first⟩ := ih _ less rfl
        rw [remaining_of_all positive fits]
        refine ⟨⟨l.take n ++ gone, ?_, ?_⟩, first⟩
        · rw [List.append_assoc, ← whole, List.take_append_drop]
        · rw [List.all_append, fits, all]
          rfl

/-- What remains of the remaining elements is the same. -/
theorem remaining_remaining (positive : 0 < n) :
    remaining n p (remaining n p l) = remaining n p l := by
  by_cases empty : remaining n p l = []
  · rw [empty, remaining_nil positive]
  · exact remaining_of_not_all positive ((remaining_spec positive).2 empty)

/-- Nothing remains when all elements fit. -/
theorem remaining_eq_nil (positive : 0 < n) : remaining n p l = [] ↔ l.all p = true := by
  obtain ⟨⟨gone, whole, all⟩, first⟩ := remaining_spec (l := l) (p := p) positive
  constructor
  · intro empty
    rw [whole, empty, List.append_nil]
    exact all
  · intro fit
    by_contra occupied
    have unfit := first occupied
    rw [whole, List.all_append, Bool.and_eq_true] at fit
    rw [List.all_eq_true] at fit
    have taken : ((remaining n p l).take n).all p = true :=
      List.all_eq_true.mpr fun a member =>
        List.all_eq_true.mp fit.2 a (List.mem_of_mem_take member)
    rw [taken] at unfit
    contradiction

/-- Everything remains unless the first chunk fits. -/
theorem remaining_eq_self (positive : 0 < n) (occupied : l ≠ []) :
    remaining n p l = l ↔ (l.take n).all p = false := by
  constructor
  · intro same
    have first := (remaining_spec (p := p) (l := l) positive).2
    rw [same] at first
    exact first occupied
  · exact remaining_of_not_all positive

end Copr.Chunks
