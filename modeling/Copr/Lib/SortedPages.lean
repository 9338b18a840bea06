import Mathlib.Data.List.Basic
import Mathlib.Data.List.Nodup
import Mathlib.Data.List.Perm.Basic
import Mathlib.Data.Nat.Basic
import Mathlib.Order.Lattice

/-!
# Pages of sorted rows

A statement with `ORDER BY`, `LIMIT` and `OFFSET` returns a window of its rows in some order that
the criteria allow: rows that are equal for all of them may come in any order. A criterion is a
total preorder, several of them are one criterion, and no criterion at all is the one for which all
rows are equal.
-/

namespace Copr.SortedPages

variable {α : Type*}

/-- What rows are sorted by. -/
@[ext]
structure Criterion (α : Type*) where
  /-- The first row may come before the second. -/
  le : α → α → Bool
  /-- Any two rows can be compared. -/
  total : ∀ a b, (le a b || le b a) = true
  /-- The comparison is transitive. -/
  trans : ∀ a b c, le a b = true → le b c = true → le a c = true

namespace Criterion

/-- All rows are equal. -/
def none : Criterion α where
  le _ _ := true
  total _ _ := rfl
  trans _ _ _ _ _ := rfl

/-- Of any two rows, one is not higher. -/
theorem total_key {κ : Type*} [LinearOrder κ] (key : α → κ) (a b : α) :
    (decide (key a ≤ key b) || decide (key b ≤ key a)) = true := by
  rw [Bool.or_eq_true, decide_eq_true_eq, decide_eq_true_eq]
  exact le_total (key a) (key b)

/-- What is not higher than something that is not higher. -/
theorem trans_key {κ : Type*} [LinearOrder κ] (key : α → κ) (a b c : α)
    (first : decide (key a ≤ key b) = true) (second : decide (key b ≤ key c) = true) :
    decide (key a ≤ key c) = true :=
  decide_eq_true ((of_decide_eq_true first).trans (of_decide_eq_true second))

/-- Ascending values of a column. -/
def ascending {κ : Type*} [LinearOrder κ] (key : α → κ) : Criterion α where
  le a b := decide (key a ≤ key b)
  total := total_key key
  trans := trans_key key

variable (c d : Criterion α)

/-- Any two rows can be compared the other way. -/
theorem total_descending (a b : α) : (c.le b a || c.le a b) = true := c.total b a

/-- The comparison is transitive the other way. -/
theorem trans_descending (x y z : α) (first : c.le y x = true) (second : c.le z y = true) :
    c.le z x = true := c.trans z y x second first

/-- The opposite direction. -/
def descending : Criterion α where
  le a b := c.le b a
  total := c.total_descending
  trans := c.trans_descending

/-- Compare by the first criterion, then by the second. -/
def leThen (a b : α) : Bool := c.le a b && (!c.le b a || d.le a b)

/-- Any two rows can be compared. -/
theorem total_leThen (a b : α) : (c.leThen d a b || c.leThen d b a) = true := by
  have first := c.total a b
  have second := d.total a b
  simp only [leThen, Bool.or_eq_true, Bool.and_eq_true, Bool.not_eq_true'] at first second ⊢
  cases there : c.le a b with
  | false => exact Or.inr ⟨first.resolve_left (by simp [there]), Or.inl rfl⟩
  | true =>
    cases back : c.le b a with
    | false => exact Or.inl ⟨rfl, Or.inl rfl⟩
    | true => exact second.imp (fun le => ⟨rfl, Or.inr le⟩) fun le => ⟨rfl, Or.inr le⟩

/-- The comparison is transitive. -/
theorem trans_leThen (x y z : α) (first : c.leThen d x y = true)
    (second : c.leThen d y z = true) : c.leThen d x z = true := by
  simp only [leThen, Bool.and_eq_true, Bool.or_eq_true, Bool.not_eq_true'] at first second ⊢
  refine ⟨c.trans x y z first.1 second.1, ?_⟩
  cases back : c.le z x with
  | false => exact Or.inl rfl
  | true =>
    -- The three rows are equal for the first criterion.
    have yx := c.trans y z x second.1 back
    have zy := c.trans z x y back first.1
    rw [yx] at first
    rw [zy] at second
    exact Or.inr (d.trans x y z (first.2.resolve_left (by simp)) (second.2.resolve_left (by simp)))

/-- The second criterion decides among rows that are equal for the first. -/
def andThen : Criterion α where
  le := c.leThen d
  total := c.total_leThen d
  trans := c.trans_leThen d

/-- Several criteria, the first of them before the others. -/
def all (criteria : List (Criterion α)) : Criterion α := criteria.foldr andThen none

variable {c d}

/-- A last criterion decides when all the others do not. -/
theorem all_concat (criteria : List (Criterion α)) (last : Criterion α) :
    all (criteria ++ [last]) = (all criteria).andThen last := by
  induction criteria with
  | nil =>
    ext a b
    simp [all, andThen, leThen, none]
  | cons c criteria ih =>
    have step : all (c :: criteria ++ [last]) = c.andThen ((all criteria).andThen last) :=
      congrArg c.andThen ih
    rw [step]
    ext a b
    simp only [all, List.foldr_cons, andThen, leThen]
    cases c.le a b <;> cases c.le b a <;> simp

end Criterion

variable (c d : Criterion α)

/-- The rows are sorted. -/
def Sorted (rows : List α) : Prop := rows.Pairwise fun a b => c.le a b = true

instance (rows : List α) : Decidable (Sorted c rows) :=
  inferInstanceAs (Decidable (List.Pairwise _ rows))

/-- The rows between an offset and a limit. -/
def window (limit : Option Nat) (offset : Nat) (rows : List α) : List α :=
  match limit with
  | .none => rows.drop offset
  | some n => (rows.drop offset).take n

/-- A statement may return these rows. -/
def Outcome (limit : Option Nat) (offset : Nat) (rows result : List α) : Prop :=
  ∃ p, p.Perm rows ∧ Sorted c p ∧ result = window limit offset p

/-- No two of the rows are equal. -/
def Distinguishes (rows : List α) : Prop :=
  ∀ x ∈ rows, ∀ y ∈ rows, c.le x y = true → c.le y x = true → x = y

variable {c d} {rows p q result : List α} {limit : Option Nat} {offset : Nat} {x y : α}

/-! ## Sorting -/

/-- Any rows can be sorted by a criterion. -/
theorem exists_sorted (c : Criterion α) (rows : List α) : ∃ p, p.Perm rows ∧ Sorted c p :=
  ⟨rows.mergeSort c.le, rows.mergeSort_perm c.le,
    List.pairwise_mergeSort c.trans c.total rows⟩

/-- Two rows that are not in order cannot stand in this order. -/
theorem not_before (sorted : Sorted c p) (nodup : p.Nodup) (inX : x ∈ p) (inY : y ∈ p)
    (different : x ≠ y) (strict : c.le x y = false) : [y, x].Sublist p := by
  induction p with
  | nil => contradiction
  | cons a p ih =>
    have order := List.pairwise_cons.mp sorted
    rcases List.mem_cons.mp inX with rfl | laterX
    · rcases List.mem_cons.mp inY with rfl | laterY
      · exact absurd rfl different
      · have le := order.1 y laterY
        rw [strict] at le
        contradiction
    · rcases List.mem_cons.mp inY with rfl | laterY
      · exact (List.singleton_sublist.mpr laterX).cons_cons y
      · exact (ih order.2 (List.nodup_cons.mp nodup).2 laterX laterY).cons a

/-- Rows that are distinguished are sorted in one way. -/
theorem sorted_unique (apart : Distinguishes c rows) (permP : p.Perm rows) (permQ : q.Perm rows)
    (sortedP : Sorted c p) (sortedQ : Sorted c q) : p = q := by
  have orderP : p.Pairwise fun a b => c.le a b = true := sortedP
  have orderQ : q.Pairwise fun a b => c.le a b = true := sortedQ
  refine List.Perm.eq_of_pairwise ?_ orderP orderQ (permP.trans permQ.symm)
  intro a b inP inQ first second
  exact apart a (permP.mem_iff.mp inP) b (permQ.mem_iff.mp inQ) first second

/-- A row, before those that are equal to it. -/
def favourite [DecidableEq α] (y : α) : Criterion α :=
  Criterion.ascending fun a => if a = y then 0 else 1

/-- A row that may come first does come first in some order. -/
theorem exists_sorted_before (nodup : rows.Nodup) (inX : x ∈ rows) (inY : y ∈ rows)
    (different : x ≠ y) (le : c.le y x = true) :
    ∃ p, p.Perm rows ∧ Sorted c p ∧ [y, x].Sublist p := by
  classical
  obtain ⟨p, perm, sorted⟩ := exists_sorted (c.andThen (favourite y)) rows
  refine ⟨p, perm, sorted.imp fun both => (Bool.and_eq_true_iff.mp both).1, ?_⟩
  refine not_before sorted (perm.nodup_iff.mpr nodup) (perm.mem_iff.mpr inX)
    (perm.mem_iff.mpr inY) different ?_
  simp [Criterion.andThen, Criterion.leThen, le, favourite, Criterion.ascending, different]

/-- Rows that are sorted by the first criterion are sorted by both, if the second one agrees where
the first one does not decide. -/
theorem sorted_andThen (sorted : Sorted c p) (agree : ∀ x ∈ p, ∀ y ∈ p, c.le x y = true →
    c.le y x = true → d.le x y = true) : Sorted (c.andThen d) p := by
  refine List.Pairwise.imp_of_mem ?_ sorted
  intro a b inA inB le
  simp only [Criterion.andThen, Criterion.leThen, Bool.and_eq_true, Bool.or_eq_true,
    Bool.not_eq_true']
  refine ⟨le, ?_⟩
  cases back : c.le b a with
  | false => exact Or.inl rfl
  | true => exact Or.inr (agree a inA b inB le back)

/-- Rows that are sorted by both criteria are sorted by the first. -/
theorem Sorted.of_andThen (sorted : Sorted (c.andThen d) p) : Sorted c p :=
  sorted.imp fun both => (Bool.and_eq_true_iff.mp both).1

/-- Among rows that are equal for the first criterion, the second one decides. -/
theorem Sorted.ties (sorted : Sorted (c.andThen d) p) (before : [x, y].Sublist p)
    (back : c.le y x = true) : d.le x y = true := by
  have pair := List.pairwise_cons.mp (List.Pairwise.sublist before sorted)
  have le := pair.1 y List.mem_cons_self
  simp only [Criterion.andThen, Criterion.leThen, Bool.and_eq_true, Bool.or_eq_true,
    Bool.not_eq_true'] at le
  exact le.2.resolve_left (by simp [back])

/-! ## Windows -/

/-- Rows before the window, the window, and the rows after it. -/
theorem window_split (limit : Option Nat) (offset : Nat) (p : List α) :
    ∃ before after, p = before ++ window limit offset p ++ after ∧
      ∀ q, q.length = (window limit offset p).length →
        window limit offset (before ++ q ++ after) = q := by
  cases limit with
  | none =>
    refine ⟨p.take offset, [], by simp [window], fun q same => ?_⟩
    by_cases inside : offset ≤ p.length
    · simp [window, inside]
    · have none : q = [] := List.length_eq_zero_iff.mp (by rw [same]; simp [window]; omega)
      subst none
      simp only [window, List.append_nil]
      rw [List.drop_eq_nil_iff, List.length_take]
      omega
  | some n =>
    refine ⟨p.take offset, (p.drop offset).drop n, ?_, fun q same => ?_⟩
    · simp only [window, List.append_assoc, List.take_append_drop]
    by_cases inside : offset ≤ p.length
    · have begins : (p.take offset ++ q ++ (p.drop offset).drop n).drop offset =
          q ++ (p.drop offset).drop n := by
        rw [List.append_assoc, List.drop_append]
        simp [inside]
      simp only [window] at same ⊢
      rw [begins]
      rw [List.length_take] at same
      by_cases short : n ≤ (p.drop offset).length
      · rw [List.take_append_of_le_length (by omega), List.take_of_length_le (by omega)]
      · rw [List.drop_eq_nil_iff.mpr (by omega), List.append_nil,
          List.take_of_length_le (by omega)]
    · have empty : p.drop offset = [] := List.drop_eq_nil_iff.mpr (by omega)
      have none : q = [] := by
        refine List.length_eq_zero_iff.mp ?_
        rw [same]
        simp [window, empty]
      subst none
      simp only [window, empty, List.append_nil, List.drop_nil]
      rw [List.take_eq_nil_iff]
      refine Or.inr (List.drop_eq_nil_iff.mpr ?_)
      rw [List.length_take]
      omega

/-- The rows in the window may change their places as far as the order allows. -/
theorem Outcome.rearrange (outcome : Outcome c limit offset rows result) (perm : q.Perm result)
    (sorted : Sorted c q) : Outcome c limit offset rows q := by
  obtain ⟨p, permP, sortedP, rfl⟩ := outcome
  obtain ⟨before, after, split, replaced⟩ := window_split limit offset p
  have permQ : (before ++ q ++ after).Perm p := by
    conv_rhs => rw [split]
    exact ((perm.append_left before).append_right after)
  refine ⟨before ++ q ++ after, permQ.trans permP, ?_, (replaced q perm.length_eq).symm⟩
  rw [split] at sortedP
  have outer := List.pairwise_append.mp sortedP
  have inner := List.pairwise_append.mp outer.1
  refine List.pairwise_append.mpr ⟨List.pairwise_append.mpr ⟨inner.1, sorted, ?_⟩, outer.2.1, ?_⟩
  · exact fun a inBefore b inQ => inner.2.2 a inBefore b (perm.mem_iff.mp inQ)
  · intro a inside b inAfter
    refine outer.2.2 a ?_ b inAfter
    rcases List.mem_append.mp inside with first | second
    · exact List.mem_append_left _ first
    · exact List.mem_append_right _ (perm.mem_iff.mp second)

/-- The rows that a statement returns are sorted. -/
theorem Outcome.sorted (outcome : Outcome c limit offset rows result) : Sorted c result := by
  obtain ⟨p, -, sortedP, rfl⟩ := outcome
  obtain ⟨before, after, split, -⟩ := window_split limit offset p
  have whole := split ▸ sortedP
  exact (List.pairwise_append.mp (List.pairwise_append.mp whole).1).2.1

/-- A statement returns rows of its own. -/
theorem Outcome.subperm (outcome : Outcome c limit offset rows result) :
    result.Subperm rows := by
  obtain ⟨p, permP, -, rfl⟩ := outcome
  obtain ⟨before, after, split, -⟩ := window_split limit offset p
  refine List.Subperm.trans (List.Sublist.subperm ?_) permP.subperm
  conv_rhs => rw [split]
  exact (List.sublist_append_right before _).trans (List.sublist_append_left _ after)

/-- A statement returns something. -/
theorem exists_outcome (c : Criterion α) (limit : Option Nat) (offset : Nat) (rows : List α) :
    ∃ result, Outcome c limit offset rows result := by
  obtain ⟨p, perm, sorted⟩ := exists_sorted c rows
  exact ⟨window limit offset p, p, perm, sorted, rfl⟩

/-- The number of rows that a statement returns. -/
theorem Outcome.length_eq (outcome : Outcome c limit offset rows result) :
    result.length = (window limit offset rows).length := by
  obtain ⟨p, perm, -, rfl⟩ := outcome
  cases limit <;> simp [window, perm.length_eq]

/-- The pages of a list, one after another, are the list. -/
theorem flatten_pages (n : Nat) (p : List α) (count : Nat) :
    ((List.range count).map fun k => window (some n) (k * n) p).flatten = p.take (count * n) := by
  induction count with
  | zero => simp
  | succ count ih =>
    rw [List.range_succ, List.map_append, List.flatten_append, ih, Nat.succ_mul, List.take_add]
    simp [window]

/-- Pages that are together a list and have the sizes of its pages are its pages. -/
theorem page_eq {pages : Nat → List α} {n count k : Nat}
    (whole : ((List.range count).map pages).flatten = p.take (count * n))
    (sizes : ∀ k, (pages k).length = (window (some n) (k * n) p).length) (inside : k < count) :
    pages k = window (some n) (k * n) p := by
  have same : (List.range count).map pages =
      (List.range count).map fun k => window (some n) (k * n) p := by
    rw [List.eq_iff_flatten_eq, flatten_pages]
    refine ⟨whole, ?_⟩
    rw [List.map_map, List.map_map]
    exact List.map_congr_left fun k _ => sizes k
  exact List.map_inj_left.mp same k (List.mem_range.mpr inside)

/-! ## Pages that are filtered afterwards -/

section Filtered

variable (keep : α → Bool) (n : Nat)

/-- A page for which the offset counts all rows, but the limit only those that are kept. -/
def filteredPage (k : Nat) (rows : List α) : List α :=
  ((rows.drop (k * n)).filter keep).take n

/-- Of the rows on this page all are kept, or none is kept after them. -/
def KeptOrLast (k : Nat) (rows : List α) : Prop :=
  (∀ row ∈ window (some n) (k * n) rows, keep row = true) ∨
    ∀ row ∈ rows.drop ((k + 1) * n), keep row = false

variable {keep n} {k count : Nat}

/-- The rows from an offset on: those within the limit, then the others. -/
theorem drop_eq_window (n k : Nat) (rows : List α) :
    rows.drop (k * n) = window (some n) (k * n) rows ++ rows.drop ((k + 1) * n) := by
  have next : rows.drop ((k + 1) * n) = (rows.drop (k * n)).drop n := by
    rw [List.drop_drop, Nat.succ_mul]
  rw [next]
  exact (List.take_append_drop n (rows.drop (k * n))).symm

/-- A page has what is kept within the limit, and is filled up from the rows after it. -/
theorem filteredPage_eq (keep : α → Bool) (n k : Nat) (rows : List α) :
    filteredPage keep n k rows = (window (some n) (k * n) rows).filter keep ++
      ((rows.drop ((k + 1) * n)).filter keep).take
        (n - ((window (some n) (k * n) rows).filter keep).length) := by
  have short : ((window (some n) (k * n) rows).filter keep).length ≤ n :=
    (List.length_filter_le keep _).trans (List.length_take_le n _)
  rw [filteredPage, drop_eq_window, List.filter_append, List.take_append,
    List.take_of_length_le short]

/-- Nothing is filled up exactly when all rows within the limit are kept, or none after them. -/
theorem filled_eq_nil_iff : ((rows.drop ((k + 1) * n)).filter keep).take
      (n - ((window (some n) (k * n) rows).filter keep).length) = [] ↔
    KeptOrLast keep n k rows := by
  have none_iff : (rows.drop ((k + 1) * n)).filter keep = [] ↔
      ∀ row ∈ rows.drop ((k + 1) * n), keep row = false := by
    simp [List.filter_eq_nil_iff]
  have all_iff : ((window (some n) (k * n) rows).filter keep).length =
      (window (some n) (k * n) rows).length ↔
        ∀ row ∈ window (some n) (k * n) rows, keep row = true := List.length_filter_eq_length_iff
  have size : (window (some n) (k * n) rows).length = min n (rows.length - k * n) := by
    simp [window]
  rw [List.take_eq_nil_iff, none_iff, KeptOrLast, ← all_iff]
  constructor
  · rintro (full | last)
    · refine Or.inl (Nat.le_antisymm (List.length_filter_le keep _) ?_)
      omega
    · exact Or.inr last
  · rintro (kept | last)
    · by_cases whole : n ≤ rows.length - k * n
      · exact Or.inl (by omega)
      · -- The page is the last one.
        refine Or.inr fun row member => ?_
        rw [List.drop_eq_nil_iff.mpr (by rw [Nat.succ_mul]; omega)] at member
        contradiction
    · exact Or.inr last

/-- The pages of a list, each filtered alone, are together what is kept. -/
theorem flatten_filtered (enough : rows.length ≤ count * n) :
    ((List.range count).map fun k => (window (some n) (k * n) rows).filter keep).flatten =
      rows.filter keep := by
  have whole := flatten_pages n rows count
  rw [List.take_of_length_le enough] at whole
  conv_rhs => rw [← whole]
  rw [List.filter_flatten, List.map_map]
  rfl

/-- Prefixes of lists are together not longer than the lists. -/
theorem length_firsts_le (first added : Nat → List α) (count : Nat) :
    ((List.range count).map first).flatten.length ≤
      ((List.range count).map fun k => first k ++ added k).flatten.length := by
  induction count with
  | zero => simp
  | succ count ih =>
    simp only [List.range_succ, List.map_append, List.flatten_append, List.length_append,
      List.map_cons, List.map_nil, List.flatten_cons, List.flatten_nil, List.length_nil]
    omega

/-- Lists that are together as long as prefixes of them are these prefixes. -/
theorem appended_eq_nil {first added : Nat → List α}
    (same : ((List.range count).map fun k => first k ++ added k).flatten.length =
      ((List.range count).map first).flatten.length) (inside : k < count) : added k = [] := by
  induction count with
  | zero => contradiction
  | succ count ih =>
    have le := length_firsts_le first added count
    simp only [List.range_succ, List.map_append, List.flatten_append, List.length_append,
      List.map_cons, List.map_nil, List.flatten_cons, List.flatten_nil, List.length_nil] at same
    by_cases last : k = count
    · subst last
      exact List.length_eq_zero_iff.mp (by omega)
    · exact ih (by omega) (by omega)

/-- The pages are together what is kept exactly if on each of them all rows are kept, or none is
after it. -/
theorem filteredPages_iff (enough : rows.length ≤ count * n) :
    ((List.range count).map fun k => filteredPage keep n k rows).flatten.Perm
      (rows.filter keep) ↔ ∀ k, KeptOrLast keep n k rows := by
  simp only [filteredPage_eq]
  constructor
  · intro perm k
    have same := perm.length_eq
    conv_rhs at same => rw [← flatten_filtered enough]
    by_cases inside : k < count
    · exact filled_eq_nil_iff.mp (appended_eq_nil same inside)
    · refine Or.inr fun row member => ?_
      have beyond : rows.length ≤ (k + 1) * n :=
        enough.trans (Nat.mul_le_mul_right n (by omega))
      rw [List.drop_eq_nil_iff.mpr beyond] at member
      contradiction
  · intro fits
    have alone : ∀ k, ((rows.drop ((k + 1) * n)).filter keep).take
        (n - ((window (some n) (k * n) rows).filter keep).length) = [] :=
      fun k => filled_eq_nil_iff.mpr (fits k)
    simp only [alone, List.append_nil]
    rw [flatten_filtered enough]

end Filtered

end Copr.SortedPages
