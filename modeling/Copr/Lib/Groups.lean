import Mathlib.Data.List.Induction
import Mathlib.Data.List.Nodup
import Mathlib.Order.Lattice

/-!
# Groups of a sorted stream

Rows come sorted by a key, and those of one key form a group. Of a group only the first row with
each label is kept. A reader that holds the last group and appends the next row to it, or begins
another group, has at any time grouped the rows that have come.
-/

namespace Copr.Groups

variable {ε κ δ : Type*} [DecidableEq δ]

/-- The first row with each label. -/
def firsts (label : ε → δ) (rows : List ε) : List ε :=
  rows.foldl (fun found r => if label r ∈ found.map label then found else found ++ [r]) []

section Firsts

variable (label : ε → δ) {rows : List ε} {r b : ε}

/-- One more row is kept exactly when its label is new. -/
theorem firsts_concat (rows : List ε) (r : ε) : firsts label (rows ++ [r]) =
    if label r ∈ (firsts label rows).map label then firsts label rows
    else firsts label rows ++ [r] := by
  rw [firsts, List.foldl_append]
  rfl

/-- The rows that are kept are rows of the list. -/
theorem firsts_subset : firsts label rows ⊆ rows := by
  induction rows using List.reverseRecOn with
  | nil => exact List.Subset.refl []
  | append_singleton rows r ih =>
    rw [firsts_concat]
    split
    · exact fun b member => List.mem_append_left _ (ih member)
    · intro b member
      rcases List.mem_append.mp member with old | new
      · exact List.mem_append_left _ (ih old)
      · exact List.mem_append_right _ new

/-- There is one row for each label. -/
theorem firsts_nodup : ((firsts label rows).map label).Nodup := by
  induction rows using List.reverseRecOn with
  | nil => exact List.nodup_nil
  | append_singleton rows r ih =>
    rw [firsts_concat]
    split
    · exact ih
    · rename_i fresh
      rw [List.map_append]
      exact List.Nodup.append ih (List.nodup_singleton _) (List.disjoint_singleton.mpr fresh)

/-- The label of every row is the label of a row that is kept. -/
theorem label_mem_firsts (member : r ∈ rows) : label r ∈ (firsts label rows).map label := by
  induction rows using List.reverseRecOn with
  | nil => contradiction
  | append_singleton rows last ih =>
    rw [firsts_concat]
    rcases List.mem_append.mp member with old | new
    · split
      · exact ih old
      · rw [List.map_append]
        exact List.mem_append_left _ (ih old)
    · obtain rfl := List.mem_singleton.mp new
      split
      · rename_i known
        exact known
      · rw [List.map_append]
        exact List.mem_append_right _ (List.mem_singleton_self _)

/-- A kept row comes before the others with its label. -/
theorem firsts_first {before : ε → ε → Prop} (sorted : rows.Pairwise before)
    (kept : b ∈ firsts label rows) (member : r ∈ rows) (same : label r = label b) :
    r = b ∨ before b r := by
  induction rows using List.reverseRecOn with
  | nil => contradiction
  | append_singleton rows last ih =>
    have order := List.pairwise_append.mp sorted
    rw [firsts_concat] at kept
    by_cases known : label last ∈ (firsts label rows).map label
    · rw [if_pos known] at kept
      rcases List.mem_append.mp member with old | new
      · exact ih order.1 kept old
      · exact Or.inr (order.2.2 b (firsts_subset label kept) r new)
    · rw [if_neg known] at kept
      rcases List.mem_append.mp kept with keptOld | keptNew
      · rcases List.mem_append.mp member with old | new
        · exact ih order.1 keptOld old
        · exact Or.inr (order.2.2 b (firsts_subset label keptOld) r new)
      · rcases List.mem_append.mp member with old | new
        · refine absurd ?_ known
          rw [← List.mem_singleton.mp keptNew, ← same]
          exact label_mem_firsts label old
        · exact Or.inl ((List.mem_singleton.mp new).trans (List.mem_singleton.mp keptNew).symm)

end Firsts

variable [LinearOrder κ] (key : ε → κ) (label : ε → δ)

/-- The groups are those of the rows: in the order of their keys, each with its first rows. -/
structure Grouped (rows : List ε) (groups : List (κ × List ε)) : Prop where
  /-- The keys rise. -/
  rise : (groups.map Prod.fst).Pairwise (· < ·)
  /-- The group of each key. -/
  group : ∀ k kept, (k, kept) ∈ groups ↔
    (∃ r ∈ rows, key r = k) ∧ kept = firsts label (rows.filter fun r => key r = k)

variable {key label} {rows : List ε} {groups : List (κ × List ε)} {r : ε} {kept : List ε}

/-- There are no groups without rows. -/
theorem grouped_nil : Grouped key label [] [] where
  rise := List.Pairwise.nil
  group k kept := by simp

/-- A row with a higher key begins a group. -/
theorem Grouped.begin (grouped : Grouped key label rows groups)
    (higher : ∀ s ∈ rows, key s < key r) :
    Grouped key label (rows ++ [r]) (groups ++ [(key r, [r])]) := by
  have none_ : rows.filter (fun s => key s = key r) = [] := by
    refine List.filter_eq_nil_iff.mpr fun s member => ?_
    rw [decide_eq_true_eq]
    exact (higher s member).ne
  refine ⟨?_, ?_⟩
  · rw [List.map_append, List.pairwise_append]
    refine ⟨grouped.rise, List.pairwise_singleton _ _, ?_⟩
    intro k inGroups l last
    obtain ⟨⟨k', kept⟩, member, rfl⟩ := List.mem_map.mp inGroups
    obtain ⟨⟨s, inRows, same⟩, -⟩ := (grouped.group k' kept).mp member
    rw [List.mem_singleton.mp last, ← same]
    exact higher s inRows
  · intro k kept
    rw [List.mem_append, List.mem_singleton, Prod.mk.injEq, grouped.group, List.filter_append]
    by_cases same : k = key r
    · subst same
      have unused : ¬ ∃ s ∈ rows, key s = key r := by
        rintro ⟨s, member, equal⟩
        exact (higher s member).ne equal
      rw [none_]
      simp [unused, firsts]
    · have other : ¬ key r = k := fun equal => same equal.symm
      have rowsIff : (∃ s ∈ rows ++ [r], key s = k) ↔ ∃ s ∈ rows, key s = k := by
        constructor
        · rintro ⟨s, member, equal⟩
          rcases List.mem_append.mp member with old | new
          · exact ⟨s, old, equal⟩
          · rw [List.mem_singleton.mp new] at equal
            exact absurd equal other
        · rintro ⟨s, member, equal⟩
          exact ⟨s, List.mem_append_left _ member, equal⟩
      rw [rowsIff]
      simp [same, other]

/-- A row with the last key joins the last group. -/
theorem Grouped.join (grouped : Grouped key label rows (groups ++ [(key r, kept)])) :
    Grouped key label (rows ++ [r])
      (groups ++ [(key r, if label r ∈ kept.map label then kept else kept ++ [r])]) := by
  have keys := grouped.rise
  rw [List.map_append, List.pairwise_append] at keys
  have last := (grouped.group (key r) kept).mp
    (List.mem_append_right _ (List.mem_singleton_self _))
  refine ⟨?_, ?_⟩
  · rw [List.map_append, List.pairwise_append]
    exact keys
  · intro k other
    rw [List.mem_append, List.mem_singleton, Prod.mk.injEq, List.filter_append]
    by_cases same : k = key r
    · subst same
      have fresh : (key r, other) ∉ groups := by
        intro member
        exact lt_irrefl _ (keys.2.2 (key r) (List.mem_map_of_mem member) (key r)
          (List.mem_singleton_self _))
      have there : ∃ s ∈ rows ++ [r], key s = key r :=
        ⟨r, List.mem_append_right _ (List.mem_singleton_self r), rfl⟩
      have single : [r].filter (fun s => key s = key r) = [r] := by simp
      rw [single, firsts_concat, ← last.2]
      simp only [fresh, false_or, true_and, there]
    · have differ : ¬ key r = k := fun equal => same equal.symm
      have single : [r].filter (fun s => key s = k) = [] := by simp [differ]
      have before := grouped.group k other
      rw [List.mem_append, List.mem_singleton, Prod.mk.injEq] at before
      simp only [same, false_and, or_false] at before ⊢
      rw [before, single, List.append_nil]
      refine and_congr_left fun _ => ?_
      constructor
      · rintro ⟨s, member, equal⟩
        exact ⟨s, List.mem_append_left _ member, equal⟩
      · rintro ⟨s, member, equal⟩
        rcases List.mem_append.mp member with old | new
        · exact ⟨s, old, equal⟩
        · rw [List.mem_singleton.mp new] at equal
          exact absurd equal differ

end Copr.Groups
