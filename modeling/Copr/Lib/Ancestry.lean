import Mathlib.Logic.Relation

/-!
# Waiting for all ancestors

Every node has at most one parent. Whether a node waits for an ancestor is found out from the
parent on: a node waits if its parent does, and otherwise if its parent is not done. Asking
whether a node is done may change a state, such as a cache. If a rank falls from every node to
its parent, there is no cycle, the question is answered, and the answer is about all ancestors.
-/

namespace Copr.Ancestry

variable {α σ : Type*}

/-- The second node is the parent of the first. -/
def IsParent (parent : α → Option α) (a p : α) : Prop := parent a = some p

/-- The second node is the parent of the first, or one of the parent's ancestors. -/
abbrev Ancestor (parent : α → Option α) : α → α → Prop := Relation.TransGen (IsParent parent)

/-- Find out whether a node waits; `none` is an answer that takes more fuel. -/
def waits (parent : α → Option α) (ask : α → σ → Bool × σ) : Nat → α → σ → Option (Bool × σ)
  | 0, _, _ => none
  | fuel + 1, a, s =>
    match parent a with
    | none => some (false, s)
    | some p =>
      (waits parent ask fuel p s).bind fun (waiting, s) =>
        if waiting then some (true, s)
        else
          let (done, s) := ask p s
          some (!done, s)

variable {parent : α → Option α} {a p q : α}

/-- An ancestor is the parent or an ancestor of the parent. -/
theorem ancestor_iff (above : parent a = some p) :
    Ancestor parent a q ↔ q = p ∨ Ancestor parent p q := by
  rw [← Relation.reflTransGen_iff_eq_or_transGen]
  refine Relation.TransGen.head'_iff.trans ?_
  constructor
  · rintro ⟨r, first, rest⟩
    have same : r = p := Option.some.inj (Eq.trans (Eq.symm first) above)
    exact same ▸ rest
  · intro rest
    exact ⟨p, above, rest⟩

/-- A node without a parent has no ancestor. -/
theorem not_ancestor (top : parent a = none) : ¬ Ancestor parent a q := by
  intro above
  obtain ⟨r, first, -⟩ := Relation.TransGen.head'_iff.mp above
  unfold IsParent at first
  rw [top] at first
  contradiction

section Ranked

variable (rank : α → Nat) (falls : ∀ a p, parent a = some p → rank p < rank a)

include falls

/-- The rank falls from a node to its ancestors. -/
theorem rank_lt (above : Ancestor parent a p) : rank p < rank a := by
  induction above with
  | single first => exact falls _ _ first
  | tail _ next ih => exact Nat.lt_trans (falls _ _ next) ih

/-- No node is its own ancestor. -/
theorem acyclic (a : α) : ¬ Ancestor parent a a := fun above =>
  Nat.lt_irrefl _ (rank_lt rank falls above)

/-- With as much fuel as the rank takes, the question is answered: a node does not wait exactly
when all its ancestors are done. -/
theorem waits_answers {ask : α → σ → Bool × σ} {done : α → Bool} {Inv : σ → Prop}
    (asked : ∀ a s, Inv s → (ask a s).1 = done a ∧ Inv (ask a s).2) {fuel : Nat} {s : σ}
    (enough : rank a < fuel) (start : Inv s) :
    ∃ waiting t, waits parent ask fuel a s = some (waiting, t) ∧ Inv t ∧
      (waiting = false ↔ ∀ p, Ancestor parent a p → done p = true) := by
  induction fuel generalizing a s with
  | zero => omega
  | succ fuel ih =>
    cases above : parent a with
    | none =>
      refine ⟨false, s, by simp [waits, above], start, ?_⟩
      exact iff_of_true rfl fun p before => absurd before (not_ancestor above)
    | some p =>
      have lower := falls a p above
      have enough' : rank p < fuel := by omega
      obtain ⟨waiting, t, answered, kept, precise⟩ := ih enough' start
      have ancestors : (∀ q, Ancestor parent a q → done q = true) ↔
          done p = true ∧ ∀ q, Ancestor parent p q → done q = true := by
        simp only [ancestor_iff above, or_imp, forall_and, forall_eq]
      rw [ancestors, ← precise]
      cases waiting with
      | true => exact ⟨true, t, by simp [waits, above, answered], kept, by simp⟩
      | false =>
        obtain ⟨answer, kept'⟩ := asked p t kept
        refine ⟨!done p, (ask p t).2, ?_, kept', by simp⟩
        simp [waits, above, answered, answer]

end Ranked

end Copr.Ancestry
