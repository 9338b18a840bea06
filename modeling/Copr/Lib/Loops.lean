import Mathlib.Data.List.Forall2

/-!
# Loops that may raise

A loop that collects one value in each turn, where a turn may raise and then ends the loop. What is
known of the values when no turn raises.
-/

namespace Copr.Loops

variable {α β : Type*} {f : α → Option β} {l : List α} {results : List β} {a : α} {b : β}

/-- A loop ends when every turn gives its value. -/
theorem mapM_eq_some :
    l.mapM f = some results ↔ List.Forall₂ (fun a b => f a = some b) l results := by
  induction l generalizing results with
  | nil =>
    rw [List.mapM_nil, List.forall₂_nil_left_iff]
    exact ⟨fun same => (Option.some.inj same).symm, fun same => same ▸ rfl⟩
  | cons a l ih =>
    rw [List.mapM_cons, List.forall₂_cons_left_iff]
    constructor
    · intro done
      obtain ⟨b, first, done⟩ := Option.bind_eq_some_iff.mp done
      obtain ⟨later, rest, same⟩ := Option.bind_eq_some_iff.mp done
      exact ⟨b, later, first, ih.mp rest, (Option.some.inj same).symm⟩
    · rintro ⟨b, later, first, rest, rfl⟩
      rw [first, ih.mpr rest]
      rfl

/-- The values are those of the turns. -/
theorem mem_of_mapM (done : l.mapM f = some results) : b ∈ results ↔ ∃ a ∈ l, f a = some b := by
  have turns := mapM_eq_some.mp done
  clear done
  induction turns with
  | nil => simp
  | cons turn _ ih =>
    rw [List.mem_cons, List.exists_mem_cons_iff]
    refine or_congr ⟨fun same => same ▸ turn, fun again => ?_⟩ ih
    exact (Option.some.inj (turn.symm.trans again)).symm

/-- If a loop has ended, each of its turns has returned a result of the list. -/
theorem turn_of_mapM (done : l.mapM f = some results) (member : a ∈ l) :
    ∃ b, f a = some b ∧ b ∈ results := by
  have turns := mapM_eq_some.mp done
  obtain ⟨i, bound, rfl⟩ := List.mem_iff_getElem.mp member
  have there : i < results.length := turns.length_eq ▸ bound
  exact ⟨results[i], turns.get bound there, List.getElem_mem there⟩

/-- A loop ends when no turn raises. -/
theorem exists_mapM_iff : (∃ results, l.mapM f = some results) ↔ ∀ a ∈ l, ∃ b, f a = some b := by
  constructor
  · rintro ⟨results, done⟩ a member
    obtain ⟨b, turn, -⟩ := turn_of_mapM done member
    exact ⟨b, turn⟩
  · intro turns
    induction l with
    | nil => exact ⟨[], rfl⟩
    | cons a l ih =>
      obtain ⟨b, first⟩ := turns a List.mem_cons_self
      obtain ⟨results, rest⟩ := ih fun a later => turns a (List.mem_cons_of_mem _ later)
      exact ⟨b :: results, by rw [List.mapM_cons, first, rest]; rfl⟩

/-- The values, when it is known what a turn gives unless it raises. -/
theorem eq_map_of_mapM {g : α → β} (each : ∀ a b, f a = some b → b = g a)
    (done : l.mapM f = some results) : results = l.map g := by
  have turns := mapM_eq_some.mp done
  clear done
  induction turns with
  | nil => rfl
  | cons turn _ ih => rw [List.map_cons, each _ _ turn, ih]

end Copr.Loops
