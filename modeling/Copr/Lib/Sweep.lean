import Mathlib.Data.List.Nodup
import Mathlib.Logic.Function.Basic

/-!
# Loops over requests that may fail

A loop makes one call for each item of a list. A call that raises ends the loop; a call that
returns `false` makes the whole result `false`, and the loop goes on. The loop is `true` exactly
when each call is `true` in the state that the calls before it have left.
-/

namespace Copr.Sweep

variable {α β κ σ γ : Type*}

/-- The loop; `none` stands for an exception. The state is kept in any case. -/
def sweep (call : α → σ → Option Bool × σ) : List α → σ → Option Bool × σ
  | [], s => (some true, s)
  | a :: rest, s =>
    match call a s with
    | (none, s) => (none, s)
    | (some ok, s) =>
      let (result, s) := sweep call rest s
      (result.map (ok && ·), s)

section Loops

variable {call : α → σ → Option Bool × σ}

/-- A loop is true when the first call and the loop over the others are. -/
theorem sweep_cons_true {a : α} {rest : List α} {s after : σ} :
    sweep call (a :: rest) s = (some true, after) ↔
      ∃ next, call a s = (some true, next) ∧ sweep call rest next = (some true, after) := by
  simp only [sweep]
  constructor
  · intro succeeded
    split at succeeded
    · simp at succeeded
    · rename_i ok next called
      simp only [Prod.mk.injEq, Option.map_eq_some_iff, Bool.and_eq_true] at succeeded
      obtain ⟨⟨_, value, rfl, rfl⟩, same⟩ := succeeded
      exact ⟨next, called, Prod.ext value same⟩
  · rintro ⟨next, called, others⟩
    simp [called, others]

/-- A loop over one item is its call. -/
theorem sweep_singleton_true {a : α} {s after : σ} :
    sweep call [a] s = (some true, after) ↔ call a s = (some true, after) := by
  rw [sweep_cons_true]
  constructor
  · rintro ⟨next, called, same⟩
    obtain rfl := (Prod.mk.inj same).2
    exact called
  · intro called
    exact ⟨after, called, rfl⟩

/-- A loop over two lists is the loop over the second after that over the first. -/
theorem sweep_append_true {first second : List α} {s after : σ} :
    sweep call (first ++ second) s = (some true, after) ↔
      ∃ next, sweep call first s = (some true, next) ∧
        sweep call second next = (some true, after) := by
  induction first generalizing s with
  | nil => simp [sweep]
  | cons a rest ih =>
    simp only [List.cons_append, sweep_cons_true, ih]
    constructor
    · rintro ⟨next, called, last, rest_, others⟩
      exact ⟨last, ⟨next, called, rest_⟩, others⟩
    · rintro ⟨last, ⟨next, called, rest_⟩, others⟩
      exact ⟨next, called, last, rest_, others⟩

/-- A loop of loops is one loop. -/
theorem sweep_flatMap_true {items : β → List α} {bs : List β} {s after : σ} :
    sweep (fun b => sweep call (items b)) bs s = (some true, after) ↔
      sweep call (bs.flatMap items) s = (some true, after) := by
  induction bs generalizing s with
  | nil => rfl
  | cons b rest ih => simp only [sweep_cons_true, List.flatMap_cons, sweep_append_true, ih]

/-- What every true call preserves for one more item holds after a true loop. -/
theorem sweep_run {P : List α → σ → Prop} {items : List α} {s after : σ} (start : P [] s)
    (step : ∀ done, ∀ a ∈ items, ∀ s after, P done s → call a s = (some true, after) →
      P (done ++ [a]) after)
    (succeeded : sweep call items s = (some true, after)) : P items after := by
  have rest : ∀ later done s, (∀ a ∈ later, a ∈ items) → P done s →
      sweep call later s = (some true, after) → P (done ++ later) after := by
    intro later
    induction later with
    | nil =>
      intro done s _ here ended
      obtain ⟨-, rfl⟩ := Prod.mk.inj ended
      rw [List.append_nil]
      exact here
    | cons a later ih =>
      intro done s listed here more
      obtain ⟨next, called, others⟩ := sweep_cons_true.mp more
      have stepped := step done a (listed a List.mem_cons_self) s next here called
      have whole := ih (done ++ [a]) next (fun b member => listed b (List.mem_cons_of_mem _ member))
        stepped others
      rw [List.append_assoc] at whole
      exact whole
  exact rest items [] s (fun _ member => member) start succeeded

/-- When a call changes what is under its key, and does so once and for all, a true loop changes
what is under the keys of its items. -/
theorem sweep_update [DecidableEq κ] (key : α → κ) (read : σ → κ → γ) (change : κ → γ → γ)
    {items : List α} {s after : σ} (once : ∀ k value, change k (change k value) = change k value)
    (called : ∀ a ∈ items, ∀ s after, call a s = (some true, after) →
      read after = Function.update (read s) (key a) (change (key a) (read s (key a))))
    (succeeded : sweep call items s = (some true, after)) (k : κ) :
    read after k = if k ∈ items.map key then change k (read s k) else read s k := by
  have all := sweep_run (P := fun done now => ∀ k, read now k =
    if k ∈ done.map key then change k (read s k) else read s k) (s := s) (fun k => rfl) (by
      intro done a member now next before stepped k
      rw [called a member now next stepped, List.map_append, List.map_singleton]
      by_cases own : k = key a
      · subst own
        rw [Function.update_self, before (key a),
          if_pos (List.mem_append_right _ (List.mem_singleton_self _))]
        split
        · rw [once]
        · rfl
      · have same : k ∈ done.map key ++ [key a] ↔ k ∈ done.map key := by
          simp [own]
        simp only [Function.update_of_ne own, before k, same]) succeeded
  exact all k

/-- A loop over items that are derived from others. -/
theorem sweep_map (f : β → α) (bs : List β) :
    sweep call (bs.map f) = sweep (fun b => call (f b)) bs := by
  induction bs with
  | nil => rfl
  | cons b rest ih =>
    funext s
    simp only [List.map_cons, sweep, ih]

end Loops

/-- A loop without a state is true when every call is. -/
theorem sweep_stateless {call : α → Option Bool} {items : List α} :
    (sweep (fun a (_ : Unit) => (call a, ())) items ()).1 = some true ↔
      ∀ a ∈ items, call a = some true := by
  induction items with
  | nil => simp [sweep]
  | cons a rest ih =>
    have whole : ∀ list : List α,
        (sweep (fun a (_ : Unit) => (call a, ())) list ()).1 = some true ↔
          sweep (fun a (_ : Unit) => (call a, ())) list () = (some true, ()) := by
      intro list
      simp [Prod.ext_iff]
    rw [whole, sweep_cons_true, List.forall_mem_cons, ← ih, whole]
    constructor
    · rintro ⟨_, called, others⟩
      exact ⟨(Prod.mk.inj called).1, others⟩
    · rintro ⟨called, others⟩
      exact ⟨(), Prod.ext called rfl, others⟩

/-- When a call is true exactly in the states that are `good` for it, and does what `effect` says
then, a loop is true exactly when every call finds a good state after those before it. -/
theorem sweep_true_iff {call : α → σ → Option Bool × σ} {good : α → σ → Prop} {effect : α → σ → σ}
    (called : ∀ a s after, call a s = (some true, after) ↔ good a s ∧ after = effect a s)
    {items : List α} {s after : σ} :
    sweep call items s = (some true, after) ↔
      (∀ earlier a later, items = earlier ++ a :: later →
        good a (earlier.foldl (fun s a => effect a s) s)) ∧
          after = items.foldl (fun s a => effect a s) s := by
  induction items generalizing s with
  | nil => simp [sweep, eq_comm]
  | cons first rest ih =>
    simp only [sweep_cons_true, called, ih]
    constructor
    · rintro ⟨_, ⟨here, rfl⟩, others, rfl⟩
      refine ⟨fun earlier a later split_ => ?_, rfl⟩
      cases earlier with
      | nil =>
        obtain ⟨rfl, rfl⟩ := List.cons.inj split_
        exact here
      | cons head earlier =>
        obtain ⟨rfl, rfl⟩ := List.cons.inj split_
        exact others earlier a later rfl
    · rintro ⟨all, rfl⟩
      refine ⟨_, ⟨all [] first rest rfl, rfl⟩, fun earlier a later split_ => ?_, rfl⟩
      exact all (first :: earlier) a later (by rw [split_, List.cons_append])

end Copr.Sweep
