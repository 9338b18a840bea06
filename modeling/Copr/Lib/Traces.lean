import Mathlib.Logic.Basic

/-!
# What holds along a list of events

A machine whose events always lead to another state. A property may hold in every state along a
list of events, a condition may hold of every event where it stands; when the condition says
exactly which events keep the property, so does the condition along the list.
-/

namespace Copr.Traces

variable {σ ε : Type*} (step : σ → ε → σ)

/-- A property holds in every state along a list of events. -/
def Always (P : σ → Prop) : σ → List ε → Prop
  | s, [] => P s
  | s, e :: es => P s ∧ Always P (step s e) es

/-- A condition holds of every event of a list in the state before it. -/
def EachStep (ok : σ → ε → Prop) : σ → List ε → Prop
  | _, [] => True
  | s, e :: es => ok s e ∧ EachStep ok (step s e) es

/-- Whether a condition holds of every event is decided one event after another. -/
instance EachStep.decide (ok : σ → ε → Prop) [∀ s e, Decidable (ok s e)] (s : σ) :
    (es : List ε) → Decidable (EachStep step ok s es)
  | [] => inferInstanceAs (Decidable True)
  | e :: es =>
    have := EachStep.decide ok (step s e) es
    inferInstanceAs (Decidable (ok s e ∧ EachStep step ok (step s e) es))

variable {step} {P Q I : σ → Prop} {ok : σ → ε → Prop} {s : σ} {es : List ε}

/-- A property that always holds holds at first. -/
theorem Always.first (always : Always step P s es) : P s := by
  cases es with
  | nil => exact always
  | cons e es => exact always.1

/-- A property that always holds holds in the end. -/
theorem Always.last (always : Always step P s es) : P (es.foldl step s) := by
  induction es generalizing s with
  | nil => exact always
  | cons e es ih => exact ih always.2

/-- A weaker property holds as well. -/
theorem Always.imp (weaker : ∀ s, P s → Q s) (always : Always step P s es) :
    Always step Q s es := by
  induction es generalizing s with
  | nil => exact weaker s always
  | cons e es ih => exact ⟨weaker s always.1, ih always.2⟩

/-- An invariant that every admitted event keeps always holds. -/
theorem always_of_eachStep (keeps : ∀ s e, I s → ok s e → I (step s e)) (start : I s)
    (each : EachStep step ok s es) : Always step I s es := by
  induction es generalizing s with
  | nil => exact start
  | cons e es ih => exact ⟨start, ih (keeps s e start each.1) each.2⟩

/-- When the condition says which events keep the property, the property always holds exactly if
the condition holds of every event. -/
theorem always_iff_eachStep (exact : ∀ s, ∀ e ∈ es, P s → (P (step s e) ↔ ok s e))
    (start : P s) : Always step P s es ↔ EachStep step ok s es := by
  induction es generalizing s with
  | nil => exact iff_of_true start trivial
  | cons e es ih =>
    have here := exact s e List.mem_cons_self start
    have later : ∀ s, ∀ e' ∈ es, P s → (P (step s e') ↔ ok s e') := fun s e' member =>
      exact s e' (List.mem_cons_of_mem _ member)
    constructor
    · rintro ⟨_, rest⟩
      exact ⟨here.mp rest.first, (ih later rest.first).mp rest⟩
    · rintro ⟨admitted, rest⟩
      have next := here.mpr admitted
      exact ⟨start, (ih later next).mpr rest⟩

/-- Two properties that agree wherever an invariant holds hold along the same lists. -/
theorem always_congr (keeps : ∀ s e, I s → I (step s e)) (same : ∀ s, I s → (P s ↔ Q s))
    (start : I s) : Always step P s es ↔ Always step Q s es := by
  induction es generalizing s with
  | nil => exact same s start
  | cons e es ih => exact and_congr (same s start) (ih (keeps s e start))

/-- Two conditions that agree wherever an invariant holds hold along the same lists. -/
theorem eachStep_congr {ok' : σ → ε → Prop} (keeps : ∀ s e, I s → I (step s e))
    (same : ∀ s e, I s → (ok s e ↔ ok' s e)) (start : I s) :
    EachStep step ok s es ↔ EachStep step ok' s es := by
  induction es generalizing s with
  | nil => exact Iff.rfl
  | cons e es ih => exact and_congr (same s e start) (ih (keeps s e start))

/-- What one event establishes and the later ones keep holds in the end; `P` is what all of them
keep. -/
theorem foldl_reaches {e : ε} (member : e ∈ es) (keeps : ∀ s, ∀ d ∈ es, P s → P (step s d))
    (later : ∀ s, ∀ d ∈ es, P s → Q s → Q (step s d)) (now : ∀ s, P s → Q (step s e))
    (start : P s) : Q (es.foldl step s) := by
  have ⟨before, after, split⟩ := List.mem_iff_append.mp member
  rw [split, List.foldl_append, List.foldl_cons]
  have reached : P (before.foldl step s) := by
    apply List.foldlRecOn before step start
    intro u holds d inside
    apply keeps u d _ holds
    rw [split]
    exact List.mem_append_left _ inside
  have both : P (after.foldl step (step (before.foldl step s) e)) ∧
      Q (after.foldl step (step (before.foldl step s) e)) := by
    apply List.foldlRecOn (motive := fun u => P u ∧ Q u) after step
      ⟨keeps _ e member reached, now _ reached⟩
    intro u holds d inside
    have listed : d ∈ es := by
      rw [split]
      exact List.mem_append_right _ (List.mem_cons_of_mem e inside)
    exact ⟨keeps u d listed holds.1, later u d listed holds.1 holds.2⟩
  exact both.2

/-! ## What has happened before -/

/-- Something was set by an event and has not been reset since. The newest event comes first; what
an event does may depend on those before it. -/
def since (sets resets : List ε → ε → Bool) : List ε → Bool
  | [] => false
  | e :: past => sets past e || (!resets past e && since sets resets past)

/-- An event that does neither changes nothing. -/
theorem since_cons_of_neither {sets resets : List ε → ε → Bool} {e : ε} {past : List ε}
    (set : sets past e = false) (reset : resets past e = false) :
    since sets resets (e :: past) = since sets resets past := by
  simp [since, set, reset]

end Copr.Traces
