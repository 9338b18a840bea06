import Mathlib.Logic.Relation

/-!
# Runs of a labelled machine

A machine is a partial step function over states and events. A guard says which
events are admitted in which state, so a theorem about "every run whose steps all
meet a condition" is a theorem about the runs of the guarded machine. The rules
below carry a property of one step to every state of every run, and turn a
concrete list of events into a run.
-/

namespace Copr.Runs

variable {σ ε : Type*} {step : σ → ε → Option σ} {ok weak : σ → ε → Prop} {s t u : σ}

/-- One admitted event leads from `s` to `t`. -/
def Move (step : σ → ε → Option σ) (ok : σ → ε → Prop) (s t : σ) : Prop :=
  ∃ e, ok s e ∧ step s e = some t

/-- Any finite number of admitted events leads from one state to another. -/
abbrev Run (step : σ → ε → Option σ) (ok : σ → ε → Prop) : σ → σ → Prop :=
  Relation.ReflTransGen (Move step ok)

/-- The guard that admits every event. -/
abbrev anyEvent : σ → ε → Prop := fun _ _ => True

/-- A property kept by every admitted event holds in every state of every run that
starts with it. -/
theorem run_invariant (I : σ → Prop)
    (keeps : ∀ s e t, I s → ok s e → step s e = some t → I t)
    (run : Run step ok s t) (start : I s) : I t := by
  induction run with
  | refl => exact start
  | tail _ move ih =>
    obtain ⟨e, admitted, stepped⟩ := move
    exact keeps _ e _ ih admitted stepped

/-- Every run of a stronger guard is a run of a weaker one. -/
theorem run_weaken (weaker : ∀ s e, ok s e → weak s e) (run : Run step ok s t) :
    Run step weak s t := by
  refine Relation.ReflTransGen.mono ?_ s t run
  rintro a b ⟨e, admitted, stepped⟩
  exact ⟨e, weaker a e admitted, stepped⟩

/-- If every admitted event of one machine is, seen through `view`, nothing or an admitted
event of another, every run of the first is a run of the second. -/
theorem run_simulates {τ δ : Type*} {spec : τ → δ → Option τ} {allowed : τ → δ → Prop}
    {view : σ → τ}
    (simulates : ∀ s e t, ok s e → step s e = some t →
      view t = view s ∨ ∃ d, allowed (view s) d ∧ spec (view s) d = some (view t))
    (run : Run step ok s t) : Run spec allowed (view s) (view t) := by
  induction run with
  | refl => exact .refl
  | tail _ move ih =>
    obtain ⟨e, admitted, stepped⟩ := move
    rcases simulates _ e _ admitted stepped with same | ⟨d, permitted, specified⟩
    · exact same ▸ ih
    · exact ih.tail ⟨d, permitted, specified⟩

/-- Take the events of a list one after another; an event that is impossible or not
admitted where it stands refuses the whole list. -/
def exec (step : σ → ε → Option σ) (ok : σ → ε → Bool) (s : σ) : List ε → Option σ
  | [] => some s
  | e :: es => if ok s e then (step s e).bind fun t => exec step ok t es else none

/-- A list of events that executes is a run. -/
theorem exec_run {ok : σ → ε → Bool} (es : List ε) (done : exec step ok s es = some t) :
    Run step (fun s e => ok s e = true) s t := by
  induction es generalizing s with
  | nil =>
    obtain rfl := Option.some.inj done
    exact .refl
  | cons e es ih =>
    rw [exec] at done
    split at done
    · rename_i admitted
      obtain ⟨u, stepped, rest⟩ := Option.bind_eq_some_iff.mp done
      exact .head ⟨e, admitted, stepped⟩ (ih rest)
    · contradiction

/-- A list of events that executes under no guard is a run of the unguarded machine. -/
theorem exec_run_any (es : List ε) (done : exec step (fun _ _ => true) s es = some t) :
    Run step anyEvent s t :=
  run_weaken (fun _ _ _ => trivial) (exec_run es done)

/-- An execution with an observed outcome ends in some state that shows this outcome. -/
theorem exec_observe {α : Type*} (step : σ → ε → Option σ) (ok : σ → ε → Bool) (s : σ)
    (es : List ε) (view : σ → α) (a : α) (done : (exec step ok s es).map view = some a) :
    ∃ t, Run step (fun s e => ok s e = true) s t ∧ view t = a := by
  obtain ⟨t, executed, seen⟩ := Option.map_eq_some_iff.mp done
  exact ⟨t, exec_run es executed, seen⟩

/-- If a property only ever appears by certain events, it was there from the start, without any
such event, or one of them was the last. -/
theorem exec_last_cause {ok : σ → ε → Bool} {P : σ → Prop} {causes : ε → Prop}
    (each : ∀ s e t, step s e = some t → P t → P s ∨ causes e) {es : List ε}
    (done : exec step ok s es = some t) (holds : P t) :
    (P s ∧ ∀ e ∈ es, ¬ causes e) ∨
      ∃ before e after u v, es = before ++ e :: after ∧ exec step ok s before = some u ∧
        step u e = some v ∧ causes e ∧ ∀ later ∈ after, ¬ causes later := by
  induction es generalizing s with
  | nil =>
    obtain rfl := Option.some.inj done
    exact Or.inl ⟨holds, by simp⟩
  | cons e es ih =>
    rw [exec] at done
    split at done
    · rename_i admitted
      obtain ⟨u, stepped, rest⟩ := Option.bind_eq_some_iff.mp done
      rcases ih rest with ⟨there, never⟩ | ⟨before, e', after, v, w, rfl, ran, moved, cause, last⟩
      · by_cases cause : causes e
        · exact Or.inr ⟨[], e, es, s, u, rfl, rfl, stepped, cause, never⟩
        · refine Or.inl ⟨(each s e u stepped there).resolve_right cause, ?_⟩
          rw [List.forall_mem_cons]
          exact ⟨cause, never⟩
      · refine Or.inr ⟨e :: before, e', after, v, w, rfl, ?_, moved, cause, last⟩
        rw [exec, if_pos admitted, stepped]
        exact ran
    · contradiction

/-- What every event of a list keeps where it stands is kept by the list. -/
theorem exec_keeps {ok : σ → ε → Bool} {P : σ → σ → Prop} (same : ∀ s, P s s)
    (trans : ∀ s t u, P s t → P t u → P s u) {es : List ε} (done : exec step ok s es = some t)
    (each : ∀ before e after u v, es = before ++ e :: after → exec step ok s before = some u →
      step u e = some v → P u v) : P s t := by
  induction es generalizing s with
  | nil =>
    obtain rfl := Option.some.inj done
    exact same s
  | cons e es ih =>
    rw [exec] at done
    split at done
    · rename_i admitted
      obtain ⟨u, stepped, rest⟩ := Option.bind_eq_some_iff.mp done
      refine trans s u t (each [] e es s u rfl rfl stepped) (ih rest ?_)
      intro before e' after v w split ran moved
      refine each (e :: before) e' after v w (by rw [split, List.cons_append]) ?_ moved
      rw [exec, if_pos admitted, stepped]
      exact ran
    · contradiction

/-- Two lists of events are taken one after the other. -/
theorem exec_append {ok : σ → ε → Bool} (before after : List ε) :
    exec step ok s (before ++ after) =
      (exec step ok s before).bind fun t => exec step ok t after := by
  induction before generalizing s with
  | nil => rfl
  | cons e before ih =>
    rw [List.cons_append, exec, exec]
    split
    · cases step s e with
      | none => rfl
      | some t => exact ih
    · rfl

/-- What executes under a guard executes under none. -/
theorem exec_unguarded {ok : σ → ε → Bool} {es : List ε} (done : exec step ok s es = some t) :
    exec step (fun _ _ => true) s es = some t := by
  induction es generalizing s with
  | nil => exact done
  | cons e es ih =>
    rw [exec] at done ⊢
    split at done
    · obtain ⟨u, stepped, rest⟩ := Option.bind_eq_some_iff.mp done
      rw [if_pos rfl, stepped]
      exact ih rest
    · contradiction

end Copr.Runs
