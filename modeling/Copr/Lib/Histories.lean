import Mathlib.Data.List.Basic

/-!
# Histories of commits

A store is changed by commits only. Its history has, next to the state in the beginning, what
every commit was about and the state it led to. A property is held since some commit when it
was true in a state that has been committed since then and has stayed true, unless a later
commit is an excuse.
-/

namespace Copr.Histories

variable {σ ω : Type*}

/-- A store with all its commits, the last one first. -/
structure History (σ ω : Type*) where
  /-- The state in the beginning. -/
  start : σ
  /-- What was committed, and the states that this led to. -/
  commits : List (ω × σ)

namespace History

/-- The state after some commits. -/
def after (start : σ) : List (ω × σ) → σ
  | [] => start
  | commit :: _ => commit.2

variable (h : History σ ω)

/-- The committed state. -/
def now : σ := after h.start h.commits

/-- The number of commits. -/
def length : Nat := h.commits.length

/-- Something is committed. -/
def commit (what : ω) (state : σ) : History σ ω :=
  { h with commits := (what, state) :: h.commits }

/-- A property was true in a state after at least `n` commits. It is true now, or one of the
commits after that state is an excuse. -/
def HeldSince (n : Nat) (P : σ → Prop) (excuse : ω → Prop) : Prop :=
  ∃ later earlier, h.commits = later ++ earlier ∧ n ≤ earlier.length ∧
    P (after h.start earlier) ∧ (P h.now ∨ ∃ commit ∈ later, excuse commit.1)

variable {h} {n : Nat} {P Q : σ → Prop} {excuse : ω → Prop} {what : ω} {state : σ}

/-- A commit makes the history longer. -/
@[simp] theorem length_commit : (h.commit what state).length = h.length + 1 := rfl

/-- What is true now is held. -/
theorem heldSince_now (reached : n ≤ h.length) (true_now : P h.now) : h.HeldSince n P excuse :=
  ⟨[], h.commits, rfl, reached, true_now, Or.inl true_now⟩

/-- What is held stays so when a commit leaves it true or is an excuse. -/
theorem HeldSince.commit (held : h.HeldSince n P excuse)
    (kept : P h.now → P state ∨ excuse what) : (h.commit what state).HeldSince n P excuse := by
  obtain ⟨later, earlier, split, reached, then_true, since⟩ := held
  have longer : (h.commit what state).commits = ((what, state) :: later) ++ earlier :=
    congrArg (List.cons (what, state)) split
  refine ⟨(what, state) :: later, earlier, longer, reached, then_true, ?_⟩
  have last : excuse what → ∃ commit ∈ (what, state) :: later, excuse commit.1 :=
    fun excused => ⟨(what, state), List.mem_cons_self, excused⟩
  cases since with
  | inl true_now => exact (kept true_now).imp id last
  | inr excused =>
    obtain ⟨commit, listed, reason⟩ := excused
    exact Or.inr ⟨commit, List.mem_cons_of_mem _ listed, reason⟩

/-- A weaker property is held as well. -/
theorem HeldSince.imp (weaker : ∀ state, P state → Q state) (held : h.HeldSince n P excuse) :
    h.HeldSince n Q excuse := by
  obtain ⟨later, earlier, split, reached, then_true, since⟩ := held
  exact ⟨later, earlier, split, reached, weaker _ then_true, since.imp_left (weaker _)⟩

/-- A property that is held has been true in some state. -/
theorem HeldSince.some_state (held : h.HeldSince n P excuse) :
    P h.start ∨ ∃ commit ∈ h.commits, P commit.2 := by
  obtain ⟨later, earlier, split, -, then_true, -⟩ := held
  cases earlier with
  | nil => exact Or.inl then_true
  | cons commit rest =>
    have listed : commit ∈ h.commits := by
      rw [split]
      exact List.mem_append_right _ List.mem_cons_self
    exact Or.inr ⟨commit, listed, then_true⟩

end History

end Copr.Histories
