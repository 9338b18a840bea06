import Mathlib.Logic.Relation

/-!
# Imperative programs

A program changes a state, and ends with a value, with an exception, or by the end of its process.
Its answers from outside are part of the state or of what it is given, so it is a function, and a
statement about every environment is one about every such function. There are the statements with
which exceptions are raised, handled and passed on, loops without a condition, and rules for
what holds before and after each of them.
-/

namespace Copr.Programs

/-- How a program ends. -/
inductive Finish (ε α : Type)
  /-- It returns a value. -/
  | value (a : α)
  /-- It raises an exception. -/
  | raised (e : ε)
  /-- Its process ended before. -/
  | killed
  deriving DecidableEq, Repr

/-- A program over a state. -/
def Prog (σ ε α : Type) := σ → Finish ε α × σ

namespace Prog

variable {σ ε α β : Type}

/-- Returns a value. -/
protected def pure (a : α) : Prog σ ε α := fun s => (.value a, s)

/-- One program after the other. -/
protected def bind (x : Prog σ ε α) (f : α → Prog σ ε β) : Prog σ ε β := fun s =>
  match x s with
  | (.value a, t) => f a t
  | (.raised e, t) => (.raised e, t)
  | (.killed, t) => (.killed, t)

instance : Monad (Prog σ ε) where
  pure := Prog.pure
  bind := Prog.bind

/-- `raise`. -/
def raise (e : ε) : Prog σ ε α := fun s => (.raised e, s)

/-- What a part of the state is. -/
def read (f : σ → α) : Prog σ ε α := fun s => (.value (f s), s)

/-- The state changes. -/
def change (f : σ → σ) : Prog σ ε Unit := fun s => (.value (), f s)

/-- `try`, with what is done about an exception. -/
def handle (x : Prog σ ε α) (handler : ε → Prog σ ε α) : Prog σ ε α := fun s =>
  match x s with
  | (.raised e, t) => handler e t
  | ended => ended

/-- How a program ends when something was still done after it. -/
def conclude (ending : Finish ε α) : Finish ε Unit × σ → Finish ε α × σ
  | (.value _, u) => (ending, u)
  | (.raised e, u) => (.raised e, u)
  | (.killed, u) => (.killed, u)

/-- `try` and `finally`. -/
def always (x : Prog σ ε α) (last : Prog σ ε Unit) : Prog σ ε α := fun s =>
  match x s with
  | (.value a, t) => conclude (.value a) (last t)
  | (.raised e, t) => conclude (.raised e) (last t)
  | (.killed, t) => (.killed, t)

/-- `while True`: a round goes on with other values of the variables or leaves the loop. At most
the given number of rounds is begun before the process ends. -/
def forever (round : β → Prog σ ε (β ⊕ α)) : Nat → β → Prog σ ε α
  | 0, _ => fun s => (.killed, s)
  | rounds + 1, b => do
    match ← round b with
    | .inl next => forever round rounds next
    | .inr a => Prog.pure a

/-- A program over a part of the state, whose exceptions become others. -/
def within {τ φ : Type} (get : σ → τ) (put : τ → σ → σ) (exn : φ → ε) (x : Prog τ φ α) :
    Prog σ ε α := fun s =>
  match x (get s) with
  | (.value a, t) => (.value a, put t s)
  | (.raised e, t) => (.raised (exn e), put t s)
  | (.killed, t) => (.killed, put t s)

/-- A `for` loop with a variable. -/
def fold {γ : Type} (body : γ → β → Prog σ ε γ) : γ → List β → Prog σ ε γ
  | c, [] => Prog.pure c
  | c, b :: rest => do
    fold body (← body c b) rest

/-- A `for` loop. -/
def each (body : β → Prog σ ε Unit) : List β → Prog σ ε Unit
  | [] => Prog.pure ()
  | b :: rest => do
    body b
    each body rest

/-- A loop with one more round does a round and goes on, returns or raises as it ended. -/
theorem forever_succ {round : β → Prog σ ε (β ⊕ α)} {rounds : Nat} {b : β} {s : σ} :
    forever round (rounds + 1) b s = match round b s with
      | (.value (.inl next), t) => forever round rounds next t
      | (.value (.inr a), t) => (.value a, t)
      | (.raised e, t) => (.raised e, t)
      | (.killed, t) => (.killed, t) := by
  change Prog.bind (round b) _ s = _
  unfold Prog.bind
  cases run : round b s with
  | mk ending t =>
    cases ending with
    | value result => cases result <;> rfl
    | raised e => rfl
    | killed => rfl

end Prog

/-- What holds when a program does not return. -/
structure Exits (σ ε : Type) where
  /-- An exception was raised. -/
  raised : ε → σ → Prop
  /-- The process ended. -/
  killed : σ → Prop

/-- Started where `before` holds, the program returns where `after` holds, or leaves as `exits`
says. -/
def Meets {σ ε α : Type} (before : σ → Prop) (x : Prog σ ε α) (after : α → σ → Prop)
    (exits : Exits σ ε) : Prop :=
  ∀ s, before s → match x s with
    | (.value a, t) => after a t
    | (.raised e, t) => exits.raised e t
    | (.killed, t) => exits.killed t

namespace Meets

variable {σ ε α β : Type} {before : σ → Prop} {x : Prog σ ε α} {f : α → Prog σ ε β}
  {after : α → σ → Prop} {afterwards : β → σ → Prop} {exits : Exits σ ε}

open Prog

/-- What is known of every end, of the end from one state. -/
theorem ended (ends : Finish ε α → σ → Prop) {s : σ}
    (meets : Meets before x (fun a => ends (.value a)) ⟨fun e => ends (.raised e), ends .killed⟩)
    (holds : before s) : ends (x s).1 (x s).2 := by
  have known := meets s holds
  cases run : x s with
  | mk ending t =>
    rw [run] at known
    cases ending <;> exact known

/-- Less is assumed and more is known. -/
theorem weaken {less : σ → Prop} {more : α → σ → Prop} {tighter : Exits σ ε}
    (meets : Meets less x more tighter) (assumed : ∀ s, before s → less s)
    (known : ∀ a s, more a s → after a s) (raised : ∀ e s, tighter.raised e s → exits.raised e s)
    (killed : ∀ s, tighter.killed s → exits.killed s) : Meets before x after exits := by
  intro s holds
  have ended := meets s (assumed s holds)
  cases run : x s with
  | mk ending t =>
    rw [run] at ended
    cases ending with
    | value a => exact known a t ended
    | raised e => exact raised e t ended
    | killed => exact killed t ended

/-- A program that meets its specification under less meets it under more. -/
theorem assume {less : σ → Prop} (meets : Meets less x after exits)
    (assumed : ∀ s, before s → less s) : Meets before x after exits :=
  fun s holds => meets s (assumed s holds)

/-- Something is known that is not about the state. -/
theorem given {fact : Prop} (meets : fact → Meets before x after exits) :
    Meets (fun s => fact ∧ before s) x after exits :=
  fun s holds => meets holds.1 s holds.2

/-- Returning a value meets what holds of that value before. -/
theorem pure {a : α} (holds : ∀ s, before s → after a s) :
    Meets before (Pure.pure a : Prog σ ε α) after exits :=
  fun s known => holds s known

/-- Raising an exception meets what is known of that exception before. -/
theorem raise {e : ε} (holds : ∀ s, before s → exits.raised e s) :
    Meets before (Prog.raise e : Prog σ ε α) after exits :=
  fun s known => holds s known

/-- Changing the state meets what holds of the changed state. -/
theorem change {g : σ → σ} {after : Unit → σ → Prop} (holds : ∀ s, before s → after () (g s)) :
    Meets before (Prog.change g : Prog σ ε Unit) after exits :=
  fun s known => holds s known

/-- A part of the state is read. -/
theorem read {g : σ → α} (holds : ∀ s, before s → after (g s) s) :
    Meets before (Prog.read g : Prog σ ε α) after exits :=
  fun s known => holds s known

/-- One program after the other. -/
theorem bind (first : Meets before x after exits)
    (second : ∀ a, Meets (after a) (f a) afterwards exits) :
    Meets before (x >>= f) afterwards exits := by
  intro s holds
  have ended := first s holds
  change match Prog.bind x f s with
    | (.value a, t) => afterwards a t
    | (.raised e, t) => exits.raised e t
    | (.killed, t) => exits.killed t
  unfold Prog.bind
  cases run : x s with
  | mk ending t =>
    rw [run] at ended
    cases ending with
    | value a => exact second a t ended
    | raised e => exact ended
    | killed => exact ended

/-- One program after the other, with what holds between them. -/
theorem through (between : α → σ → Prop) (first : Meets before x between exits)
    (second : ∀ a, Meets (between a) (f a) afterwards exits) :
    Meets before (x >>= f) afterwards exits :=
  bind first second

/-- A decision meets what both of its branches meet where they are taken. -/
theorem ite {c : Prop} [Decidable c] {y : Prog σ ε α}
    (yes : c → Meets before x after exits) (no : ¬ c → Meets before y after exits) :
    Meets before (if c then x else y) after exits := by
  split
  · exact yes ‹c›
  · exact no ‹¬ c›

/-- An exception is handled. -/
theorem handle {handler : ε → Prog σ ε α} (caught : ε → σ → Prop)
    (body : Meets before x after { exits with raised := caught })
    (handled : ∀ e, Meets (caught e) (handler e) after exits) :
    Meets before (x.handle handler) after exits := by
  intro s holds
  have ended := body s holds
  unfold Prog.handle
  cases run : x s with
  | mk ending t =>
    rw [run] at ended
    cases ending with
    | value a => exact ended
    | raised e => exact handled e t ended
    | killed => exact ended

/-- Something is done at the end whether or not an exception was raised. -/
theorem always {last : Prog σ ε Unit} (returned : α → σ → Prop) (caught : ε → σ → Prop)
    (body : Meets before x returned { exits with raised := caught })
    (normally : ∀ a, Meets (returned a) last (fun _ => after a) exits)
    (otherwise : ∀ e, Meets (caught e) last (fun _ => exits.raised e) exits) :
    Meets before (x.always last) after exits := by
  intro s holds
  have ended := body s holds
  unfold Prog.always
  cases run : x s with
  | mk ending t =>
    rw [run] at ended
    cases ending with
    | value a =>
      have finished := normally a t ended
      dsimp only
      cases done : last t with
      | mk ending u =>
        rw [done] at finished
        cases ending <;> exact finished
    | raised e =>
      have finished := otherwise e t ended
      dsimp only
      cases done : last t with
      | mk ending u =>
        rw [done] at finished
        cases ending <;> exact finished
    | killed => exact ended

/-- A loop keeps its invariant until it is left. -/
theorem forever {round : β → Prog σ ε (β ⊕ α)} (keeps : β → σ → Prop)
    (each : ∀ b, Meets (keeps b) (round b)
      (fun result t => Sum.elim (fun next => keeps next t) (fun a => after a t) result) exits)
    (stopped : ∀ b s, keeps b s → exits.killed s) (rounds : Nat) (b : β) :
    Meets (keeps b) (Prog.forever round rounds b) after exits := by
  induction rounds generalizing b with
  | zero => exact fun s holds => stopped b s holds
  | succ rounds ih =>
    refine bind (each b) fun result => ?_
    cases result with
    | inl next => exact ih next
    | inr a => exact pure fun s holds => holds

/-- A program over a part of the state. -/
theorem within {τ φ : Type} {get : σ → τ} {put : τ → σ → σ} {exn : φ → ε} {y : Prog τ φ α}
    (part : ∀ s, before s → Meets (fun t => t = get s) y (fun a t => after a (put t s))
      ⟨fun e t => exits.raised (exn e) (put t s), fun t => exits.killed (put t s)⟩) :
    Meets before (Prog.within get put exn y) after exits := by
  intro s holds
  have ended := part s holds (get s) rfl
  unfold Prog.within
  cases run : y (get s) with
  | mk ending t =>
    rw [run] at ended
    cases ending <;> exact ended

/-- A `for` loop with a variable: what is known after some elements is known after one more. -/
theorem fold {γ : Type} {body : γ → β → Prog σ ε γ} {list : List β}
    (keeps : List β → γ → σ → Prop)
    (step : ∀ passed b rest c, list = passed ++ b :: rest →
      Meets (keeps passed c) (body c b) (keeps (passed ++ [b])) exits) (c : γ) :
    Meets (keeps [] c) (Prog.fold body c list) (keeps list) exits := by
  have onward : ∀ rest passed c, list = passed ++ rest →
      Meets (keeps passed c) (Prog.fold body c rest) (keeps list) exits := by
    intro rest
    induction rest with
    | nil =>
      intro passed c all
      rw [all, List.append_nil]
      exact pure fun s holds => holds
    | cons b rest ih =>
      intro passed c all
      refine bind (step passed b rest c all) fun d => ?_
      apply ih (passed ++ [b]) d
      rw [all, List.append_assoc, List.singleton_append]
  exact onward list [] c rfl

/-- A `for` loop keeps what its body keeps. -/
theorem each {body : β → Prog σ ε Unit} {list : List β}
    (keeps : ∀ b ∈ list, Meets before (body b) (fun _ => before) exits) :
    Meets before (Prog.each body list) (fun _ => before) exits := by
  induction list with
  | nil => exact pure fun s holds => holds
  | cons b rest ih =>
    refine bind (keeps b List.mem_cons_self) fun _ => ?_
    exact ih fun c member => keeps c (List.mem_cons_of_mem b member)

end Meets

end Copr.Programs
