import Mathlib.Logic.Function.Basic
import Mathlib.Order.Basic

/-!
# Maps with priorities

A map from keys to values in which every value has a priority and the number of its insertion.
The entry to be taken next has the least priority and is, among those, the oldest one. Requests
are served one after the other; which answers are right is a relation, so nothing is said about
how a map is stored.
-/

namespace Copr

/-- What is kept for a key. -/
structure PrioritySlot (π τ : Type*) where
  /-- The lower it is, the earlier the value is taken. -/
  priority : π
  /-- The number of the insertion. -/
  number : Nat
  /-- The value. -/
  value : τ

/-- A map from keys to values with priorities. -/
structure PriorityMap (κ π τ : Type*) where
  /-- The entry of a key. -/
  slot : κ → Option (PrioritySlot π τ)
  /-- The number of the next insertion. -/
  next : Nat

namespace PriorityMap

variable {κ π τ : Type*}

/-- A request to a map whose values know their keys. -/
inductive Request (κ π τ : Type*)
  /-- Insert a value, in place of the one with its key. -/
  | add (value : τ) (priority : π)
  /-- Remove the key of a value. -/
  | remove (value : τ)
  /-- Remove a key. -/
  | removeKey (key : κ)
  /-- Take the next value. -/
  | pop

/-- What a request is answered. -/
inductive Answer (τ : Type*)
  /-- It is done. -/
  | done
  /-- There is no such key, or no value at all. -/
  | keyError
  /-- The value that was taken. -/
  | popped (value : τ)
  deriving DecidableEq

/-- The map without entries. -/
def empty : PriorityMap κ π τ := ⟨fun _ => none, 0⟩

/-- One entry is to be taken earlier than another. -/
def Earlier [LT π] (s t : PrioritySlot π τ) : Prop :=
  s.priority < t.priority ∨ s.priority = t.priority ∧ s.number < t.number

/-- The entry that is to be taken next. -/
def Least [LT π] (m : PriorityMap κ π τ) (k : κ) (s : PrioritySlot π τ) : Prop :=
  m.slot k = some s ∧ ∀ k' t, m.slot k' = some t → k' ≠ k → Earlier s t

/-- There is at most one entry to be taken next. -/
theorem Least.unique [Preorder π] {m : PriorityMap κ π τ} {k k' : κ} {s t : PrioritySlot π τ}
    (first : m.Least k s) (second : m.Least k' t) : k = k' ∧ s = t := by
  by_cases same : k = k'
  · subst same
    exact ⟨rfl, Option.some.inj (first.1.symm.trans second.1)⟩
  · have before := first.2 k' t second.1 (Ne.symm same)
    have after := second.2 k s first.1 same
    rcases before with less | ⟨equal, older⟩
    · rcases after with more | ⟨equal, -⟩
      · exact absurd more less.asymm
      · exact absurd equal less.ne'
    · rcases after with more | ⟨-, newer⟩
      · exact absurd equal more.ne'
      · exact absurd newer (Nat.lt_asymm older)

/-- Every entry is found under the key of its value. -/
def Keyed (key : τ → κ) (m : PriorityMap κ π τ) : Prop :=
  ∀ k s, m.slot k = some s → key s.value = k

/-- The map without entries keeps all of them under the right keys. -/
theorem empty_keyed (key : τ → κ) : (empty : PriorityMap κ π τ).Keyed key := by
  intro k s held
  simp [empty] at held

variable [DecidableEq κ]

/-- Insert a value under a key, with a fresh number. -/
def insert (m : PriorityMap κ π τ) (k : κ) (priority : π) (value : τ) : PriorityMap κ π τ where
  slot := Function.update m.slot k (some ⟨priority, m.next, value⟩)
  next := m.next + 1

/-- Remove a key. -/
def erase (m : PriorityMap κ π τ) (k : κ) : PriorityMap κ π τ :=
  { m with slot := Function.update m.slot k none }

/-- The entries after an insertion. -/
theorem slot_insert {m : PriorityMap κ π τ} {k k' : κ} {priority : π} {value : τ}
    {s : PrioritySlot π τ} :
    (m.insert k priority value).slot k' = some s ↔
      (k' = k ∧ s = ⟨priority, m.next, value⟩) ∨ (k' ≠ k ∧ m.slot k' = some s) := by
  by_cases same : k' = k
  · subst same
    simp [insert, eq_comm]
  · simp [insert, same]

/-- The entries after a removal. -/
theorem slot_erase {m : PriorityMap κ π τ} {k k' : κ} {s : PrioritySlot π τ} :
    (m.erase k).slot k' = some s ↔ k' ≠ k ∧ m.slot k' = some s := by
  by_cases same : k' = k
  · subst same
    simp [erase]
  · simp [erase, same]

/-- The right answer to a request, and the map after it. -/
inductive Serves [LT π] (key : τ → κ) :
    PriorityMap κ π τ → Request κ π τ → Answer τ → PriorityMap κ π τ → Prop
  /-- A value is inserted. -/
  | add (m : PriorityMap κ π τ) (value : τ) (priority : π) :
    Serves key m (.add value priority) .done (m.insert (key value) priority value)
  /-- The key of a value is removed. -/
  | remove {m : PriorityMap κ π τ} {value : τ} (present : m.slot (key value) ≠ none) :
    Serves key m (.remove value) .done (m.erase (key value))
  /-- The key of a value is not there. -/
  | removeMissing {m : PriorityMap κ π τ} {value : τ} (absent : m.slot (key value) = none) :
    Serves key m (.remove value) .keyError m
  /-- A key is removed. -/
  | removeKey {m : PriorityMap κ π τ} {k : κ} (present : m.slot k ≠ none) :
    Serves key m (.removeKey k) .done (m.erase k)
  /-- A key is not there. -/
  | removeMissingKey {m : PriorityMap κ π τ} {k : κ} (absent : m.slot k = none) :
    Serves key m (.removeKey k) .keyError m
  /-- The next value is taken. -/
  | pop {m : PriorityMap κ π τ} {k : κ} {s : PrioritySlot π τ} (least : m.Least k s) :
    Serves key m .pop (.popped s.value) (m.erase k)
  /-- There is nothing to take. -/
  | popEmpty {m : PriorityMap κ π τ} (nothing : ∀ k, m.slot k = none) :
    Serves key m .pop .keyError m

/-- A request has one right answer. -/
theorem Serves.unique [Preorder π] {key : τ → κ} {m u v : PriorityMap κ π τ}
    {request : Request κ π τ} {a b : Answer τ} (first : Serves key m request a u)
    (second : Serves key m request b v) : a = b ∧ u = v := by
  cases first with
  | add =>
    cases second
    exact ⟨rfl, rfl⟩
  | remove present =>
    cases second with
    | remove => exact ⟨rfl, rfl⟩
    | removeMissing absent => exact absurd absent present
  | removeMissing absent =>
    cases second with
    | remove present => exact absurd absent present
    | removeMissing => exact ⟨rfl, rfl⟩
  | removeKey present =>
    cases second with
    | removeKey => exact ⟨rfl, rfl⟩
    | removeMissingKey absent => exact absurd absent present
  | removeMissingKey absent =>
    cases second with
    | removeKey present => exact absurd absent present
    | removeMissingKey => exact ⟨rfl, rfl⟩
  | pop least =>
    cases second with
    | pop other =>
      obtain ⟨rfl, rfl⟩ := least.unique other
      exact ⟨rfl, rfl⟩
    | popEmpty nothing => exact absurd ((nothing _).symm.trans least.1) (by simp)
  | popEmpty nothing =>
    cases second with
    | pop least => exact absurd ((nothing _).symm.trans least.1) (by simp)
    | popEmpty => exact ⟨rfl, rfl⟩

/-! ## Histories of requests -/

/-- All requests of a history are answered as they should be. -/
def Answers [LT π] (key : τ → κ) :
    PriorityMap κ π τ → List (Request κ π τ × Answer τ) → PriorityMap κ π τ → Prop
  | m, [], last => last = m
  | m, (request, answer) :: rest, last =>
    ∃ u, Serves key m request answer u ∧ Answers key u rest last

/-- There is one right history for a list of requests. -/
theorem Answers.unique [Preorder π] {key : τ → κ} {m u v : PriorityMap κ π τ}
    {first second : List (Request κ π τ × Answer τ)} (one : Answers key m first u)
    (other : Answers key m second v) (same : first.map Prod.fst = second.map Prod.fst) :
    first = second ∧ u = v := by
  induction first generalizing m second with
  | nil =>
    obtain rfl := List.map_eq_nil_iff.mp same.symm
    exact ⟨rfl, one.trans other.symm⟩
  | cons event rest ih =>
    cases second with
    | nil => simp at same
    | cons event' rest' =>
      obtain ⟨request, a⟩ := event
      obtain ⟨request', b⟩ := event'
      obtain ⟨heads, tails⟩ := List.cons.inj same
      obtain rfl : request = request' := heads
      obtain ⟨w, served, after⟩ := one
      obtain ⟨w', served', after'⟩ := other
      obtain ⟨rfl, rfl⟩ := served.unique served'
      obtain ⟨rfl, last⟩ := ih after after' tails
      exact ⟨rfl, last⟩

/-- What happened in a history concerned the entry of a key. -/
def Concerns (key : τ → κ) (k : κ) : Request κ π τ × Answer τ → Prop
  | (.add value _, _) => key value = k
  | (.remove value, .done) => key value = k
  | (.removeKey k', .done) => k' = k
  | (.pop, .popped value) => key value = k
  | _ => False

/-- A served request keeps the keys right. -/
theorem Serves.keyed [LT π] {key : τ → κ} {m u : PriorityMap κ π τ} {request : Request κ π τ}
    {answer : Answer τ} (served : Serves key m request answer u) (keyed : m.Keyed key) :
    u.Keyed key := by
  have erased : ∀ k', (m.erase k').Keyed key := fun k' k s held => keyed k s (slot_erase.mp held).2
  cases served with
  | add value priority =>
    intro k s held
    rcases slot_insert.mp held with ⟨rfl, rfl⟩ | ⟨-, old⟩
    · rfl
    · exact keyed k s old
  | remove | removeKey | pop => exact erased _
  | removeMissing | removeMissingKey | popEmpty => exact keyed

/-- The entry of a key after a request: a new one, none, or the old one when the request did not
concern it. -/
theorem Serves.slot_iff [LT π] {key : τ → κ} {m u : PriorityMap κ π τ} {request : Request κ π τ}
    {answer : Answer τ} (served : Serves key m request answer u) (keyed : m.Keyed key) {k : κ}
    {s : PrioritySlot π τ} :
    u.slot k = some s ↔
      (request = .add s.value s.priority ∧ key s.value = k ∧ s.number = m.next) ∨
      (¬ Concerns key k (request, answer) ∧ m.slot k = some s) := by
  cases served with
  | add value priority =>
    obtain ⟨p, n, v⟩ := s
    rw [slot_insert]
    simp only [Concerns, PrioritySlot.mk.injEq, Request.add.injEq]
    constructor
    · rintro (⟨rfl, rfl, rfl, rfl⟩ | ⟨other, old⟩)
      · exact Or.inl ⟨⟨rfl, rfl⟩, rfl, rfl⟩
      · exact Or.inr ⟨Ne.symm other, old⟩
    · rintro (⟨⟨rfl, rfl⟩, rfl, rfl⟩ | ⟨other, old⟩)
      · exact Or.inl ⟨rfl, rfl, rfl, rfl⟩
      · exact Or.inr ⟨Ne.symm other, old⟩
  | remove => simp [Concerns, slot_erase, @eq_comm _ k]
  | removeKey => simp [Concerns, slot_erase, @eq_comm _ k]
  | removeMissing => simp [Concerns]
  | removeMissingKey => simp [Concerns]
  | popEmpty => simp [Concerns]
  | pop least =>
    have its := keyed _ _ least.1
    simp [Concerns, slot_erase, its, @eq_comm _ k]

/-- A value is in the map exactly if it was added, or there from the start, and nothing that
happened since concerned its key. -/
theorem Answers.slot_iff [LT π] {key : τ → κ} {m last : PriorityMap κ π τ}
    {history : List (Request κ π τ × Answer τ)} (answered : Answers key m history last)
    (keyed : m.Keyed key) {k : κ} {priority : π} {value : τ} :
    (∃ n, last.slot k = some ⟨priority, n, value⟩) ↔
      ((∃ n, m.slot k = some ⟨priority, n, value⟩) ∧ ∀ event ∈ history, ¬ Concerns key k event) ∨
      ∃ before answer after, history = before ++ (.add value priority, answer) :: after ∧
        key value = k ∧ ∀ event ∈ after, ¬ Concerns key k event := by
  induction history generalizing m with
  | nil =>
    obtain rfl : last = m := answered
    simp
  | cons event rest ih =>
    obtain ⟨request, answer⟩ := event
    obtain ⟨u, served, after⟩ := answered
    have step : (∃ n, u.slot k = some ⟨priority, n, value⟩) ↔
        (request = .add value priority ∧ key value = k) ∨
        (¬ Concerns key k (request, answer) ∧ ∃ n, m.slot k = some ⟨priority, n, value⟩) := by
      simp only [served.slot_iff keyed, exists_or, exists_and_left, exists_eq, and_true]
    rw [ih after (served.keyed keyed), step]
    constructor
    · rintro (⟨⟨rfl, its⟩ | ⟨spared, held⟩, never⟩ | ⟨before, a, later, rfl, its, never⟩)
      · exact Or.inr ⟨[], answer, rest, rfl, its, never⟩
      · exact Or.inl ⟨held, List.forall_mem_cons.mpr ⟨spared, never⟩⟩
      · exact Or.inr ⟨(request, answer) :: before, a, later, rfl, its, never⟩
    · rintro (⟨held, never⟩ | ⟨before, a, later, split, its, never⟩)
      · have ⟨spared, never⟩ := List.forall_mem_cons.mp never
        exact Or.inl ⟨Or.inr ⟨spared, held⟩, never⟩
      · cases before with
        | nil =>
          obtain ⟨same, rfl⟩ := List.cons.inj split
          exact Or.inl ⟨Or.inl ⟨congrArg Prod.fst same, its⟩, never⟩
        | cons first before =>
          obtain ⟨-, rfl⟩ := List.cons.inj split
          exact Or.inr ⟨before, a, later, rfl, its, never⟩

/-- A history in two parts leads through the map after the first part. -/
theorem answers_append [LT π] {key : τ → κ} {m last : PriorityMap κ π τ}
    {first second : List (Request κ π τ × Answer τ)} :
    Answers key m (first ++ second) last ↔
      ∃ u, Answers key m first u ∧ Answers key u second last := by
  induction first generalizing m with
  | nil => simp [Answers]
  | cons event rest ih =>
    obtain ⟨request, answer⟩ := event
    simp only [List.cons_append, Answers, ih]
    constructor
    · rintro ⟨u, served, v, before, after⟩
      exact ⟨v, ⟨u, served, before⟩, after⟩
    · rintro ⟨v, ⟨u, served, before⟩, after⟩
      exact ⟨u, served, v, before, after⟩

/-- A value that is taken was added before, and nothing in between concerned its key. -/
theorem Answers.popped [LT π] {key : τ → κ} {last : PriorityMap κ π τ}
    {past future : List (Request κ π τ × Answer τ)} {value : τ}
    (answered : Answers key empty (past ++ (.pop, .popped value) :: future) last) :
    ∃ before priority answer after,
      past = before ++ (.add value priority, answer) :: after ∧
        ∀ event ∈ after, ¬ Concerns key (key value) event := by
  obtain ⟨m, past_answered, u, served, -⟩ := answers_append.mp answered
  cases served with
  | @pop k s least =>
    obtain ⟨priority, n, value⟩ := s
    obtain ⟨⟨n, held⟩, -⟩ | ⟨before, answer, after, rfl, rfl, never⟩ :=
      (past_answered.slot_iff (empty_keyed key)).mp ⟨n, least.1⟩
    · simp [empty] at held
    · exact ⟨before, priority, answer, after, rfl, never⟩

end PriorityMap

end Copr
