import Mathlib.Data.List.AList

/-!
# Remembered lookups

A function is asked through a memo: the answer for the first argument with some key is
remembered under that key and given for every later argument with the same key. So the answer
for an argument is the function's value at the first argument of its key that was ever asked.

A memo with a timeout forgets an answer some time after it was computed, and never remembers a
failure. So what it answers from memory was computed a short time ago, for an argument with the
same key.
-/

namespace Copr.Memo

variable {α κ β : Type*} [DecidableEq κ] (f : α → β) (key : α → κ)

/-- Ask for one argument. -/
def ask (memo : AList fun _ : κ => β) (a : α) : β × AList fun _ : κ => β :=
  match memo.lookup (key a) with
  | some b => (b, memo)
  | none => (f a, memo.insert (key a) (f a))

/-- The memo after some arguments one after another. -/
def askAll (memo : AList fun _ : κ => β) (as : List α) : AList fun _ : κ => β :=
  as.foldl (fun memo a => (ask f key memo a).2) memo

/-- The first argument with the key of `a`, which is `a` itself if there was none. -/
def first (as : List α) (a : α) : α := (as.find? fun b => decide (key b = key a)).getD a

variable {f key}

/-- After a question the answer is remembered under its key, unless another one was there before. -/
theorem lookup_ask (memo : AList fun _ : κ => β) (a : α) (k : κ) :
    (ask f key memo a).2.lookup k =
      (memo.lookup k).or (if key a = k then some (f a) else none) := by
  unfold ask
  cases known : memo.lookup (key a) with
  | some b =>
    by_cases same : key a = k
    · subst same
      simp [known]
    · simp [same]
  | none =>
    by_cases same : key a = k
    · subst same
      simp [known]
    · rw [AList.lookup_insert_ne (Ne.symm same)]
      simp [same]

/-- The memo holds the value at the first argument of each key. -/
theorem lookup_askAll (memo : AList fun _ : κ => β) (as : List α) (k : κ) :
    (askAll f key memo as).lookup k =
      (memo.lookup k).or ((as.find? fun a => decide (key a = k)).map f) := by
  induction as generalizing memo with
  | nil => simp [askAll]
  | cons a rest ih =>
    have later := ih (ask f key memo a).2
    have split_ : askAll f key memo (a :: rest) = askAll f key (ask f key memo a).2 rest := rfl
    rw [split_, later, lookup_ask]
    by_cases same : key a = k
    · simp [same]
    · simp [same]

/-- The answer for an argument is the value at the first argument of its key. -/
theorem ask_askAll (as : List α) (a : α) :
    (ask f key (askAll f key ∅ as) a).1 = f (first key as a) := by
  have found := @lookup_askAll _ _ _ _ f key ∅ as (key a)
  simp only [AList.lookup_empty, Option.none_or] at found
  unfold ask first
  cases earlier : as.find? fun b => decide (key b = key a) with
  | none => simp [found, earlier]
  | some b => simp [found, earlier]

omit [DecidableEq κ] in
/-- What holds of every element of a list with those before it. -/
theorem forall_split_cons {P : List α → α → Prop} {a : α} {as : List α} :
    (∀ before b after, a :: as = before ++ b :: after → P before b) ↔
      P [] a ∧ ∀ before b after, as = before ++ b :: after → P (a :: before) b := by
  constructor
  · intro all
    refine ⟨all [] a as rfl, fun before b after same => ?_⟩
    exact all (a :: before) b after (by rw [same, List.cons_append])
  · rintro ⟨first, later⟩ before b after same
    cases before with
    | nil =>
      obtain ⟨rfl, _⟩ := List.cons.inj same
      exact first
    | cons head tail =>
      obtain ⟨rfl, rest⟩ := List.cons.inj same
      exact later tail b after rest

/-! ## Answers that expire -/

section Timeout

variable {ε : Type*} (timeout : Int) (attempt : α → Except ε β) (time : α → Int)

/-- An answer with the time it was computed at. -/
structure Dated (β : Type*) where
  /-- The answer. -/
  answer : β
  /-- When it was computed. -/
  since : Int

variable (key)

/-- The answer for the key of an argument, unless it has expired. -/
def unexpired (memo : AList fun _ : κ => Dated β) (a : α) : Option β :=
  (memo.lookup (key a)).bind fun old =>
    if time a < old.since + timeout then some old.answer else none

/-- Ask for one argument, and remember a new answer. -/
def askDated (memo : AList fun _ : κ => Dated β) (a : α) :
    Except ε β × AList fun _ : κ => Dated β :=
  match unexpired key timeout time memo a with
  | some b => (.ok b, memo)
  | none =>
    match attempt a with
    | .ok b => (.ok b, memo.insert (key a) ⟨b, time a⟩)
    | .error e => (.error e, memo)

/-- The memo after some arguments one after another. -/
def askAllDated (memo : AList fun _ : κ => Dated β) (as : List α) : AList fun _ : κ => Dated β :=
  as.foldl (fun memo a => (askDated key timeout attempt time memo a).2) memo

variable {timeout attempt time key}

/-- What is in the memory is the answer. -/
theorem askDated_of_unexpired_some {memo : AList fun _ : κ => Dated β} {a : α} {b : β}
    (known : unexpired key timeout time memo a = some b) :
    (askDated key timeout attempt time memo a).1 = .ok b := by
  rw [askDated, known]

/-- Without an answer in the memory one is computed. -/
theorem askDated_of_unexpired_none {memo : AList fun _ : κ => Dated β} {a : α}
    (missing : unexpired key timeout time memo a = none) :
    (askDated key timeout attempt time memo a).1 = attempt a := by
  rw [askDated, missing]
  cases attempt a with
  | ok b => rfl
  | error e => rfl

/-- An answer that is in the memory after a question was there before, or is the new one. -/
theorem lookup_askDated {memo : AList fun _ : κ => Dated β} {a : α} {k : κ} {old : Dated β}
    (found : (askDated key timeout attempt time memo a).2.lookup k = some old) :
    memo.lookup k = some old ∨
      (key a = k ∧ time a = old.since ∧ attempt a = .ok old.answer) := by
  unfold askDated at found
  split at found
  · left
    exact found
  · split at found
    · rename_i computed
      by_cases same : key a = k
      · right
        rw [← same, AList.lookup_insert, Option.some_inj] at found
        rw [← found]
        exact ⟨same, rfl, computed⟩
      · left
        rw [AList.lookup_insert_ne (Ne.symm same)] at found
        exact found
    · left
      exact found

/-- An answer that is in the memory was computed for one of the arguments with its key. -/
theorem lookup_askAllDated {memo : AList fun _ : κ => Dated β} {as : List α} {k : κ}
    {old : Dated β}
    (found : (askAllDated key timeout attempt time memo as).lookup k = some old) :
    memo.lookup k = some old ∨
      ∃ a ∈ as, key a = k ∧ time a = old.since ∧ attempt a = .ok old.answer := by
  induction as generalizing memo with
  | nil =>
    left
    exact found
  | cons a rest ih =>
    cases ih found with
    | inl before =>
      cases lookup_askDated before with
      | inl known => exact Or.inl known
      | inr computed => exact Or.inr ⟨a, List.mem_cons_self, computed⟩
    | inr later =>
      have ⟨b, member, computed⟩ := later
      exact Or.inr ⟨b, List.mem_cons_of_mem a member, computed⟩

/-- What is answered from memory was computed within the timeout for the same key. -/
theorem unexpired_askAllDated {as : List α} {a : α} {b : β}
    (known : unexpired key timeout time (askAllDated key timeout attempt time ∅ as) a = some b) :
    ∃ earlier ∈ as, key earlier = key a ∧ time a < time earlier + timeout ∧
      attempt earlier = .ok b := by
  have ⟨old, found, given⟩ := Option.bind_eq_some_iff.mp known
  by_cases lasting : time a < old.since + timeout
  · rw [if_pos lasting, Option.some_inj] at given
    cases lookup_askAllDated found with
    | inl before =>
      rw [AList.lookup_empty] at before
      contradiction
    | inr computed =>
      have ⟨earlier, member, same, then_, value⟩ := computed
      rw [given] at value
      exact ⟨earlier, member, same, then_ ▸ lasting, value⟩
  · rw [if_neg lasting] at given
    contradiction

end Timeout

end Copr.Memo
