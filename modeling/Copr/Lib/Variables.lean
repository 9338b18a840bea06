import Copr.Lib.Text
import Copr.Lib.Tokens

/-!
# Texts with variables

In a text a variable is a mark with the name of the variable behind it, and the variables are
replaced by their values one after another. Two texts that consist of the same words are written
out to the same only when they are the same text, if the values are no beginnings of the names and
the names no beginnings of the values.
-/

namespace Copr.Variables

open Text Tokens

/-- A piece of a text: a character or a variable. -/
inductive Piece (V : Type*)
  /-- A character that stands for itself. -/
  | plain (c : Char)
  /-- A variable. -/
  | var (v : V)
  deriving DecidableEq, Repr

section Pieces

variable {V : Type*} (mark : Char) (name : V → List Char)

/-- The text as it is given. -/
def source : List (Piece V) → List Char
  | [] => []
  | .plain c :: rest => c :: source rest
  | .var v :: rest => mark :: (name v ++ source rest)

/-- The text with the values of the variables. -/
def written (value : V → List Char) : List (Piece V) → List Char
  | [] => []
  | .plain c :: rest => c :: written value rest
  | .var v :: rest => value v ++ written value rest

/-- The pieces with the value of one variable. -/
def settle [DecidableEq V] (v : V) (value : List Char) : List (Piece V) → List (Piece V)
  | [] => []
  | .plain c :: rest => .plain c :: settle v value rest
  | .var w :: rest =>
    if w = v then value.map Piece.plain ++ settle v value rest else .var w :: settle v value rest

/-- The mark stands in front of variables only. -/
def Marked (pieces : List (Piece V)) : Prop := ∀ c, Piece.plain c ∈ pieces → c ≠ mark

variable {mark name} {value : V → List Char} {pieces others : List (Piece V)} {c : Char} {v : V}

/-- The pieces behind the first one are marked as well. -/
theorem Marked.tail {first : Piece V} (marked : Marked mark (first :: pieces)) :
    Marked mark pieces :=
  fun c member => marked c (List.mem_cons_of_mem first member)

/-- The pieces of a value and of the rest. -/
theorem source_append_plain (letters : List Char) :
    source mark name (letters.map Piece.plain ++ pieces) = letters ++ source mark name pieces := by
  induction letters with
  | nil => rfl
  | cons c letters ih =>
    rw [List.map_cons, List.cons_append, source, ih]
    rfl

/-! ## Replacing variables -/

section Replace

variable {old : List Char} {new text rest : List Char}

/-- Characters that are skipped. -/
theorem replaceFrom_skip (skipped : List Char) :
    replaceFrom old new skipped.length (skipped ++ rest) = replaceFrom old new 0 rest := by
  induction skipped with
  | nil => rfl
  | cons c skipped ih =>
    rw [List.length_cons, List.cons_append, replaceFrom]
    exact ih

/-- What has no mark in it stays. -/
theorem replaceFrom_unmarked (unmarked : mark ∉ text) :
    replaceFrom (mark :: old) new 0 (text ++ rest) =
      text ++ replaceFrom (mark :: old) new 0 rest := by
  induction text with
  | nil => rfl
  | cons c text ih =>
    rw [List.mem_cons, not_or] at unmarked
    have other : (mark :: old).isPrefixOf (c :: (text ++ rest)) = false := by
      rw [List.isPrefixOf, beq_eq_false_iff_ne.mpr unmarked.1, Bool.false_and]
    rw [List.cons_append, replaceFrom, other, ih unmarked.2]
    rfl

/-- A text without the mark is not changed. -/
theorem replaceFrom_eq_self (unmarked : mark ∉ text) :
    replaceFrom (mark :: old) new 0 text = text := by
  have copied := @replaceFrom_unmarked mark old new text [] unmarked
  rw [List.append_nil] at copied
  rw [copied, replaceFrom, List.append_nil]

/-- What is found is replaced, and the text behind it goes on. -/
theorem replaceFrom_found :
    replaceFrom (mark :: old) new 0 (mark :: (old ++ rest)) =
      new ++ replaceFrom (mark :: old) new 0 rest := by
  have found : (mark :: old).isPrefixOf (mark :: (old ++ rest)) = true :=
    List.isPrefixOf_iff_prefix.mpr ⟨rest, rfl⟩
  rw [replaceFrom, found, if_pos rfl, List.length_cons, Nat.add_sub_cancel, replaceFrom_skip]

end Replace

/-- Replacing a variable in the text is giving it its value. -/
theorem replaceFrom_source [DecidableEq V] (letters : List Char)
    (unmarked : ∀ v, mark ∉ name v) (apart : ∀ v w, name v <+: name w → v = w)
    (marked : Marked mark pieces) :
    replaceFrom (mark :: name v) letters 0 (source mark name pieces) =
      source mark name (settle v letters pieces) := by
  induction pieces with
  | nil => rfl
  | cons piece pieces ih =>
    have later := ih marked.tail
    cases piece with
    | plain c =>
      have other : mark ∉ [c] := by
        rw [List.mem_singleton]
        exact fun same => marked c List.mem_cons_self same.symm
      have copied := @replaceFrom_unmarked mark (name v) letters [c] (source mark name pieces) other
      rw [source, settle, source, ← later]
      exact copied
    | var w =>
      rw [source, settle]
      by_cases same : w = v
      · rw [if_pos same, same, replaceFrom_found, later, source_append_plain]
      · have behind : (mark :: name v).isPrefixOf (mark :: (name w ++ source mark name pieces)) =
            false := by
          rw [Bool.eq_false_iff]
          intro found
          have front : name v <+: name w ++ source mark name pieces :=
            (List.cons_prefix_cons.mp (List.isPrefixOf_iff_prefix.mp found)).2
          rcases List.prefix_or_prefix_of_prefix front (List.prefix_append _ _) with short | long
          · exact same (apart v w short).symm
          · exact same (apart w v long)
        rw [if_neg same, source, replaceFrom, behind, replaceFrom_unmarked (unmarked w), later]
        rfl

/-- The mark still stands in front of variables only when a value without it was filled in. -/
theorem Marked.settle [DecidableEq V] {letters : List Char} (marked : Marked mark pieces)
    (unmarked : mark ∉ letters) : Marked mark (settle v letters pieces) := by
  induction pieces with
  | nil => exact marked
  | cons piece pieces ih =>
    have later := ih marked.tail
    intro c member
    cases piece with
    | plain d =>
      rw [Variables.settle, List.mem_cons] at member
      rcases member with same | behind
      · exact marked c (same ▸ List.mem_cons_self)
      · exact later c behind
    | var w =>
      rw [Variables.settle] at member
      split at member
      · rcases List.mem_append.mp member with filled | behind
        · have ⟨d, inside, same⟩ := List.mem_map.mp filled
          cases same
          exact ne_of_mem_of_not_mem inside unmarked
        · exact later c behind
      · rw [List.mem_cons] at member
        rcases member with same | behind
        · contradiction
        · exact later c behind

variable (value) in
/-- Two variables that have got their values one after the other. -/
theorem source_settle_settle [DecidableEq V] {w : V} (different : w ≠ v)
    (only : ∀ u, u = v ∨ u = w) :
    source mark name (settle w (value w) (settle v (value v) pieces)) = written value pieces := by
  have plain : ∀ (letters : List Char) (more : List (Piece V)),
      settle w (value w) (letters.map Piece.plain ++ more) =
        letters.map Piece.plain ++ settle w (value w) more := by
    intro letters more
    induction letters with
    | nil => rfl
    | cons c letters ih =>
      rw [List.map_cons, List.cons_append, settle, ih]
      rfl
  induction pieces with
  | nil => rfl
  | cons piece pieces ih =>
    cases piece with
    | plain c => rw [settle, settle, source, written, ih]
    | var u =>
      rcases only u with own | other
      · rw [settle, if_pos own, plain, source_append_plain, ih, written, own]
      · have late : u ≠ v := other ▸ different
        rw [settle, if_neg late, settle, if_pos other, source_append_plain, ih, written, other]

/-! ## Texts that are written out to the same -/

section Same

variable {keep : Char → Bool}

/-- The first letters of the text are those of the text with the values. -/
theorem takeWhile_source (dropped : keep mark = false) :
    (source mark name pieces).takeWhile keep <+: written value pieces := by
  induction pieces with
  | nil => exact List.nil_prefix
  | cons piece pieces ih =>
    cases piece with
    | plain c =>
      rw [source, written, List.takeWhile_cons]
      split
      · exact List.cons_prefix_cons.mpr ⟨rfl, ih⟩
      · exact List.nil_prefix
    | var v =>
      rw [source, List.takeWhile_cons, if_neg (by rw [dropped]; decide)]
      exact List.nil_prefix

/-- A character is not where a variable was: its word would be the name of the variable. -/
theorem not_plain_var (dropped : keep mark = false)
    (named : ∀ c ∈ name v, keep c = true)
    (begins : ∃ first ∈ (value v).head?, keep first = true)
    (differs : ¬value v <+: name v ∧ ¬name v <+: value v)
    (words : runs keep (source mark name (.plain c :: pieces)) =
      runs keep (source mark name (.var v :: others)))
    (same : written value (.plain c :: pieces) = written value (.var v :: others)) : False := by
  have ⟨first, head, kept⟩ := begins
  have ⟨rest, letters⟩ : ∃ rest, value v = first :: rest := by
    cases filled : value v with
    | nil => simp [filled] at head
    | cons a rest =>
      rw [filled, List.head?_cons, Option.mem_def, Option.some_inj] at head
      exact ⟨rest, by rw [head]⟩
  have front : c = first := by
    rw [written, written, letters] at same
    exact (List.cons.inj same).1
  have occupied : name v ≠ [] := fun empty => differs.2 (by rw [empty]; exact List.nil_prefix)
  rw [source, source, runs_cons_of_keep (front ▸ kept), runs_cons_of_drop dropped,
    runs_append_of_keep occupied named] at words
  have word := (List.cons.inj words).1
  have spelled : name v <+: c :: (source mark name pieces).takeWhile keep := by
    rw [word]
    exact List.prefix_append _ _
  have behind : c :: (source mark name pieces).takeWhile keep <+: c :: written value pieces :=
    List.cons_prefix_cons.mpr ⟨rfl, takeWhile_source dropped⟩
  have whole : name v <+: value v ++ written value others := by
    rw [written, written] at same
    rw [← same]
    exact spelled.trans behind
  rcases List.prefix_or_prefix_of_prefix whole (List.prefix_append _ _) with short | long
  · exact differs.2 short
  · exact differs.1 long

/-- Texts with the same words that are written out to the same have the same pieces. -/
theorem written_injective (dropped : keep mark = false)
    (named : ∀ v, ∀ c ∈ name v, keep c = true) (apart : ∀ v w, name v <+: name w → v = w)
    (begins : ∀ v, ∃ first ∈ (value v).head?, keep first = true)
    (differs : ∀ v, ¬value v <+: name v ∧ ¬name v <+: value v)
    (words : runs keep (source mark name pieces) = runs keep (source mark name others))
    (same : written value pieces = written value others) : pieces = others := by
  have filled : ∀ v, value v ≠ [] := by
    intro v empty
    have ⟨first, head, _⟩ := begins v
    rw [empty] at head
    contradiction
  have occupied : ∀ v, name v ≠ [] := fun v empty =>
    (differs v).2 (by rw [empty]; exact List.nil_prefix)
  induction pieces generalizing others with
  | nil =>
    cases others with
    | nil => rfl
    | cons piece others =>
      cases piece with
      | plain c => contradiction
      | var v =>
        rw [written, written] at same
        exact absurd (List.append_eq_nil_iff.mp same.symm).1 (filled v)
  | cons piece pieces ih =>
    cases piece with
    | plain c =>
      cases others with
      | nil => contradiction
      | cons other others =>
        cases other with
        | plain d =>
          rw [written, written] at same
          have ⟨letter, later⟩ := List.cons.inj same
          rw [← letter] at words ⊢
          rw [ih (runs_cons_inj words) later]
        | var v =>
          exact (not_plain_var dropped (named v) (begins v) (differs v) words same).elim
    | var v =>
      cases others with
      | nil =>
        rw [written, written] at same
        exact absurd (List.append_eq_nil_iff.mp same).1 (filled v)
      | cons other others =>
        cases other with
        | plain d =>
          exact (not_plain_var dropped (named v) (begins v) (differs v) words.symm
            same.symm).elim
        | var w =>
          rw [source, source, runs_cons_of_drop dropped, runs_cons_of_drop dropped] at words
          have equal : v = w := by
            rw [runs_append_of_keep (occupied v) (named v),
              runs_append_of_keep (occupied w) (named w)] at words
            have word := (List.cons.inj words).1
            have front : name v <+: name w ++ (source mark name others).takeWhile keep := by
              rw [← word]
              exact List.prefix_append _ _
            rcases List.prefix_or_prefix_of_prefix front (List.prefix_append _ _) with short | long
            · exact apart v w short
            · exact (apart w v long).symm
          rw [← equal] at words same ⊢
          rw [written, written, List.append_cancel_left_eq] at same
          rw [ih (runs_append_inj words) same]

end Same

end Pieces

end Copr.Variables
