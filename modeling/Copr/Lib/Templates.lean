import Copr.Lib.Literals
import Mathlib.Data.List.Forall2

/-!
# Programs from templates

A template puts values between the quotes of string literals. The text is read as it was meant
exactly when every value fits between its quotes: an escape sequence is longer than what it stands
for, so that no other reading of the whole text has the same values.
-/

namespace Copr.Literals

/-! ## Values that fit -/

/-- The value fits between its quotes: it has no escape sequence, does not end the literal, and has
no character that the reader replaces or refuses. -/
structure Fits (q : Quote) (value : List Char) : Prop where
  /-- No backslash begins an escape sequence, and none is the last character. -/
  plain : unescaped value = true
  /-- The closing quotes are the first that end the literal. -/
  enclosed : marks q 0 value = some 0
  /-- Short literals have one line. -/
  lines : q.long = true ∨ '\n' ∉ value
  /-- There is no other line end. -/
  returns : '\r' ∉ value
  /-- There is no null character, which no program has. -/
  nulls : Char.ofNat 0 ∉ value

section Values
variable {q : Quote} {k n : Nat} {c : Char} {source read more : List Char} {toks : List Token}

/-- A text without escape sequences that does not end the literal is read into it. -/
theorem run_inside (quote : isQuote q.mark = true) (plain : unescaped source = true)
    (lines : q.long = true ∨ '\n' ∉ source) :
    (∀ {read n}, marks q n source = some k →
      ∃ read', run (.inside q read n) source = some (.inside q read' k, []) ∧
        List.replicate k q.mark ++ read' =
          source.reverse ++ (List.replicate n q.mark ++ read)) ∧
    (∀ {read}, marks q 0 source = some k → source.head?.any (fun d => !special d) = true →
      ∃ read', run (.escaped q read) source = some (.inside q read' k, []) ∧
        List.replicate k q.mark ++ read' = source.reverse ++ read) := by
  induction source with
  | nil =>
    constructor
    · intro read n counted
      cases counted
      exact ⟨read, rfl, rfl⟩
    · intro read _ ordinary
      contradiction
  | cons c rest ih =>
    rw [unescaped, Bool.and_eq_true, Bool.or_eq_true] at plain
    obtain ⟨first, others⟩ := plain
    obtain ⟨inside, escaped⟩ := ih others (lines.imp_right fun absent member =>
      absent (List.mem_cons_of_mem c member))
    constructor
    · intro read n counted
      rw [marks] at counted
      simp only [run, step, stepInside]
      by_cases backslash : c = '\\'
      · have other : c ≠ q.mark := fun same => by
          rw [← same, backslash] at quote
          contradiction
        rw [if_neg other] at counted
        have follows : rest.head?.any (fun d => !special d) = true :=
          first.resolve_left fun other => of_decide_eq_true other backslash
        obtain ⟨read', ran, same⟩ :=
          @escaped ('\\' :: (List.replicate n q.mark ++ read)) counted follows
        refine ⟨read', ?_, ?_⟩
        · rw [if_pos backslash, Option.bind_some, ran]
          rfl
        · rw [same, backslash, List.reverse_cons, List.append_assoc]
          rfl
      · rw [if_neg backslash]
        by_cases mark : c = q.mark
        · rw [if_pos mark] at counted ⊢
          by_cases full : n + 1 = q.size
          · rw [if_pos full] at counted
            contradiction
          · rw [if_neg full] at counted ⊢
            obtain ⟨read', ran, same⟩ := @inside read (n + 1) counted
            refine ⟨read', ?_, ?_⟩
            · rw [Option.bind_some, ran]
              rfl
            · rw [same, mark, List.reverse_cons, List.append_assoc, List.replicate_succ]
              rfl
        · rw [if_neg mark] at counted ⊢
          have line : ¬(c = '\n' ∧ q.long = false) := by
            rintro ⟨newline, short⟩
            cases lines with
            | inl long =>
              rw [short] at long
              contradiction
            | inr absent => exact absent (newline ▸ List.mem_cons_self)
          obtain ⟨read', ran, same⟩ :=
            @inside (c :: (List.replicate n q.mark ++ read)) 0 counted
          refine ⟨read', ?_, ?_⟩
          · rw [if_neg line, Option.bind_some, ran]
            rfl
          · rw [same, List.reverse_cons, List.append_assoc]
            rfl
    · intro read counted ordinary
      have ordinary : special c = false := by simpa using ordinary
      have other : c ≠ q.mark := fun same => by
        rw [same, special_of_isQuote quote] at ordinary
        contradiction
      rw [marks, if_neg other] at counted
      obtain ⟨read', ran, same⟩ := @inside (c :: read) 0 counted
      refine ⟨read', ?_, ?_⟩
      · simp only [run, step, Option.bind_some]
        rw [ran]
        rfl
      · rw [same, List.reverse_cons, List.append_assoc]
        rfl

/-- The closing quotes end a literal, and the reader is in code again. -/
theorem run_closing (quote : isQuote q.mark = true) :
    run (.inside q read 0) (q.text ++ more) =
      (run .code more).map fun last => (last.1, .literal q read.reverse :: last.2) := by
  have backslash : q.mark ≠ '\\' := fun same => by
    rw [same] at quote
    contradiction
  obtain ⟨mark, long⟩ := q
  cases long <;>
    simp [Quote.text, Quote.size, run, step, stepInside, if_neg backslash, Function.comp_def]

/-- The opening quotes, unless the literal is empty. -/
theorem run_opening (quote : isQuote q.mark = true) (fits : Fits q source)
    (nonempty : q.long = true ∨ source ≠ []) :
    run .code (q.text ++ (source ++ more)) = run (.inside q [] 0) (source ++ more) := by
  obtain ⟨mark, long⟩ := q
  have opened (text : List Char) :
      run .code (mark :: text) = run (.opening mark false) text := by
    simp only [run, step, stepCode, if_pos quote, Option.bind_some, List.nil_append]
    exact Option.map_id'
  cases long with
  | true =>
    show run .code (mark :: mark :: mark :: (source ++ more)) = _
    rw [opened]
    simp only [run, step, if_pos, Option.bind_some, List.nil_append]
    rw [Option.map_id', Option.map_id']
  | false =>
    cases source with
    | nil => simp at nonempty
    | cons c rest =>
      have other : c ≠ mark := by
        intro same
        have enclosed := fits.enclosed
        rw [marks, if_pos same] at enclosed
        contradiction
      show run .code (mark :: c :: (rest ++ more)) = _
      rw [opened]
      simp only [List.cons_append, run, step, if_neg other]

/-- A literal whose value fits, before some other text. -/
theorem run_literal (quote : isQuote q.mark = true) (fits : Fits q source)
    (other : isQuote c = false) :
    run .code (q.text ++ source ++ q.text ++ c :: more) =
      (run .code (c :: more)).map fun last => (last.1, .literal q source :: last.2) := by
  by_cases nonempty : q.long = true ∨ source ≠ []
  · obtain ⟨inside, -⟩ := run_inside (k := 0) quote fits.plain fits.lines
    obtain ⟨read', ran, same⟩ := @inside [] 0 fits.enclosed
    rw [List.append_assoc, List.append_assoc, run_opening quote fits nonempty, run_append, ran,
      Option.bind_some]
    dsimp only
    rw [run_closing quote, Option.map_map]
    have same : read' = source.reverse := by simpa using same
    rw [same, List.reverse_reverse]
    rfl
  · rw [not_or, Bool.not_eq_true, not_not] at nonempty
    obtain ⟨short, empty⟩ := nonempty
    obtain ⟨mark, long⟩ := q
    have different : c ≠ mark := fun same => by
      rw [same] at other
      rw [other] at quote
      contradiction
    dsimp only at short
    rw [short, empty]
    show run .code (mark :: mark :: c :: more) = _
    simp only [run, step, stepCode, if_pos quote, if_pos, if_neg different, Option.bind_some,
      List.nil_append]
    rw [Option.map_id', Option.map_id']
    rw [Option.map_map]
    rfl

end Values

/-! ## Values of one line and of many -/

section OneLine

variable {mark c : Char} {q : Quote} {n : Nat} {value line more : List Char}
  {lines : List (List Char)}

/-- The value has no escape sequence and fits into a line between such quotes. -/
structure FitsLine (mark : Char) (value : List Char) : Prop where
  /-- No backslash begins an escape sequence, and none is the last character. -/
  plain : unescaped value = true
  /-- There is no quote. -/
  quotes : mark ∉ value
  /-- There is no line end. -/
  newlines : '\n' ∉ value
  /-- There is no other line end. -/
  returns : '\r' ∉ value
  /-- There is no null character. -/
  nulls : Char.ofNat 0 ∉ value

/-- A value fits a line in quotes exactly when it has no escape, no quote, no line end and no zero.
-/
theorem fitsLine_iff : FitsLine mark value ↔ unescaped value = true ∧ mark ∉ value ∧
    '\n' ∉ value ∧ '\r' ∉ value ∧ Char.ofNat 0 ∉ value := by
  constructor
  · intro fits
    exact ⟨fits.plain, fits.quotes, fits.newlines, fits.returns, fits.nulls⟩
  · rintro ⟨plain, quotes, newlines, returns, nulls⟩
    exact ⟨plain, quotes, newlines, returns, nulls⟩

instance FitsLine.decidable (mark : Char) (value : List Char) : Decidable (FitsLine mark value) :=
  decidable_of_iff' _ fitsLine_iff

/-- The line fits into a literal of many lines between three such quotes on each side. -/
structure FitsLong (mark : Char) (line : List Char) : Prop where
  /-- No backslash begins an escape sequence, with the line end after the line. -/
  plain : unescaped (line ++ ['\n']) = true
  /-- There are no three quotes in a row. -/
  enclosed : (marks ⟨mark, true⟩ 0 line).isSome = true
  /-- There is no carriage return. -/
  returns : '\r' ∉ line
  /-- There is no null character. -/
  nulls : Char.ofNat 0 ∉ line

/-- A line fits a long literal exactly when it has no escape, no closing quotes, no carriage return
and no zero. -/
theorem fitsLong_iff : FitsLong mark line ↔ unescaped (line ++ ['\n']) = true ∧
    (marks ⟨mark, true⟩ 0 line).isSome = true ∧ '\r' ∉ line ∧ Char.ofNat 0 ∉ line := by
  constructor
  · intro fits
    exact ⟨fits.plain, fits.enclosed, fits.returns, fits.nulls⟩
  · rintro ⟨plain, enclosed, returns, nulls⟩
    exact ⟨plain, enclosed, returns, nulls⟩

instance FitsLong.decidable (mark : Char) (line : List Char) : Decidable (FitsLong mark line) :=
  decidable_of_iff' _ fitsLong_iff

/-- Some lines, each after a line end. -/
def stack (lines : List (List Char)) : List Char := lines.flatMap fun line => '\n' :: line

/-- A short literal is ended by the first of its quotes. -/
theorem marks_short : marks ⟨mark, false⟩ 0 value = some 0 ↔ mark ∉ value := by
  induction value with
  | nil => simp [marks]
  | cons c rest ih =>
    rw [marks, List.mem_cons, not_or, ← ih]
    by_cases same : c = mark
    · simp [same, Quote.size]
    · simp [same, Ne.symm same]

/-- What fits into a short literal. -/
theorem fits_short_iff : Fits ⟨mark, false⟩ value ↔ FitsLine mark value := by
  constructor
  · rintro ⟨plain, enclosed, lines, returns, nulls⟩
    exact ⟨plain, marks_short.mp enclosed, lines.resolve_left Bool.false_ne_true, returns, nulls⟩
  · rintro ⟨plain, quotes, newlines, returns, nulls⟩
    exact ⟨plain, marks_short.mpr quotes, Or.inr newlines, returns, nulls⟩

/-- Escape sequences do not go beyond the end of a line and the character after it. -/
theorem unescaped_line : unescaped (line ++ '\n' :: more) =
    (unescaped (line ++ ['\n']) && unescaped more) := by
  have newline : '\n' ≠ '\\' := by decide
  induction line with
  | nil =>
    rw [List.nil_append, List.nil_append, unescaped_cons newline, unescaped_cons newline]
    rfl
  | cons c rest ih =>
    have head : (rest ++ '\n' :: more).head? = (rest ++ ['\n']).head? := by
      cases rest <;> rfl
    rw [List.cons_append, List.cons_append, unescaped, unescaped, ih, head, Bool.and_assoc]

/-- Quotes on different lines are not in a row. -/
theorem marks_line (quote : isQuote q.mark = true) : marks q n (line ++ '\n' :: more) =
    (marks q n line).bind fun _ => marks q 0 more := by
  have other : '\n' ≠ q.mark := fun same => by
    rw [← same] at quote
    contradiction
  rw [marks_append]
  congr 1
  funext k
  rw [marks, if_neg other]

/-- The line ends may be counted to the lines before them. -/
theorem stack_eq : stack (lines ++ [[]]) = '\n' :: lines.flatMap fun line => line ++ ['\n'] := by
  induction lines with
  | nil => rfl
  | cons line rest ih =>
    show '\n' :: line ++ stack (rest ++ [[]]) = _
    rw [ih, List.flatMap_cons, List.append_assoc]
    rfl

/-- What fits into a literal of many lines. -/
theorem fits_stack_iff (quote : isQuote mark = true) :
    Fits ⟨mark, true⟩ (stack (lines ++ [[]])) ↔ ∀ line ∈ lines, FitsLong mark line := by
  have backslash : '\n' ≠ '\\' := by decide
  have other : '\n' ≠ mark := fun same => by
    rw [← same] at quote
    contradiction
  have plain : unescaped (stack (lines ++ [[]])) = true ↔
      ∀ line ∈ lines, unescaped (line ++ ['\n']) = true := by
    rw [stack_eq, unescaped_cons backslash]
    induction lines with
    | nil => simp [unescaped]
    | cons line rest ih =>
      rw [List.flatMap_cons, List.append_assoc, List.singleton_append, unescaped_line,
        Bool.and_eq_true, ih, List.forall_mem_cons]
  have enclosed : marks ⟨mark, true⟩ 0 (stack (lines ++ [[]])) = some 0 ↔
      ∀ line ∈ lines, (marks ⟨mark, true⟩ 0 line).isSome = true := by
    rw [stack_eq, marks, if_neg other]
    clear plain
    induction lines with
    | nil => simp [marks]
    | cons line rest ih =>
      rw [List.flatMap_cons, List.append_assoc, List.singleton_append, marks_line quote,
        List.forall_mem_cons, ← ih]
      cases marks ⟨mark, true⟩ 0 line <;> simp
  have absent {c : Char} (other : c ≠ '\n') :
      c ∉ stack (lines ++ [[]]) ↔ ∀ line ∈ lines, c ∉ line := by
    simp [stack, other]
  have returns : '\r' ≠ '\n' := by decide
  have nulls : Char.ofNat 0 ≠ '\n' := by decide
  constructor
  · intro fits line member
    exact ⟨plain.mp fits.plain line member, enclosed.mp fits.enclosed line member,
      (absent returns).mp fits.returns line member, (absent nulls).mp fits.nulls line member⟩
  · intro fits
    exact ⟨plain.mpr fun line member => (fits line member).plain,
      enclosed.mpr fun line member => (fits line member).enclosed, Or.inl rfl,
      (absent returns).mpr fun line member => (fits line member).returns,
      (absent nulls).mpr fun line member => (fits line member).nulls⟩

/-- There is nothing in the text that could matter in a literal of many lines. -/
def Harmless (mark : Char) (text : List Char) : Prop :=
  '\\' ∉ text ∧ mark ∉ text ∧ '\r' ∉ text ∧ Char.ofNat 0 ∉ text

instance Harmless.decidable (mark : Char) (text : List Char) : Decidable (Harmless mark text) :=
  inferInstanceAs (Decidable (_ ∧ _))

/-- What stands behind such a text. -/
theorem fitsLong_append (harmless : Harmless mark value) :
    FitsLong mark (value ++ line) ↔ FitsLong mark line := by
  obtain ⟨backslashes, quotes, returns, nulls⟩ := harmless
  have plain : unescaped (value ++ line ++ ['\n']) = unescaped (line ++ ['\n']) := by
    clear quotes returns nulls
    induction value with
    | nil => rfl
    | cons c rest ih =>
      rw [List.mem_cons, not_or] at backslashes
      rw [List.cons_append, List.cons_append, unescaped_cons (Ne.symm backslashes.1),
        ih backslashes.2]
  have enclosed : marks ⟨mark, true⟩ 0 (value ++ line) = marks ⟨mark, true⟩ 0 line := by
    clear backslashes returns nulls plain
    induction value with
    | nil => rfl
    | cons c rest ih =>
      rw [List.mem_cons, not_or] at quotes
      rw [List.cons_append, marks, if_neg (Ne.symm quotes.1), ih quotes.2]
  constructor
  · intro fits
    exact ⟨plain ▸ fits.plain, enclosed ▸ fits.enclosed,
      fun there => fits.returns (List.mem_append_right _ there),
      fun there => fits.nulls (List.mem_append_right _ there)⟩
  · intro fits
    exact ⟨plain ▸ fits.plain, enclosed ▸ fits.enclosed,
      fun there => (List.mem_append.mp there).elim returns fits.returns,
      fun there => (List.mem_append.mp there).elim nulls fits.nulls⟩

/-- A harmless text alone fits a long literal. -/
theorem Harmless.fitsLong (harmless : Harmless mark value) : FitsLong mark value := by
  rw [← List.append_nil value, fitsLong_append harmless]
  exact ⟨rfl, rfl, List.not_mem_nil, List.not_mem_nil⟩

end OneLine

/-! ## Lines of a program -/

/-- A text with its line ends replaced by one character each, after a carriage return or not. -/
def lineEnds : Bool → List Char → List Char
  | _, [] => []
  | returned, c :: rest =>
    if c = '\r' then '\n' :: lineEnds true rest
    else if c = '\n' ∧ returned = true then lineEnds false rest
    else c :: lineEnds false rest

/-- The tokens of a program text; `none` when it is no program. -/
def readText (text : List Char) : Option (List Token) :=
  if Char.ofNat 0 ∈ text then none else lex (lineEnds false text)

section Lines

variable {returned : Bool} {text : List Char} {toks : List Token}

/-- The text does not get longer. -/
theorem lineEnds_length : (lineEnds returned text).length ≤ text.length := by
  induction text generalizing returned with
  | nil => exact Nat.le_refl _
  | cons c rest ih =>
    rw [lineEnds]
    split
    · exact Nat.succ_le_succ ih
    · split
      · exact Nat.le_succ_of_le ih
      · exact Nat.succ_le_succ ih

/-- There is no carriage return left. -/
theorem lineEnds_returns : '\r' ∉ lineEnds returned text := by
  induction text generalizing returned with
  | nil => exact List.not_mem_nil
  | cons c rest ih =>
    have newline : '\r' ≠ '\n' := by decide
    rw [lineEnds]
    split
    · exact List.not_mem_cons_of_ne_of_not_mem newline ih
    · rename_i other
      split
      · exact ih
      · exact List.not_mem_cons_of_ne_of_not_mem (Ne.symm other) ih

/-- A text without carriage returns stays. -/
theorem lineEnds_eq (none : '\r' ∉ text) : lineEnds false text = text := by
  induction text with
  | nil => rfl
  | cons c rest ih =>
    rw [List.mem_cons, not_or] at none
    rw [lineEnds, if_neg (Ne.symm none.1), if_neg (by simp), ih none.2]

/-- What it means that a text is a program. -/
theorem readText_eq_some : readText text = some toks ↔
    Char.ofNat 0 ∉ text ∧ lex (lineEnds false text) = some toks := by
  rw [readText]
  split
  · rename_i null
    simp [null]
  · rename_i null
    simp [null]

end Lines

/-! ## Pieces -/

/-- A piece of a template with its value. -/
inductive Piece
  /-- Text outside of the literals that are given values, which is read by itself. -/
  | code (text : List Char)
  /-- A literal that is meant to have a value. -/
  | literal (q : Quote) (value : List Char)

namespace Piece

/-- The text of a piece, with the value as it is. -/
def text : Piece → List Char
  | .code text => text
  | .literal q value => q.text ++ value ++ q.text

/-- The tokens are what the piece means. -/
def Means (names : List Char → Option Nat) : Piece → List Token → Prop
  | .code text, toks => lex text = some toks
  | .literal q value, toks =>
    ∃ source, toks = [.literal q source] ∧ decode names source = some (value.map Char.toNat)

/-- The piece may stand in a template. -/
def WellFormed : Piece → Prop
  | .code text => (lex text).isSome = true ∧ '\r' ∉ text ∧ Char.ofNat 0 ∉ text
  | .literal q _ => isQuote q.mark = true

instance WellFormed.decidable : (p : Piece) → Decidable p.WellFormed
  | .code _ => inferInstanceAs (Decidable (_ ∧ _))
  | .literal _ _ => inferInstanceAs (Decidable (_ = _))

/-- The value fits. -/
def Fits : Piece → Prop
  | .code _ => True
  | .literal q value => Literals.Fits q value

/-- The tokens of a piece whose value fits. -/
def tokens : Piece → List Token
  | .code text => (lex text).getD []
  | .literal q value => [.literal q value]

/-- The literal of a piece is among some tokens as it is, and has no escape sequence. -/
def Kept (toks : List Token) : Piece → Prop
  | .code _ => True
  | .literal q value => .literal q value ∈ toks ∧ unescaped value = true

end Piece

/-- The text of a template. -/
def render (pieces : List Piece) : List Char := pieces.flatMap Piece.text

/-- Each literal has something after it that is no quote; some more text follows the pieces. -/
def Separated (more : List Char) : List Piece → Prop
  | [] => True
  | .code _ :: rest => Separated more rest
  | .literal _ _ :: rest =>
    (render rest ++ more).head?.any (fun c => !isQuote c) = true ∧ Separated more rest

/-- The program text is read as the pieces are meant. -/
def ReadAs (names : List Char → Option Nat) (pieces : List Piece) (text : List Char) : Prop :=
  ∃ parts, readText text = some parts.flatten ∧ List.Forall₂ (Piece.Means names) pieces parts

section Pieces

variable {names : List Char → Option Nat} {pieces first second : List Piece} {p : Piece}
  {toks : List Token} {parts : List (List Token)}

/-- The text of some pieces and some more. -/
theorem render_append : render (first ++ second) = render first ++ render second :=
  List.flatMap_append

/-- Some pieces and some more. -/
theorem separated_append {more : List Char} : Separated more (first ++ second) ↔
    Separated (render second ++ more) first ∧ Separated more second := by
  induction first with
  | nil => exact (iff_of_eq (true_and _)).symm
  | cons p rest ih =>
    cases p with
    | code text => exact ih
    | literal q value =>
      show (render (rest ++ second) ++ more).head?.any _ = true ∧ Separated more (rest ++ second) ↔
        ((render rest ++ (render second ++ more)).head?.any _ = true ∧ Separated _ rest) ∧ _
      rw [render_append, List.append_assoc, ih, and_assoc]

/-- A meant piece is at least as long as its text, and as long only as it is. -/
theorem Piece.Means.length (means : p.Means names toks) :
    p.text.length ≤ (spell toks).length ∧
      (p.text.length = (spell toks).length → spell toks = p.text ∧ p.Kept toks) := by
  cases p with
  | code text =>
    have same : spell toks = text := spell_lex means
    rw [same]
    exact ⟨Nat.le_refl _, fun _ => ⟨rfl, trivial⟩⟩
  | literal q value =>
    obtain ⟨source, only, decoded⟩ := means
    obtain ⟨shorter, exactly⟩ := decode_spec decoded
    have spelled : spell toks = q.text ++ source ++ q.text := by
      rw [only]
      exact List.append_nil _
    rw [spelled, Piece.text]
    simp only [List.length_append]
    refine ⟨by omega, fun equal => ?_⟩
    obtain ⟨plain, same⟩ := exactly (by omega)
    rw [same]
    refine ⟨rfl, ?_, plain⟩
    rw [only]
    exact List.mem_singleton_self _

/-- Pieces are at most as long as what they mean, and if they are as long they are written out as
they mean. -/
theorem render_length (means : List.Forall₂ (Piece.Means names) pieces parts) :
    (render pieces).length ≤ (spell parts.flatten).length ∧
      ((render pieces).length = (spell parts.flatten).length →
        spell parts.flatten = render pieces ∧ ∀ p ∈ pieces, p.Kept parts.flatten) := by
  induction means with
  | nil => exact ⟨Nat.le_refl _, fun _ => ⟨rfl, fun p member => nomatch member⟩⟩
  | cons own others ih =>
    rename_i p toks pieces parts
    obtain ⟨longer, exactly⟩ := own.length
    obtain ⟨rest, equal⟩ := ih
    show (p.text ++ render pieces).length ≤ (spell (toks ++ parts.flatten)).length ∧
      ((p.text ++ render pieces).length = (spell (toks ++ parts.flatten)).length →
        spell (toks ++ parts.flatten) = p.text ++ render pieces ∧ _)
    rw [spell_append, List.length_append, List.length_append]
    refine ⟨by omega, fun same => ?_⟩
    obtain ⟨here, kept⟩ := exactly (by omega)
    obtain ⟨there, all⟩ := equal (by omega)
    refine ⟨by rw [here, there], fun piece member => ?_⟩
    rw [List.flatten_cons]
    cases List.mem_cons.mp member with
    | inl same =>
      rw [same]
      cases p with
      | code text => trivial
      | literal q value => exact ⟨List.mem_append_left _ kept.1, kept.2⟩
    | inr later =>
      have held := all piece later
      cases piece with
      | code text => trivial
      | literal q value => exact ⟨List.mem_append_right _ held.1, held.2⟩

/-- The tokens of pieces whose values fit. -/
theorem lex_render (wellFormed : ∀ p ∈ pieces, p.WellFormed) (separated : Separated [] pieces)
    (fits : ∀ p ∈ pieces, p.Fits) :
    lex (render pieces) = some (pieces.flatMap Piece.tokens) := by
  rw [lex_eq_some]
  induction pieces with
  | nil => rfl
  | cons p rest ih =>
    have formed := wellFormed p List.mem_cons_self
    have own := fits p List.mem_cons_self
    have others (apart : Separated [] rest) :=
      ih (fun p member => wellFormed p (List.mem_cons_of_mem _ member)) apart
        fun p member => fits p (List.mem_cons_of_mem _ member)
    cases p with
    | code text =>
      obtain ⟨toks, read⟩ := Option.isSome_iff_exists.mp formed.1
      show run .code (text ++ render rest) = _
      rw [run_after read, others separated, List.flatMap_cons, Piece.tokens, read]
      rfl
    | literal q value =>
      obtain ⟨next, apart⟩ := separated
      rw [List.append_nil] at next
      show run .code (q.text ++ value ++ q.text ++ render rest) = _
      have done := others apart
      cases text : render rest with
      | nil =>
        rw [text] at next
        contradiction
      | cons c more =>
        rw [text] at next done
        have other : isQuote c = false := by simpa using next
        rw [run_literal formed own other, done]
        rfl

/-- The pieces are read as they are meant exactly when the values fit. -/
theorem readAs_iff (wellFormed : ∀ p ∈ pieces, p.WellFormed) (separated : Separated [] pieces) :
    ReadAs names pieces (render pieces) ↔ ∀ p ∈ pieces, p.Fits := by
  have within {p : Piece} (member : p ∈ pieces) {c : Char} (inside : c ∈ p.text) :
      c ∈ render pieces := List.mem_flatMap.mpr ⟨p, member, inside⟩
  constructor
  · rintro ⟨parts, read, means⟩
    obtain ⟨nulls, read⟩ := readText_eq_some.mp read
    have spelled := spell_lex read
    obtain ⟨longer, exactly⟩ := render_length means
    have shorter := @lineEnds_length false (render pieces)
    rw [← spelled] at shorter
    obtain ⟨same, kept⟩ := exactly (Nat.le_antisymm longer shorter)
    have returns : '\r' ∉ render pieces := by
      rw [← same, spelled]
      exact lineEnds_returns
    intro p member
    cases p with
    | code text => trivial
    | literal q value =>
      obtain ⟨token, plain⟩ := kept _ member
      obtain ⟨enclosed, lines⟩ := lex_sound read token (plain_of_unescaped plain)
      have inside {c : Char} (there : c ∈ value) : c ∈ render pieces :=
        within member (List.mem_append_left _ (List.mem_append_right _ there))
      exact ⟨plain, enclosed, lines, fun there => returns (inside there),
        fun there => nulls (inside there)⟩
  · intro fits
    have clean {c : Char} (bad : ∀ q : Quote, isQuote q.mark = true → c ≠ q.mark)
        (code : ∀ text, .code text ∈ pieces → c ∉ text)
        (values : ∀ q value, .literal q value ∈ pieces → c ∉ value) : c ∉ render pieces := by
      intro there
      obtain ⟨p, member, inside⟩ := List.mem_flatMap.mp there
      cases p with
      | code text => exact code text member inside
      | literal q value =>
        have marks : c ∉ q.text := fun mark =>
          bad q (wellFormed _ member) (List.eq_of_mem_replicate mark)
        cases List.mem_append.mp inside with
        | inl before =>
          cases List.mem_append.mp before with
          | inl mark => exact marks mark
          | inr there => exact values q value member there
        | inr mark => exact marks mark
    have notQuote {c : Char} (other : isQuote c = false) (q : Quote)
        (quote : isQuote q.mark = true) : c ≠ q.mark := fun same => by
      rw [same, quote] at other
      contradiction
    have returns : '\r' ∉ render pieces :=
      clean (notQuote (by decide)) (fun text member => (wellFormed _ member).2.1)
        fun q value member => (fits _ member).returns
    have nulls : Char.ofNat 0 ∉ render pieces :=
      clean (notQuote (by decide)) (fun text member => (wellFormed _ member).2.2)
        fun q value member => (fits _ member).nulls
    refine ⟨pieces.map Piece.tokens, ?_, ?_⟩
    · rw [readText_eq_some, lineEnds_eq returns, lex_render wellFormed separated fits]
      exact ⟨nulls, rfl⟩
    · rw [List.forall₂_map_right_iff, List.forall₂_same]
      intro p member
      cases p with
      | code text =>
        obtain ⟨toks, read⟩ := Option.isSome_iff_exists.mp (wellFormed _ member).1
        show lex text = some ((lex text).getD [])
        rw [read]
        rfl
      | literal q value => exact ⟨value, rfl, decode_of_unescaped (fits _ member).plain⟩

end Pieces

end Copr.Literals
