import Mathlib.Data.List.Basic
import Mathlib.Data.List.Chain
import Mathlib.Tactic.Common

/-!
# String literals in a program text

How Python finds the string literals of a text and what they stand for. The rest of the text is
read character by character. A text that was put together from pieces, some of which are meant as
the values of literals, is read as it was meant exactly when each such value fits between its
quotes: it does not end the literal early and has no escape sequence.
-/

namespace Copr.Literals

/-! ## Finding the literals -/

/-- The quotes around a literal. -/
structure Quote where
  /-- The quote character. -/
  mark : Char
  /-- There are three of them on each side, and the literal may have several lines. -/
  long : Bool
  deriving DecidableEq, Repr

/-- How many quote characters are on each side. -/
def Quote.size (q : Quote) : Nat := if q.long then 3 else 1

/-- The quote characters on one side. -/
def Quote.text (q : Quote) : List Char := List.replicate q.size q.mark

/-- A part of a program text. -/
inductive Token
  /-- A character outside of literals. -/
  | char (c : Char)
  /-- A literal with what stands between its quotes. -/
  | literal (q : Quote) (source : List Char)
  deriving DecidableEq, Repr

/-- The text of a token. -/
def Token.text : Token → List Char
  | .char c => [c]
  | .literal q source => q.text ++ source ++ q.text

/-- The text of some tokens. -/
def spell (toks : List Token) : List Char := toks.flatMap Token.text

/-- Where the reader is. -/
inductive Mode
  /-- Outside of literals and comments. -/
  | code
  /-- In a comment. -/
  | comment
  /-- After one or two quote characters, which may be the beginning of three. -/
  | opening (mark : Char) (two : Bool)
  /-- In a literal, with what was read of it in reverse, and how many quote characters follow. -/
  | inside (q : Quote) (read : List Char) (marks : Nat)
  /-- In a literal after a backslash, which is the last character that was read. -/
  | escaped (q : Quote) (read : List Char)
  deriving DecidableEq, Repr

/-- What was read and is in no token yet. -/
def Mode.pending : Mode → List Char
  | .code => []
  | .comment => []
  | .opening mark two => List.replicate (if two then 2 else 1) mark
  | .inside q read marks => q.text ++ read.reverse ++ List.replicate marks q.mark
  | .escaped q read => q.text ++ read.reverse

/-- The quote character of short literals. -/
def apostrophe : Char := Char.ofNat 39

/-- The other quote character. -/
def doubleQuote : Char := Char.ofNat 34

/-- The character begins a literal. -/
def isQuote (c : Char) : Bool := decide (c = apostrophe ∨ c = doubleQuote)

/-- The next character outside of literals. -/
def stepCode (c : Char) : Mode × List Token :=
  if isQuote c then (.opening c false, [])
  else (if c = '#' then .comment else .code, [.char c])

/-- The next character of a literal. -/
def stepInside (q : Quote) (read : List Char) (marks : Nat) (c : Char) :
    Option (Mode × List Token) :=
  let all := List.replicate marks q.mark ++ read
  if c = '\\' then some (.escaped q ('\\' :: all), [])
  else if c = q.mark then
    if marks + 1 = q.size then some (.code, [.literal q read.reverse])
    else some (.inside q read (marks + 1), [])
  else if c = '\n' ∧ q.long = false then none
  else some (.inside q (c :: all) 0, [])

/-- The next character; `none` when the text is no program. -/
def step : Mode → Char → Option (Mode × List Token)
  | .code, c => some (stepCode c)
  | .comment, c => some (if c = '\n' then .code else .comment, [.char c])
  | .opening mark false, c =>
    if c = mark then some (.opening mark true, []) else stepInside ⟨mark, false⟩ [] 0 c
  | .opening mark true, c =>
    if c = mark then some (.inside ⟨mark, true⟩ [] 0, [])
    else some ((stepCode c).1, .literal ⟨mark, false⟩ [] :: (stepCode c).2)
  | .inside q read marks, c => stepInside q read marks c
  | .escaped q read, c => some (.inside q (c :: read) 0, [])

/-- Some characters one after another. -/
def run : Mode → List Char → Option (Mode × List Token)
  | m, [] => some (m, [])
  | m, c :: rest =>
    (step m c).bind fun next => (run next.1 rest).map fun last => (last.1, next.2 ++ last.2)

/-- The tokens of a text that ends outside of literals and comments. -/
def lex (text : List Char) : Option (List Token) :=
  (run .code text).bind fun last => if last.1 = .code then some last.2 else none

section Reading

variable {m m' : Mode} {c : Char} {text more : List Char} {toks : List Token}

/-- The text of some tokens and some more. -/
theorem spell_append (first second : List Token) :
    spell (first ++ second) = spell first ++ spell second :=
  List.flatMap_append

/-- A character goes into a token or is pending. -/
theorem spell_step (stepped : step m c = some (m', toks)) :
    spell toks ++ m'.pending = m.pending ++ [c] := by
  have code : spell (stepCode c).2 ++ (stepCode c).1.pending = [c] := by
    unfold stepCode
    split
    · rfl
    · split <;> rfl
  have inside : ∀ {q read marks}, stepInside q read marks c = some (m', toks) →
      spell toks ++ m'.pending =
        q.text ++ read.reverse ++ List.replicate marks q.mark ++ [c] := by
    intro q read marks stepped
    simp only [stepInside] at stepped
    split at stepped
    · rename_i same
      cases stepped
      simp [spell, Mode.pending, same]
    · split at stepped
      · rename_i same
        split at stepped
        · rename_i full
          cases stepped
          simp only [spell, Mode.pending, Token.text, List.flatMap_cons, List.flatMap_nil,
            List.append_nil, List.append_assoc]
          rw [same, ← List.replicate_succ', full]
          rfl
        · cases stepped
          simp only [spell, Mode.pending, List.flatMap_nil, List.nil_append, List.append_assoc]
          rw [same, ← List.replicate_succ']
      · split at stepped
        · contradiction
        · cases stepped
          simp [spell, Mode.pending]
  cases m with
  | code =>
    have same : stepCode c = (m', toks) := Option.some.inj stepped
    rw [same] at code
    exact code
  | comment =>
    cases stepped
    split <;> rfl
  | opening mark two =>
    cases two with
    | false =>
      simp only [step] at stepped
      split at stepped
      · rename_i same
        cases stepped
        rw [same]
        rfl
      · exact inside stepped
    | true =>
      simp only [step] at stepped
      split at stepped
      · rename_i same
        cases stepped
        rw [same]
        rfl
      · cases stepped
        show [mark, mark] ++ spell (stepCode c).2 ++ (stepCode c).1.pending = [mark, mark] ++ [c]
        rw [List.append_assoc, code]
  | inside q read marks => exact inside stepped
  | escaped q read =>
    cases stepped
    simp [spell, Mode.pending]

/-- Nothing of the text is lost. -/
theorem spell_run (done : run m text = some (m', toks)) :
    spell toks ++ m'.pending = m.pending ++ text := by
  induction text generalizing m toks with
  | nil =>
    cases done
    rw [List.append_nil]
    rfl
  | cons c rest ih =>
    obtain ⟨next, stepped, ended⟩ := Option.bind_eq_some_iff.mp done
    obtain ⟨last, ran, same⟩ := Option.map_eq_some_iff.mp ended
    cases same
    have whole := ih ran
    have first := @spell_step m next.1 c next.2 stepped
    rw [spell_append, List.append_assoc, whole, ← List.append_assoc, first, List.append_assoc]
    rfl

/-- A text in two parts is read part by part, the second from where the first one ended. -/
theorem run_append : run m (text ++ more) = (run m text).bind fun first =>
    (run first.1 more).map fun last => (last.1, first.2 ++ last.2) := by
  induction text generalizing m with
  | nil =>
    simp only [List.nil_append, run, Option.bind_some]
    cases run m more <;> rfl
  | cons c rest ih =>
    simp only [List.cons_append, run, ih]
    cases step m c with
    | none => rfl
    | some next =>
      simp only [Option.bind_some]
      cases run next.1 rest with
      | none => rfl
      | some last =>
        simp only [Option.bind_some, Option.map_some]
        cases run last.1 more with
        | none => rfl
        | some final => simp [List.append_assoc]

/-- What it means that a text has some tokens. -/
theorem lex_eq_some : lex text = some toks ↔ run .code text = some (.code, toks) := by
  unfold lex
  cases run .code text with
  | none => simp
  | some last =>
    obtain ⟨mode, own⟩ := last
    by_cases code : mode = .code
    · simp [code]
    · simp [code]

/-- The text of the tokens is the text. -/
theorem spell_lex (read : lex text = some toks) : spell toks = text := by
  have whole := spell_run (lex_eq_some.mp read)
  simpa [Mode.pending] using whole

/-- Text after a text that was read completely. -/
theorem run_after (read : lex text = some toks) : run .code (text ++ more) =
    (run .code more).map fun last => (last.1, toks ++ last.2) := by
  rw [run_append, lex_eq_some.mp read]
  rfl

end Reading

/-! ## What a literal stands for -/

/-- The value of a hexadecimal digit. -/
def hexDigit (c : Char) : Option Nat :=
  if '0' ≤ c ∧ c ≤ '9' then some (c.toNat - 48)
  else if 'a' ≤ c ∧ c ≤ 'f' then some (c.toNat - 87)
  else if 'A' ≤ c ∧ c ≤ 'F' then some (c.toNat - 55)
  else none

/-- A number of so many hexadecimal digits, and what follows it. -/
def hexNumber : Nat → Nat → List Char → Option (Nat × List Char)
  | 0, value, rest => some (value, rest)
  | _ + 1, _, [] => none
  | n + 1, value, c :: rest =>
    (hexDigit c).bind fun digit => hexNumber n (16 * value + digit) rest

/-- The value of an octal digit. -/
def octDigit (c : Char) : Option Nat :=
  if '0' ≤ c ∧ c ≤ '7' then some (c.toNat - 48) else none

/-- A number of at most so many octal digits, and what follows it. -/
def octNumber : Nat → Nat → List Char → Nat × List Char
  | 0, value, rest => (value, rest)
  | _ + 1, value, [] => (value, [])
  | n + 1, value, c :: rest =>
    match octDigit c with
    | some digit => octNumber n (8 * value + digit) rest
    | none => (value, c :: rest)

/-- The brace after the name of a character. -/
def closing : Char := Char.ofNat 125

/-- The name of a character in braces, and what follows it. -/
def bracedName : List Char → Option (List Char × List Char)
  | c :: rest =>
    if c = Char.ofNat 123 ∧ closing ∈ rest then
      some (rest.takeWhile (· ≠ closing), (rest.dropWhile (· ≠ closing)).drop 1)
    else none
  | [] => none

/-- The characters that stand for another one, or for none, after a backslash: a line end, the
backslash, the quotes, and `a`, `b`, `f`, `n`, `r`, `t` and `v`. -/
def simpleEscapes : List (Nat × List Nat) :=
  [(10, []), (92, [92]), (39, [39]), (34, [34]), (97, [7]), (98, [8]), (102, [12]), (110, [10]),
    (114, [13]), (116, [9]), (118, [11])]

/-- What a backslash with one more character stands for. -/
def simpleEscape (c : Char) : Option (List Nat) := simpleEscapes.lookup c.toNat

/-- The digits of an escape sequence with a fixed number of them. -/
def hexDigits (c : Char) : Option Nat :=
  if c = 'x' then some 2 else if c = 'u' then some 4 else if c = 'U' then some 8 else none

/-- The character makes an escape sequence of a backslash before it. -/
def special (c : Char) : Bool :=
  (simpleEscape c).isSome || (hexDigits c).isSome || (octDigit c).isSome || decide (c = 'N')

/-- What a backslash with the characters after it stands for, as code points, and what follows;
`none` for a malformed sequence. The names of characters are those of a Unicode database. -/
def escape (names : List Char → Option Nat) (c : Char) (rest : List Char) :
    Option (List Nat × List Char) :=
  match simpleEscape c, hexDigits c, octDigit c with
  | some value, _, _ => some (value, rest)
  | none, some digits, _ =>
    (hexNumber digits 0 rest).bind fun (value, rest) =>
      if value < 0x110000 then some ([value], rest) else none
  | none, none, some digit =>
    let (value, rest) := octNumber 2 digit rest
    some ([value], rest)
  | none, none, none =>
    if c = 'N' then
      (bracedName rest).bind fun (name, rest) => (names name).map fun value => ([value], rest)
    else some (['\\'.toNat, c.toNat], rest)

/-- The code points that the next so many characters of a literal stand for. -/
def decodeFrom (names : List Char → Option Nat) : Nat → List Char → Option (List Nat)
  | _, [] => some []
  | 0, _ :: _ => none
  | n + 1, c :: rest =>
    if c = '\\' then
      match rest with
      | [] => none
      | d :: rest =>
        (escape names d rest).bind fun (value, rest) => (decodeFrom names n rest).map (value ++ ·)
    else (decodeFrom names n rest).map (c.toNat :: ·)

/-- The code points that a literal stands for. -/
def decode (names : List Char → Option Nat) (source : List Char) : Option (List Nat) :=
  decodeFrom names source.length source

/-- There is no escape sequence, and no backslash at the end. -/
def unescaped : List Char → Bool
  | [] => true
  | c :: rest =>
    (decide (c ≠ '\\') || rest.head?.any fun d => !special d) && unescaped rest

section Escapes

variable {names : List Char → Option Nat} {c d : Char} {rest rest' source : List Char}
  {value : List Nat}

/-- Other characters have no influence. -/
theorem unescaped_cons (other : c ≠ '\\') : unescaped (c :: rest) = unescaped rest := by
  simp [unescaped, other]

/-- A backslash with the character after it. -/
theorem unescaped_backslash :
    unescaped ('\\' :: d :: rest) = (!special d && unescaped rest) := by
  by_cases another : d = '\\'
  · rw [another]
    rfl
  · rw [unescaped, unescaped_cons another]
    rfl

/-- The digits of a hexadecimal number. -/
theorem hexNumber_length {n start number : Nat}
    (read : hexNumber n start rest = some (number, rest')) : rest'.length + n = rest.length := by
  induction n generalizing start rest with
  | zero =>
    cases read
    rfl
  | succ n ih =>
    cases rest with
    | nil => contradiction
    | cons c rest =>
      obtain ⟨digit, -, more⟩ := Option.bind_eq_some_iff.mp read
      have shorter := ih more
      rw [List.length_cons]
      omega

/-- The digits of an octal number. -/
theorem octNumber_length {n start : Nat} : (octNumber n start rest).2.length ≤ rest.length := by
  induction n generalizing start rest with
  | zero => exact Nat.le_refl _
  | succ n ih =>
    cases rest with
    | nil => exact Nat.le_refl _
    | cons c rest =>
      simp only [octNumber]
      split
      · exact Nat.le_trans ih (Nat.le_succ _)
      · exact Nat.le_refl _

/-- What is behind a name in braces is shorter than the whole. -/
theorem bracedName_length {name : List Char} (read : bracedName rest = some (name, rest')) :
    rest'.length < rest.length := by
  cases rest with
  | nil => contradiction
  | cons c after =>
    obtain ⟨-, same⟩ := Option.ite_none_right_eq_some.mp read
    cases same
    have shorter : (after.dropWhile fun c => decide (c ≠ closing)).length ≤ after.length :=
      (List.dropWhile_sublist _).length_le
    rw [List.length_drop, List.length_cons]
    omega

/-- None of the simple escape sequences stands for more than one character. -/
theorem simpleEscape_length {value : List Nat} (simple : simpleEscape d = some value) :
    value.length ≤ 1 := by
  have all : ∀ entry ∈ simpleEscapes, entry.2.length ≤ 1 := by decide
  obtain ⟨before, after, listed, -⟩ := List.lookup_eq_some_iff.mp simple
  exact all (d.toNat, value) (listed ▸ List.mem_append_right _ List.mem_cons_self)

/-- An escape sequence is longer than what it stands for; any other backslash stands for itself. -/
theorem escape_spec (read : escape names d rest = some (value, rest')) :
    special d = true ∧ value.length + rest'.length ≤ rest.length + 1 ∨
      special d = false ∧ value = ['\\'.toNat, d.toNat] ∧ rest' = rest := by
  unfold escape at read
  split at read
  · rename_i simple
    cases read
    left
    have short := simpleEscape_length simple
    exact ⟨by simp [special, simple], by omega⟩
  · rename_i digits simple hex
    obtain ⟨⟨number, after⟩, numbered, same⟩ := Option.bind_eq_some_iff.mp read
    obtain ⟨-, same⟩ := Option.ite_none_right_eq_some.mp same
    cases same
    left
    have length := hexNumber_length numbered
    refine ⟨by simp [special, hex], ?_⟩
    rw [List.length_singleton]
    omega
  · rename_i digit simple hex oct
    cases read
    left
    have length := @octNumber_length rest 2 digit
    refine ⟨by simp [special, oct], ?_⟩
    rw [List.length_singleton]
    omega
  · rename_i simple hex oct
    split at read
    · rename_i named
      obtain ⟨⟨name, after⟩, braced, same⟩ := Option.bind_eq_some_iff.mp read
      obtain ⟨number, -, same⟩ := Option.map_eq_some_iff.mp same
      cases same
      left
      have length := bracedName_length braced
      refine ⟨by simp [special, named], ?_⟩
      rw [List.length_singleton]
      omega
    · rename_i other
      cases read
      right
      exact ⟨by simp [special, simple, hex, oct, other], rfl, rfl⟩

/-- A backslash that is no escape sequence stands for itself. -/
theorem escape_of_plain (plain : special d = false) :
    escape names d rest = some (['\\'.toNat, d.toNat], rest) := by
  simp only [special, Bool.or_eq_false_iff, Option.isSome_eq_false_iff, Option.isNone_iff_eq_none,
    decide_eq_false_iff_not] at plain
  obtain ⟨⟨⟨simple, hex⟩, oct⟩, other⟩ := plain
  simp only [escape, simple, hex, oct, if_neg other]

/-- A literal stands for no more characters than it has, and for as many only without escape
sequences. -/
theorem decodeFrom_spec {n : Nat} (read : decodeFrom names n source = some value) :
    value.length ≤ source.length ∧ (value.length = source.length →
      unescaped source = true ∧ value = source.map Char.toNat) := by
  induction n generalizing source value with
  | zero =>
    cases source with
    | nil =>
      cases read
      exact ⟨Nat.le_refl _, fun _ => ⟨rfl, rfl⟩⟩
    | cons c rest => contradiction
  | succ n ih =>
    cases source with
    | nil =>
      cases read
      exact ⟨Nat.le_refl _, fun _ => ⟨rfl, rfl⟩⟩
    | cons c rest =>
      simp only [decodeFrom] at read
      split at read
      · rename_i backslash
        cases rest with
        | nil => contradiction
        | cons d rest =>
          obtain ⟨⟨own, after⟩, escaped, more⟩ := Option.bind_eq_some_iff.mp read
          obtain ⟨others, decoded, same⟩ := Option.map_eq_some_iff.mp more
          cases same
          have decoded : decodeFrom names n after = some others := decoded
          obtain ⟨shorter, exactly⟩ := ih decoded
          show (own ++ others).length ≤ _ ∧ ((own ++ others).length = _ → _ ∧ own ++ others = _)
          rw [List.length_append, List.length_cons, List.length_cons]
          rcases escape_spec escaped with ⟨-, length⟩ | ⟨plain, two, all⟩
          · exact ⟨by omega, fun same => by omega⟩
          · rw [all] at shorter exactly
            rw [two, List.length_cons, List.length_singleton]
            refine ⟨by omega, fun same => ?_⟩
            obtain ⟨none, equal⟩ := exactly (by omega)
            rw [backslash, unescaped_backslash, plain, none, equal]
            exact ⟨rfl, rfl⟩
      · rename_i other
        obtain ⟨others, decoded, same⟩ := Option.map_eq_some_iff.mp read
        cases same
        obtain ⟨shorter, exactly⟩ := ih decoded
        simp only [List.length_cons]
        refine ⟨by omega, fun same => ?_⟩
        obtain ⟨plain, equal⟩ := exactly (by omega)
        rw [unescaped_cons other, plain, equal]
        exact ⟨rfl, rfl⟩

/-- Without escape sequences a literal stands for its characters. -/
theorem decodeFrom_of_unescaped {n : Nat} (plain : unescaped source = true)
    (enough : source.length ≤ n) : decodeFrom names n source = some (source.map Char.toNat) := by
  induction n generalizing source with
  | zero =>
    rw [List.length_eq_zero_iff.mp (Nat.le_zero.mp enough)]
    rfl
  | succ n ih =>
    cases source with
    | nil => rfl
    | cons c rest =>
      rw [List.length_cons] at enough
      simp only [decodeFrom]
      split
      · rename_i backslash
        rw [backslash] at plain
        cases rest with
        | nil => contradiction
        | cons d rest =>
          rw [unescaped_backslash, Bool.and_eq_true, Bool.not_eq_true'] at plain
          rw [List.length_cons] at enough
          dsimp only
          rw [escape_of_plain plain.1, Option.bind_some]
          dsimp only
          rw [ih plain.2 (by omega), backslash]
          rfl
      · rename_i other
        rw [unescaped_cons other] at plain
        rw [ih plain (by omega)]
        rfl

/-- What a literal without escape sequences stands for. -/
theorem decode_of_unescaped (plain : unescaped source = true) :
    decode names source = some (source.map Char.toNat) :=
  decodeFrom_of_unescaped plain (Nat.le_refl _)

/-- What holds of a literal that stands for some text. -/
theorem decode_spec {text : List Char} (read : decode names source = some (text.map Char.toNat)) :
    text.length ≤ source.length ∧
      (text.length = source.length → unescaped source = true ∧ text = source) := by
  obtain ⟨shorter, exactly⟩ := decodeFrom_spec read
  rw [List.length_map] at shorter exactly
  refine ⟨shorter, fun same => ?_⟩
  obtain ⟨plain, equal⟩ := exactly same
  have injective : Function.Injective Char.toNat := fun a b same => Char.toNat_inj.mp same
  exact ⟨plain, List.map_injective_iff.mpr injective equal⟩

end Escapes

/-! ## What fits between quotes -/

/-- How many quote characters are at the end of a text in a literal, when so many are before it;
`none` when the text ends the literal. -/
def marks (q : Quote) : Nat → List Char → Option Nat
  | n, [] => some n
  | n, c :: rest =>
    if c = q.mark then if n + 1 = q.size then none else marks q (n + 1) rest
    else marks q 0 rest

/-- No backslash is followed by a character with which it makes an escape sequence. -/
def Plain (source : List Char) : Prop :=
  source.IsChain fun c d => c = '\\' → special d = false

section Marks

variable {q : Quote} {n : Nat} {c : Char} {first second source : List Char}

/-- The quote characters at the end of one text after another. -/
theorem marks_append :
    marks q n (first ++ second) = (marks q n first).bind fun n => marks q n second := by
  induction first generalizing n with
  | nil => rfl
  | cons c rest ih =>
    simp only [List.cons_append, marks]
    split
    · split
      · rfl
      · exact ih
    · exact ih

/-- A character that is no quote ends the quotes that were seen. -/
theorem marks_other (read : marks q n first = some 0) (other : c ≠ q.mark) :
    marks q n (first ++ [c]) = some 0 := by
  rw [marks_append, read, Option.bind_some, marks, if_neg other]
  rfl

/-- Fewer quote characters than end the literal. -/
theorem marks_replicate {k : Nat} (few : k + n < q.size) :
    marks q k (List.replicate n q.mark) = some (k + n) := by
  induction n generalizing k with
  | zero => rfl
  | succ n ih =>
    have more : k + 1 ≠ q.size := by omega
    rw [List.replicate_succ, marks, if_pos rfl, if_neg more, ih (by omega)]
    congr 1
    omega

/-- Quote characters and any other character. -/
theorem marks_step (read : marks q 0 first = some 0) (few : n < q.size) (other : c ≠ q.mark) :
    marks q 0 (first ++ List.replicate n q.mark ++ [c]) = some 0 := by
  have trailing := marks_replicate (q := q) (k := 0) (n := n) (by omega)
  rw [List.append_assoc, marks_append, read, Option.bind_some, marks_append, trailing,
    Option.bind_some, marks, if_neg other]
  rfl

/-- A text without escape sequences. -/
theorem plain_of_unescaped (plain : unescaped source = true) : Plain source := by
  induction source with
  | nil => exact List.IsChain.nil
  | cons c rest ih =>
    rw [unescaped, Bool.and_eq_true, Bool.or_eq_true] at plain
    obtain ⟨first, others⟩ := plain
    cases rest with
    | nil => exact List.IsChain.singleton _
    | cons d rest =>
      refine List.isChain_cons_cons.mpr ⟨fun backslash => ?_, ih others⟩
      rcases first with other | next
      · exact absurd backslash (of_decide_eq_true other)
      · simpa using next

end Marks

/-! ## What the reader finds -/

/-- The text does not end a literal with the given quotes, unless an escape sequence misleads. -/
def Enclosed (q : Quote) (source : List Char) : Prop :=
  Plain source → marks q 0 source = some 0 ∧ (q.long = true ∨ '\n' ∉ source)

/-- What holds wherever the reader is. -/
def Mode.Sound : Mode → Prop
  | .code | .comment => True
  | .opening mark _ => isQuote mark = true
  | .inside q read n => isQuote q.mark = true ∧ n < q.size ∧ Enclosed q read.reverse
  | .escaped q read =>
    isQuote q.mark = true ∧ Enclosed q read.reverse ∧ ∃ all, read = '\\' :: all

/-- What holds of each token. -/
def Token.Sound : Token → Prop
  | .char _ => True
  | .literal q source => Enclosed q source

section Sound

variable {q : Quote} {m m' : Mode} {c : Char} {n : Nat} {text read : List Char}
  {toks : List Token}

/-- A quote makes an escape sequence. -/
theorem special_of_isQuote (quote : isQuote c = true) : special c = true := by
  rcases of_decide_eq_true quote with single | double
  · rw [single]
    rfl
  · rw [double]
    rfl

/-- A quote has at least one mark. -/
theorem Quote.size_pos (q : Quote) : 0 < q.size := by
  unfold Quote.size
  split <;> omega

/-- Nothing was read of the literal. -/
theorem enclosed_nil : Enclosed q [] := fun _ => ⟨rfl, Or.inr (List.not_mem_nil)⟩

/-- Quote characters that do not end the literal, and any other character. -/
theorem Enclosed.more (e : Enclosed q read.reverse) (few : n < q.size) (other : c ≠ q.mark)
    (line : q.long = true ∨ c ≠ '\n') (quote : isQuote q.mark = true) :
    Enclosed q (c :: (List.replicate n q.mark ++ read)).reverse := by
  intro plain
  have same : (c :: (List.replicate n q.mark ++ read)).reverse =
      read.reverse ++ List.replicate n q.mark ++ [c] := by simp
  rw [same] at plain ⊢
  have shorter : Plain read.reverse :=
    plain.left_of_append.left_of_append
  obtain ⟨read, lines⟩ := e shorter
  refine ⟨marks_step read few other, ?_⟩
  have mark : q.mark ≠ '\n' := fun newline => by
    rw [newline] at quote
    contradiction
  rcases line with long | line
  · exact Or.inl long
  · refine lines.imp_right fun absent member => ?_
    simp only [List.mem_append, List.mem_replicate, List.mem_singleton] at member
    rcases member with (member | ⟨-, newline⟩) | newline
    · exact absent member
    · exact mark newline.symm
    · exact line newline.symm

/-- A character of a literal. -/
theorem stepInside_sound (quote : isQuote q.mark = true) (few : n < q.size)
    (e : Enclosed q read.reverse) (stepped : stepInside q read n c = some (m', toks)) :
    m'.Sound ∧ ∀ tok ∈ toks, tok.Sound := by
  simp only [stepInside] at stepped
  have none : ∀ tok ∈ ([] : List Token), tok.Sound := fun tok member => nomatch member
  split at stepped
  · rename_i backslash
    cases stepped
    have other : '\\' ≠ q.mark := fun same => by
      rw [← same] at quote
      contradiction
    have line : '\\' ≠ '\n' := by decide
    exact ⟨⟨quote, e.more few other (Or.inr line) quote, _, rfl⟩, none⟩
  · split at stepped
    · split at stepped
      · cases stepped
        exact ⟨trivial, fun tok member => List.mem_singleton.mp member ▸ e⟩
      · rename_i more
        cases stepped
        exact ⟨⟨quote, by omega, e⟩, none⟩
    · rename_i other
      split at stepped
      · contradiction
      · rename_i line
        cases stepped
        have line : q.long = true ∨ c ≠ '\n' := by
          cases long : q.long with
          | true => exact Or.inl rfl
          | false => exact Or.inr fun newline => line ⟨newline, long⟩
        exact ⟨⟨quote, q.size_pos, e.more few other line quote⟩, none⟩

/-- A character outside of literals. -/
theorem stepCode_sound : (stepCode c).1.Sound ∧ ∀ tok ∈ (stepCode c).2, tok.Sound := by
  unfold stepCode
  split
  · rename_i quote
    exact ⟨quote, fun tok member => nomatch member⟩
  · have char : ∀ tok ∈ [Token.char c], tok.Sound :=
      fun tok member => List.mem_singleton.mp member ▸ trivial
    split
    · exact ⟨trivial, char⟩
    · exact ⟨trivial, char⟩

/-- Any one character keeps the reader sound and gives sound tokens. -/
theorem step_sound (sound : m.Sound) (stepped : step m c = some (m', toks)) :
    m'.Sound ∧ ∀ tok ∈ toks, tok.Sound := by
  have none : ∀ tok ∈ ([] : List Token), tok.Sound := fun tok member => nomatch member
  cases m with
  | code =>
    have same : stepCode c = (m', toks) := Option.some.inj stepped
    have sound := stepCode_sound (c := c)
    rwa [same] at sound
  | comment =>
    cases stepped
    refine ⟨?_, fun tok member => List.mem_singleton.mp member ▸ trivial⟩
    split <;> exact trivial
  | opening mark two =>
    cases two with
    | false =>
      simp only [step] at stepped
      split at stepped
      · cases stepped
        exact ⟨sound, none⟩
      · exact stepInside_sound (q := ⟨mark, false⟩) sound Nat.one_pos enclosed_nil stepped
    | true =>
      simp only [step] at stepped
      split at stepped
      · cases stepped
        exact ⟨⟨sound, Nat.succ_pos 2, enclosed_nil⟩, none⟩
      · cases stepped
        refine ⟨stepCode_sound.1, fun tok member => ?_⟩
        rcases List.mem_cons.mp member with empty | own
        · rw [empty]
          exact enclosed_nil
        · exact stepCode_sound.2 tok own
  | inside q read n =>
    obtain ⟨quote, few, e⟩ := sound
    exact stepInside_sound quote few e stepped
  | escaped q read =>
    obtain ⟨quote, e, all, backslash⟩ := sound
    cases stepped
    refine ⟨⟨quote, q.size_pos, fun plain => ?_⟩, none⟩
    rw [List.reverse_cons] at plain ⊢
    obtain ⟨own, lines⟩ := e plain.left_of_append
    have ordinary : special c = false := by
      rw [backslash, List.reverse_cons, List.append_assoc] at plain
      have last : Plain ['\\', c] := plain.right_of_append
      exact (List.isChain_cons_cons.mp last).1 rfl
    have other : c ≠ q.mark := fun same => by
      rw [same, special_of_isQuote quote] at ordinary
      contradiction
    have line : c ≠ '\n' := fun newline => by
      rw [newline] at ordinary
      contradiction
    refine ⟨marks_other own other, lines.imp_right fun absent member => ?_⟩
    rcases List.mem_append.mp member with member | member
    · exact absent member
    · exact line (List.mem_singleton.mp member).symm

/-- Reading a whole text gives sound tokens only. -/
theorem run_sound (sound : m.Sound) (done : run m text = some (m', toks)) :
    ∀ tok ∈ toks, tok.Sound := by
  induction text generalizing m toks with
  | nil =>
    cases done
    exact fun tok member => nomatch member
  | cons c rest ih =>
    obtain ⟨next, stepped, ended⟩ := Option.bind_eq_some_iff.mp done
    obtain ⟨last, ran, same⟩ := Option.map_eq_some_iff.mp ended
    cases same
    obtain ⟨there, own⟩ := @step_sound m next.1 c next.2 sound stepped
    intro tok member
    rcases List.mem_append.mp member with member | member
    · exact own tok member
    · exact ih there ran tok member

/-- No literal that the reader finds is ended by its own text. -/
theorem lex_sound (read : lex text = some toks) {source : List Char}
    (member : .literal q source ∈ toks) : Enclosed q source :=
  run_sound (m := .code) trivial (lex_eq_some.mp read) _ member

end Sound

end Copr.Literals
