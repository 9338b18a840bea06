import Mathlib.Data.List.Infix
import Mathlib.Data.String.Defs
import Copr.Lib.Text

/-!
# Glob patterns

Patterns whose star stands for any characters, matched against a whole text such as a path. A
dialect tells which other characters stand for any single character; the rest stand for themselves.
-/

namespace Copr

/-- A part of a pattern. -/
inductive GlobToken
  /-- Any characters. -/
  | star
  /-- One character of a kind. -/
  | one (accepts : Char → Bool)

namespace GlobToken

/-- The parts of a text that stands for itself. -/
def literal (text : List Char) : List GlobToken := text.map fun c => .one (· == c)

/-- A pattern matches a whole text. -/
def globMatches : List GlobToken → List Char → Bool
  | [], text => text.isEmpty
  | .one _ :: _, [] => false
  | .one accepts :: pattern, c :: text => accepts c && globMatches pattern text
  | .star :: pattern, text => text.tails.any fun after => globMatches pattern after

/-- The star takes any beginning of a text. -/
theorem matches_star {pattern : List GlobToken} {text : List Char} :
    globMatches (.star :: pattern) text = true ↔
      ∃ before after, text = before ++ after ∧ globMatches pattern after = true := by
  rw [globMatches, List.any_eq_true]
  constructor
  · intro ⟨after, tail, rest⟩
    have ⟨before, whole⟩ := (List.mem_tails _ _).mp tail
    exact ⟨before, after, whole.symm, rest⟩
  · intro ⟨before, after, whole, rest⟩
    exact ⟨after, (List.mem_tails _ _).mpr ⟨before, whole.symm⟩, rest⟩

/-- A pattern in two parts matches a text in two parts. -/
theorem matches_append {front back : List GlobToken} {text : List Char} :
    globMatches (front ++ back) text = true ↔
      ∃ before after, text = before ++ after ∧ globMatches front before = true ∧
        globMatches back after = true := by
  induction front generalizing text with
  | nil => simp [globMatches]
  | cons token front ih =>
    rw [List.cons_append]
    cases token with
    | star =>
      rw [matches_star]
      constructor
      · intro ⟨skipped, rest, whole, matched⟩
        have ⟨before, after, split, first, second⟩ := ih.mp matched
        refine ⟨skipped ++ before, after, by rw [whole, split, List.append_assoc], ?_, second⟩
        exact matches_star.mpr ⟨skipped, before, rfl, first⟩
      · intro ⟨before, after, whole, first, second⟩
        have ⟨skipped, rest, split, matched⟩ := matches_star.mp first
        refine ⟨skipped, rest ++ after, by rw [whole, split, List.append_assoc], ?_⟩
        exact ih.mpr ⟨rest, after, rfl, matched, second⟩
    | one accepts =>
      cases text with
      | nil =>
        constructor
        · intro matched
          contradiction
        · intro ⟨before, after, whole, first, _⟩
          have empty := (List.append_eq_nil_iff.mp whole.symm).1
          rw [empty] at first
          contradiction
      | cons c text =>
        rw [globMatches, Bool.and_eq_true, ih]
        constructor
        · intro ⟨accepted, before, after, whole, first, second⟩
          refine ⟨c :: before, after, by rw [whole, List.cons_append], ?_, second⟩
          rw [globMatches, accepted, first, Bool.and_self]
        · intro ⟨before, after, whole, first, second⟩
          cases before with
          | nil => contradiction
          | cons d before =>
            rw [List.cons_append, List.cons.injEq] at whole
            rw [globMatches, Bool.and_eq_true, ← whole.1] at first
            exact ⟨first.1, before, after, whole.2, first.2, second⟩

/-- A text that stands for itself matches itself only. -/
theorem matches_literal {part text : List Char} :
    globMatches (literal part) text = true ↔ text = part := by
  induction part generalizing text with
  | nil => simp [literal, globMatches]
  | cons c part ih =>
    cases text with
    | nil => simp [literal, globMatches]
    | cons d text =>
      show (d == c && globMatches (literal part) text) = true ↔ _
      rw [Bool.and_eq_true, beq_iff_eq, ih, List.cons.injEq]

/-- A star at the end takes everything. -/
theorem matches_star_end {text : List Char} : globMatches [.star] text = true :=
  matches_star.mpr ⟨text, [], (List.append_nil text).symm, rfl⟩

end GlobToken

open GlobToken

/-- How patterns are written. -/
structure GlobDialect where
  /-- The characters, besides the star, that stand for any single character. -/
  joker : Char → Bool
  /-- The separator of paths stands for itself. -/
  slash : joker '/' = false

namespace GlobDialect

/-- Stars and question marks. -/
def basic : GlobDialect where
  joker c := c == '?'
  slash := by decide

variable (dialect : GlobDialect)

/-- What a character of a pattern stands for. -/
def token (c : Char) : GlobToken :=
  if c = '*' then .star else if dialect.joker c then .one fun _ => true else .one (· == c)

/-- The parts of a written pattern. -/
def read (pattern : List Char) : List GlobToken := pattern.map dialect.token

/-- A text in which every character stands for itself. -/
def plain (text : List Char) : Bool := text.all fun c => c != '*' && !dialect.joker c

/-- A written pattern matches a text. -/
def fits (pattern : String) (text : List Char) : Bool :=
  globMatches (dialect.read pattern.toList) text

variable {dialect}

/-- A plain text is read as itself. -/
theorem read_plain {text : List Char} (plain : dialect.plain text = true) :
    dialect.read text = literal text := by
  apply List.map_congr_left
  intro c member
  have ordinary := List.all_eq_true.mp plain c member
  rw [Bool.and_eq_true, bne_iff_ne, Bool.not_eq_true'] at ordinary
  rw [token, if_neg ordinary.1, ordinary.2]
  rfl

/-- A plain pattern fits only its own text. -/
theorem fits_plain_iff {part : String} (plain : dialect.plain part.toList = true)
    {text : List Char} : dialect.fits part text = true ↔ text = part.toList := by
  rw [fits, read_plain plain, matches_literal]

/-- Every pattern fits its own text. -/
theorem fits_self (pattern : String) : dialect.fits pattern pattern.toList = true := by
  rw [fits]
  generalize pattern.toList = text
  induction text with
  | nil => rfl
  | cons c text ih =>
    show globMatches (dialect.token c :: dialect.read text) (c :: text) = true
    rw [token]
    split
    · exact matches_star.mpr ⟨[c], text, rfl, ih⟩
    · split
      · rw [globMatches, ih, Bool.and_self]
      · rw [globMatches, ih, beq_self_eq_true, Bool.and_self]

/-- A pattern between a star and a slash with another star fits the texts in which something that
it fits itself stands in front of a slash. -/
theorem fits_between_stars {text : List Char} {part : String} :
    dialect.fits ("*" ++ part ++ "/*") text = true ↔
      ∃ before inner after, text = before ++ (inner ++ '/' :: after) ∧
        dialect.fits part inner = true := by
  have star : dialect.token '*' = .star := by rw [token, if_pos rfl]
  have slash : dialect.token '/' = .one (· == '/') := by
    rw [token, if_neg (by decide), dialect.slash]
    rfl
  have whole : dialect.read ("*" ++ part ++ "/*").toList =
      .star :: (dialect.read part.toList ++ [.one (· == '/'), .star]) := by
    simp [read, star, slash]
  rw [fits, whole, matches_star]
  constructor
  · intro ⟨before, rest, split, matched⟩
    have ⟨inner, behind, parts, fits, last⟩ := matches_append.mp matched
    cases behind with
    | nil => contradiction
    | cons c after =>
      rw [globMatches, Bool.and_eq_true, beq_iff_eq] at last
      exact ⟨before, inner, after, by rw [split, parts, last.1], fits⟩
  · intro ⟨before, inner, after, split, fits⟩
    refine ⟨before, inner ++ '/' :: after, split, ?_⟩
    refine matches_append.mpr ⟨inner, '/' :: after, rfl, fits, ?_⟩
    rw [globMatches, matches_star_end, beq_self_eq_true, Bool.and_self]

end GlobDialect

/-! ## Paths -/

/-- The names of a path, joined by slashes. -/
def pathText : List String → List Char
  | [] => []
  | [name] => name.toList
  | name :: rest => name.toList ++ '/' :: pathText rest

/-- A path goes on behind its first directory. -/
theorem pathText_cons {name : String} {rest : List String} (below : rest ≠ []) :
    pathText (name :: rest) = name.toList ++ '/' :: pathText rest := by
  cases rest with
  | nil => contradiction
  | cons next others => rfl

/-- Every slash of a path stands between some of its directories and what is below them. -/
theorem pathText_at_slash {path : List String} (names : ∀ name ∈ path, '/' ∉ name.toList)
    {front after : List Char} (whole : pathText path = front ++ '/' :: after) :
    ∃ dirs rest, path = dirs ++ rest ∧ dirs ≠ [] ∧ rest ≠ [] ∧ pathText dirs = front := by
  induction path generalizing front with
  | nil => simp [pathText] at whole
  | cons name rest ih =>
    have own := names name List.mem_cons_self
    by_cases below : rest = []
    · have slash : '/' ∈ pathText (name :: rest) := by
        rw [whole]
        simp
      rw [below] at slash
      exact absurd slash own
    · rw [pathText_cons below] at whole
      by_cases inner : '/' ∈ front
      · have ⟨first, back, split, outside⟩ := List.eq_append_cons_of_mem inner
        rw [split, List.append_assoc, List.cons_append] at whole
        have ⟨same, later⟩ := Text.around_separator own outside whole
        have ⟨dirs, others, parts, inside, more, text⟩ :=
          ih (fun other member => names other (List.mem_cons_of_mem _ member)) later
        refine ⟨name :: dirs, others, by rw [parts, List.cons_append], List.cons_ne_nil _ _, more,
          ?_⟩
        rw [pathText_cons inside, text, split, same]
      · have ⟨same, _⟩ := Text.around_separator own inner whole
        exact ⟨[name], rest, rfl, List.cons_ne_nil _ _, below, same⟩

/-- Directories and what is below them are joined by a slash. -/
theorem pathText_append {dirs rest : List String} (inside : dirs ≠ []) (below : rest ≠ []) :
    pathText (dirs ++ rest) = pathText dirs ++ '/' :: pathText rest := by
  induction dirs with
  | nil => contradiction
  | cons name dirs ih =>
    by_cases last : dirs = []
    · rw [last]
      exact pathText_cons below
    · have more : dirs ++ rest ≠ [] := by simp [last]
      rw [List.cons_append, pathText_cons more, pathText_cons last, ih last, List.append_assoc,
        List.cons_append]

/-- A name without slashes at the end of a path is at the end of the last directory's name. -/
theorem suffix_pathText {part : List Char} (single : '/' ∉ part) {dirs : List String}
    (inside : dirs ≠ []) (ends : part <:+ pathText dirs) :
    part <:+ (dirs.getLast inside).toList := by
  induction dirs with
  | nil => contradiction
  | cons name dirs ih =>
    by_cases last : dirs = []
    · cases last
      exact ends
    · rw [List.getLast_cons last]
      rw [pathText_cons last] at ends
      apply ih last
      have tail : '/' :: pathText dirs <:+ name.toList ++ '/' :: pathText dirs :=
        List.suffix_append _ _
      cases List.suffix_or_suffix_of_suffix ends tail with
      | inl shorter =>
        cases List.suffix_cons_iff.mp shorter with
        | inl same => exact absurd (same ▸ List.mem_cons_self) single
        | inr within => exact within
      | inr longer => exact absurd (longer.subset List.mem_cons_self) single

/-- The path of directories ends with the name of the last one. -/
theorem suffix_pathText_concat (dirs : List String) {part : List Char} {dir : String}
    (ends : part <:+ dir.toList) : part <:+ pathText (dirs ++ [dir]) := by
  by_cases outer : dirs = []
  · rw [outer]
    exact ends
  · rw [pathText_append outer (List.cons_ne_nil _ _)]
    exact ends.trans ((List.suffix_cons _ _).trans (List.suffix_append _ _))

end Copr
