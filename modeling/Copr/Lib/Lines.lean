import Mathlib.Data.List.Basic

/-!
# Lists of lines in a text

A file that holds one entry in each line is printed line by line and read with `splitlines`. Both
are here over characters, with the text in the pieces in which `print` hands it over: an entry,
then the end of its line. A file that has so far received some of the pieces holds the first
entries.
-/

namespace Copr.Lines

/-- A text, or a line of it. -/
abbrev Line := List Char

/-- The line boundaries of `str.splitlines`. -/
def isBreak (c : Char) : Bool :=
  (10 ≤ c.toNat && c.toNat ≤ 13) || (28 ≤ c.toNat && c.toNat ≤ 30) || c.toNat = 133 ||
    c.toNat = 8232 || c.toNat = 8233

/-- `text.splitlines()`. -/
def splitLines : List Char → List Line
  | [] => []
  | '\r' :: '\n' :: text => [] :: splitLines text
  | c :: text =>
    if isBreak c then [] :: splitLines text
    else match splitLines text with
      | [] => [[c]]
      | line :: lines => (c :: line) :: lines

/-- What `print` hands over for each of the lines. -/
def pieces (lines : List Line) : List Line := lines.flatMap fun line => [line, ['\n']]

/-- The text of lines that are printed one after another. -/
def printLines (lines : List Line) : List Char := (pieces lines).flatten

/-- A line without a line boundary. -/
def Unbroken (line : Line) : Prop := ∀ c ∈ line, isBreak c = false

instance (line : Line) : Decidable (Unbroken line) :=
  List.decidableBAll (isBreak · = false) line

variable {line : Line} {lines written rest : List Line}

/-- Lines are printed one after another. -/
theorem printLines_append (first second : List Line) :
    printLines (first ++ second) = printLines first ++ printLines second := by
  simp [printLines, pieces]

/-- The pieces of lines that follow each other. -/
theorem pieces_append (first second : List Line) :
    pieces (first ++ second) = pieces first ++ pieces second := by
  simp [pieces]

/-- The first line is read up to the end of it. -/
theorem splitLines_line (unbroken : Unbroken line) (text : List Char) :
    splitLines (line ++ '\n' :: text) = line :: splitLines text := by
  induction line with
  | nil => simp [splitLines, isBreak]
  | cons c line ih =>
    have plain : isBreak c = false := unbroken c List.mem_cons_self
    have other : c ≠ '\r' := by
      rintro rfl
      simp [isBreak] at plain
    have rest := ih fun d member => unbroken d (List.mem_cons_of_mem c member)
    rw [List.cons_append, splitLines, if_neg (by simp [plain]), rest]
    intro tail same
    exact absurd same other

/-- A last line needs no end. -/
theorem splitLines_last (unbroken : Unbroken line) (filled : line ≠ []) :
    splitLines line = [line] := by
  induction line with
  | nil => contradiction
  | cons c line ih =>
    have plain : isBreak c = false := unbroken c List.mem_cons_self
    have other : c ≠ '\r' := by
      rintro rfl
      simp [isBreak] at plain
    have unfolded : splitLines (c :: line) = match splitLines line with
        | [] => [[c]]
        | line :: lines => (c :: line) :: lines := by
      rw [splitLines, if_neg (by simp [plain])]
      intro tail same
      exact absurd same other
    cases line with
    | nil => rw [unfolded, splitLines]
    | cons d line =>
      rw [unfolded, ih (fun e member => unbroken e (List.mem_cons_of_mem c member)) (by simp)]

/-- Printed lines are read back, before whatever follows. -/
theorem splitLines_printLines_append (unbroken : ∀ line ∈ lines, Unbroken line)
    (text : List Char) : splitLines (printLines lines ++ text) = lines ++ splitLines text := by
  induction lines with
  | nil => rfl
  | cons line lines ih =>
    have shape : printLines (line :: lines) ++ text =
        line ++ '\n' :: (printLines lines ++ text) := by
      simp [printLines, pieces]
    rw [shape, splitLines_line (unbroken line List.mem_cons_self),
      ih fun other member => unbroken other (List.mem_cons_of_mem line member), List.cons_append]

/-- Printed lines are read back. -/
theorem splitLines_printLines (unbroken : ∀ line ∈ lines, Unbroken line) :
    splitLines (printLines lines) = lines := by
  simpa [splitLines] using splitLines_printLines_append unbroken []

/-- The first pieces of printed lines: some whole lines, then perhaps an entry without its end. -/
theorem prefix_of_pieces (split : written ++ rest = pieces lines) :
    (∃ first, first <+: lines ∧ written = pieces first) ∨
      ∃ first line, first ++ [line] <+: lines ∧ written = pieces first ++ [line] := by
  induction lines generalizing written with
  | nil =>
    have none : written = [] := (List.append_eq_nil_iff.mp (split.trans rfl)).1
    exact Or.inl ⟨[], List.nil_prefix, none⟩
  | cons entry lines ih =>
    have unfolded : pieces (entry :: lines) = entry :: ['\n'] :: pieces lines := rfl
    rw [unfolded] at split
    rcases written with _ | ⟨first, _ | ⟨second, written⟩⟩
    · exact Or.inl ⟨[], List.nil_prefix, rfl⟩
    · obtain ⟨rfl, -⟩ := List.cons.inj split
      exact Or.inr ⟨[], first, by simp, rfl⟩
    · simp only [List.cons_append, List.cons.injEq] at split
      obtain ⟨rfl, rfl, split⟩ := split
      rcases ih split with ⟨whole, before, rfl⟩ | ⟨whole, line, before, rfl⟩
      · exact Or.inl ⟨first :: whole, List.cons_prefix_cons.mpr ⟨rfl, before⟩, rfl⟩
      · refine Or.inr ⟨first :: whole, line, ?_, rfl⟩
        exact List.cons_prefix_cons.mpr ⟨rfl, before⟩

/-- Whatever part of the pieces of a list has been written, the file holds the first entries. -/
theorem splitLines_written (unbroken : ∀ line ∈ lines, Unbroken line)
    (split : written ++ rest = pieces lines) : splitLines written.flatten <+: lines := by
  rcases prefix_of_pieces split with ⟨first, before, rfl⟩ | ⟨first, line, before, rfl⟩
  · have known : ∀ line ∈ first, Unbroken line := fun line member =>
      unbroken line (before.subset member)
    have read : splitLines (pieces first).flatten = first := splitLines_printLines known
    rw [read]
    exact before
  · have known : ∀ line ∈ first, Unbroken line := fun line member =>
      unbroken line (before.subset (List.mem_append_left _ member))
    have read : splitLines (pieces first ++ [line]).flatten = first ++ splitLines line := by
      rw [List.flatten_append, List.flatten_singleton]
      exact splitLines_printLines_append known line
    rw [read]
    by_cases blank : line = []
    · subst blank
      rw [splitLines, List.append_nil]
      exact (List.prefix_append first [[]]).trans before
    · rw [splitLines_last (unbroken line (before.subset (by simp))) blank]
      exact before

end Copr.Lines
