import Mathlib.Data.List.Infix
import Mathlib.Data.String.Defs

/-!
# Text in pieces

Prefixes, substrings and the pieces of a text between separators, with the character classes of
a Unicode database that agrees with ASCII where there is no choice.
-/

namespace Copr.Text

/-- `s in text`. -/
def contains (text s : String) : Bool := decide (s.toList <:+: text.toList)

/-- `text.startswith(s)`. -/
def startswith (text s : String) : Bool := s.toList.isPrefixOf text.toList

/-- `text.split(c)`. -/
def split (text : String) (c : Char) : List (List Char) := text.toList.splitOn c

/-- Replace what is found from left to right; some characters in front are skipped. -/
def replaceFrom (old new : List Char) : Nat → List Char → List Char
  | _, [] => []
  | 0, c :: rest =>
    if old.isPrefixOf (c :: rest) then new ++ replaceFrom old new (old.length - 1) rest
    else c :: replaceFrom old new 0 rest
  | skip + 1, _ :: rest => replaceFrom old new skip rest

/-- `text.replace(old, new)`, where `old` is not empty. -/
def replace (text old new : String) : String :=
  String.ofList (replaceFrom old.toList new.toList 0 text.toList)

/-- The character classes of `str.isalnum` and `str.isnumeric`. Beyond ASCII they depend on the
version of the Unicode database. -/
structure CharClasses where
  /-- Letters and digits. -/
  isalnum : Char → Bool
  /-- Digits and other numeric characters. -/
  isnumeric : Char → Bool
  /-- The letters and digits of ASCII. -/
  isalnum_ascii : ∀ c : Char, c.toNat < 128 → isalnum c = c.isAlphanum
  /-- The digits of ASCII. -/
  isnumeric_ascii : ∀ c : Char, c.toNat < 128 → isnumeric c = c.isDigit

/-- Nothing but ASCII. -/
def CharClasses.ascii : CharClasses where
  isalnum := Char.isAlphanum
  isnumeric := Char.isDigit
  isalnum_ascii _ _ := rfl
  isnumeric_ascii _ _ := rfl

namespace CharClasses

variable (chars : CharClasses)

/-- `piece.isalnum()`. -/
def alnum (piece : List Char) : Bool := !piece.isEmpty && piece.all chars.isalnum

/-- `piece.isnumeric()`. -/
def numeric (piece : List Char) : Bool := !piece.isEmpty && piece.all chars.isnumeric

/-- A character of ASCII that is no letter or digit is none in any database. -/
theorem isalnum_eq_false {c : Char} (ascii : c.toNat < 128) (other : c.isAlphanum = false) :
    chars.isalnum c = false := by
  rw [chars.isalnum_ascii c ascii, other]

/-- A piece of letters and digits has no other character of ASCII. -/
theorem not_mem_of_alnum {piece : List Char} {c : Char} (given : chars.alnum piece = true)
    (ascii : c.toNat < 128) (other : c.isAlphanum = false) : c ∉ piece := by
  intro member
  have letters : piece.all chars.isalnum = true := (Bool.and_eq_true _ _ ▸ given).2
  have letter := List.all_eq_true.mp letters c member
  rw [chars.isalnum_eq_false ascii other] at letter
  contradiction

end CharClasses

section Pieces

variable {α : Type*} [BEq α] [LawfulBEq α]

/-- Every element of a list is the separator or in a piece. -/
theorem mem_piece {x : α} (sep : α) {l : List α} (member : x ∈ l) :
    x = sep ∨ ∃ piece ∈ l.splitOn sep, x ∈ piece := by
  induction l with
  | nil => contradiction
  | cons y l ih =>
    rw [List.splitOn_cons_eq_if_modifyHead]
    by_cases same : y = sep
    · rw [if_pos (beq_iff_eq.mpr same)]
      rcases List.mem_cons.mp member with rfl | later
      · exact Or.inl same
      · have found := ih later
        exact found.imp_right fun ⟨piece, listed, inside⟩ =>
          ⟨piece, List.mem_cons_of_mem _ listed, inside⟩
    · rw [if_neg fun equal => same (beq_iff_eq.mp equal)]
      obtain ⟨piece, pieces, rest⟩ := List.exists_cons_of_ne_nil (List.splitOn_ne_nil sep l)
      rw [rest, List.modifyHead_cons]
      rw [rest] at ih
      rcases List.mem_cons.mp member with rfl | later
      · exact Or.inr ⟨_, List.mem_cons_self, List.mem_cons_self⟩
      · rcases ih later with equal | ⟨found, listed, inside⟩
        · exact Or.inl equal
        · right
          rcases List.mem_cons.mp listed with rfl | other
          · exact ⟨_, List.mem_cons_self, List.mem_cons_of_mem _ inside⟩
          · exact ⟨found, List.mem_cons_of_mem _ other, inside⟩

/-- No piece has the separator in it. -/
theorem not_mem_piece {sep : α} {l piece : List α} (listed : piece ∈ l.splitOn sep) :
    sep ∉ piece := by
  induction l generalizing piece with
  | nil =>
    obtain rfl := List.mem_singleton.mp listed
    exact List.not_mem_nil
  | cons y l ih =>
    rw [List.splitOn_cons_eq_if_modifyHead] at listed
    split at listed
    · rcases List.mem_cons.mp listed with rfl | later
      · exact List.not_mem_nil
      · exact ih later
    · rename_i other
      obtain ⟨first, pieces, rest⟩ := List.exists_cons_of_ne_nil (List.splitOn_ne_nil sep l)
      rw [rest, List.modifyHead_cons] at listed
      rw [rest] at ih
      rcases List.mem_cons.mp listed with rfl | later
      · rw [List.mem_cons, not_or]
        exact ⟨fun same => other (beq_iff_eq.mpr same.symm), ih List.mem_cons_self⟩
      · exact ih (List.mem_cons_of_mem _ later)

/-- The first piece is empty only when there is nothing or a separator in front. -/
theorem first_piece_empty {sep : α} {l : List α} {pieces : List (List α)}
    (split : l.splitOn sep = [] :: pieces) : l = [] ∨ l.head? = some sep := by
  cases l with
  | nil => exact .inl rfl
  | cons x l =>
    rw [List.splitOn_cons_eq_if_modifyHead] at split
    by_cases same : x = sep
    · exact .inr (congrArg some same)
    · rw [if_neg fun equal => same (beq_iff_eq.mp equal)] at split
      obtain ⟨first, rest, more⟩ := List.exists_cons_of_ne_nil (List.splitOn_ne_nil sep l)
      rw [more, List.modifyHead_cons] at split
      exact absurd (List.cons.inj split).1 (List.cons_ne_nil _ _)

omit [LawfulBEq α] in
/-- There is one piece more than separators. -/
theorem length_splitOn (sep : α) (l : List α) : (l.splitOn sep).length = l.count sep + 1 := by
  induction l with
  | nil => rfl
  | cons y l ih =>
    rw [List.splitOn_cons_eq_if_modifyHead, List.count_cons]
    split
    · rw [List.length_cons, ih]
    · rw [List.length_modifyHead, ih]

/-- Two parts without the separator are the two pieces. -/
theorem splitOn_two {l r : List α} {sep : α} (left : sep ∉ l) (right : sep ∉ r) :
    (l ++ sep :: r).splitOn sep = [l, r] := by
  rw [List.splitOn_append_cons_self_of_not_mem left, List.splitOn_eq_singleton right]

/-- There are two pieces where the separator stands once. -/
theorem splitOn_eq_two_iff {l a b : List α} {sep : α} :
    l.splitOn sep = [a, b] ↔ l = a ++ sep :: b ∧ sep ∉ a ∧ sep ∉ b := by
  constructor
  · intro split
    have joined : [sep].intercalate (l.splitOn sep) = l := List.intercalate_splitOn sep
    rw [split] at joined
    refine ⟨by rw [← joined]; simp [List.intercalate], ?_, ?_⟩
    · exact not_mem_piece (split ▸ List.mem_cons_self)
    · exact not_mem_piece (split ▸ List.mem_cons_of_mem a List.mem_cons_self)
  · rintro ⟨rfl, left, right⟩
    exact splitOn_two left right

end Pieces

/-- What stands before and after the first separator. -/
theorem around_separator {α : Type*} {l r l' r' : List α} {sep : α} (left : sep ∉ l)
    (right : sep ∉ l')
    (same : l ++ sep :: r = l' ++ sep :: r') : l = l' ∧ r = r' := by
  induction l generalizing l' with
  | nil =>
    cases l' with
    | nil => exact ⟨rfl, (List.cons.inj same).2⟩
    | cons a rest =>
      obtain ⟨rfl, -⟩ := List.cons.inj same
      exact absurd List.mem_cons_self right
  | cons a rest ih =>
    cases l' with
    | nil =>
      obtain ⟨rfl, -⟩ := List.cons.inj same
      exact absurd List.mem_cons_self left
    | cons b rest' =>
      rw [List.mem_cons, not_or] at left right
      obtain ⟨rfl, more⟩ := List.cons.inj same
      obtain ⟨rfl, after⟩ := ih left.2 right.2 more
      exact ⟨rfl, after⟩

/-- What stands before and behind the first separator, if there is one. -/
def cut {α : Type*} [BEq α] (sep : α) (l : List α) : Option (List α × List α) :=
  match l.dropWhile fun c => c != sep with
  | [] => none
  | _ :: rest => some (l.takeWhile fun c => c != sep, rest)

/-- A list is cut where the separator stands first. -/
theorem cut_append {α : Type*} [BEq α] [LawfulBEq α] {sep : α} {l r : List α} (left : sep ∉ l) :
    cut sep (l ++ sep :: r) = some (l, r) := by
  have other : ∀ c ∈ l, (c != sep) = true := by
    intro c member
    rw [bne_iff_ne]
    exact ne_of_mem_of_not_mem member left
  rw [cut, List.dropWhile_append_of_pos other, List.takeWhile_append_of_pos other]
  simp only [List.dropWhile_cons, List.takeWhile_cons, bne_self_eq_false, Bool.false_eq_true,
    if_false, List.append_nil]

/-- What a text starts with is in front of the rest. -/
theorem startswith_iff {text s : String} :
    startswith text s = true ↔ ∃ rest, text.toList = s.toList ++ rest := by
  rw [startswith, List.isPrefixOf_iff_prefix]
  constructor
  · rintro ⟨rest, same⟩
    exact ⟨rest, same.symm⟩
  · rintro ⟨rest, same⟩
    exact ⟨rest, same.symm⟩

/-- A substring has something before it and something after it. -/
theorem contains_iff {text s : String} :
    contains text s = true ↔ ∃ before after, text.toList = before ++ s.toList ++ after := by
  rw [contains, decide_eq_true_eq]
  constructor
  · rintro ⟨before, after, same⟩
    exact ⟨before, after, same.symm⟩
  · rintro ⟨before, after, same⟩
    exact ⟨before, after, same.symm⟩

/-- Different numbers have different texts. -/
theorem toString_nat_inj {m n : Nat} (same : toString m = toString n) : m = n := by
  have digits : Nat.toDigits 10 m = Nat.toDigits 10 n := by
    have lists := congrArg String.toList same
    simpa [toString, Nat.repr] using lists
  rw [← Nat.ofDigitChars_ten_toDigits (n := m), digits, Nat.ofDigitChars_ten_toDigits]

/-! ## Texts joined by two dashes -/

/-- The longer of two names goes on with two dashes, or one, and with the beginning of the text
that is joined to the shorter one. -/
def Overlaps (name text longer rest : String) : Prop :=
  longer = name ++ "-" ∧ text = "-" ++ rest ∨
    ∃ part, longer = name ++ "--" ++ part ∧ text = part ++ "--" ++ rest

/-- What can stand between two dashes and a text that ends with two dashes and another one. -/
theorem dashes_eq {text part rest : List Char}
    (same : '-' :: '-' :: text = part ++ '-' :: '-' :: rest) :
    (part = [] ∧ text = rest) ∨ (part = ['-'] ∧ text = '-' :: rest) ∨
      ∃ more, part = '-' :: '-' :: more ∧ text = more ++ '-' :: '-' :: rest := by
  match part with
  | [] =>
    simp only [List.nil_append, List.cons.injEq, true_and] at same
    exact Or.inl ⟨rfl, same⟩
  | [c] =>
    simp only [List.cons_append, List.nil_append, List.cons.injEq, true_and] at same
    exact Or.inr (Or.inl ⟨by rw [same.1], same.2⟩)
  | c :: d :: more =>
    simp only [List.cons_append, List.cons.injEq] at same
    obtain ⟨rfl, rfl, same⟩ := same
    exact Or.inr (Or.inr ⟨more, rfl, same⟩)

/-- The characters of joined texts. -/
theorem toList_joined (name text : String) :
    (name ++ "--" ++ text).toList = name.toList ++ '-' :: '-' :: text.toList := by
  rw [String.toList_append, String.toList_append, List.append_assoc]
  rfl

/-- Overlapping names and texts are the same when they are joined. -/
theorem Overlaps.joined {name text longer rest : String}
    (overlap : Overlaps name text longer rest) :
    name ++ "--" ++ text = longer ++ "--" ++ rest := by
  rcases overlap with ⟨rfl, rfl⟩ | ⟨part, rfl, rfl⟩
  · apply String.toList_inj.mp
    simp only [String.toList_append, List.append_assoc]
    rfl
  · simp only [String.append_assoc]

/-- A name that is continued by the other one overlaps with it, unless they are the same. -/
theorem overlaps_of_append {name text longer rest : String} {part : List Char}
    (named : longer.toList = name.toList ++ part)
    (same : '-' :: '-' :: text.toList = part ++ '-' :: '-' :: rest.toList) :
    (name = longer ∧ text = rest) ∨ Overlaps name text longer rest := by
  rcases dashes_eq same with ⟨rfl, texts⟩ | ⟨rfl, texts⟩ | ⟨more, rfl, texts⟩
  · rw [List.append_nil] at named
    exact Or.inl ⟨(String.toList_inj.mp named).symm, String.toList_inj.mp texts⟩
  · refine Or.inr (Or.inl ⟨String.toList_inj.mp ?_, String.toList_inj.mp ?_⟩)
    · rw [named, String.toList_append]
      rfl
    · rw [texts, String.toList_append]
      rfl
  · refine Or.inr (Or.inr ⟨String.ofList more, String.toList_inj.mp ?_, String.toList_inj.mp ?_⟩)
    · rw [named, toList_joined, String.toList_ofList]
    · rw [texts, toList_joined, String.toList_ofList]

/-- Overlapping names are different. -/
theorem Overlaps.ne {name text longer rest : String} (overlap : Overlaps name text longer rest) :
    name ≠ longer := by
  rintro same
  have length := congrArg (fun name => name.toList.length) same
  rcases overlap with ⟨rfl, -⟩ | ⟨part, rfl, -⟩
  · simp [String.toList_append] at length
  · simp [String.toList_append] at length

/-- When names and texts joined by two dashes are the same. -/
theorem joined_eq_iff {name text name' text' : String} :
    name ++ "--" ++ text = name' ++ "--" ++ text' ↔
      (name = name' ∧ text = text') ∨ Overlaps name text name' text' ∨
        Overlaps name' text' name text := by
  constructor
  · intro same
    have lists := congrArg String.toList same
    rw [toList_joined, toList_joined] at lists
    rcases List.append_eq_append_iff.mp lists with ⟨part, named, texts⟩ | ⟨part, named, texts⟩
    · rcases overlaps_of_append named texts with equal | overlap
      · exact Or.inl equal
      · exact Or.inr (Or.inl overlap)
    · rcases overlaps_of_append named texts with ⟨names, texts⟩ | overlap
      · exact Or.inl ⟨names.symm, texts.symm⟩
      · exact Or.inr (Or.inr overlap)
  · rintro (⟨rfl, rfl⟩ | overlap | overlap)
    · rfl
    · exact overlap.joined
    · exact overlap.joined.symm

/-- A text without two dashes in a row and without one in front ends joined texts only as a part of
the last one. -/
theorem contains_of_joined {name text first last : String}
    (same : name ++ "--" ++ text = first ++ last) (single : contains last "--" = false)
    (front : startswith last "-" = false) : contains text last = true := by
  have lists := congrArg String.toList same
  rw [toList_joined, String.toList_append] at lists
  have joined : (name.toList ++ ['-', '-']) ++ text.toList = first.toList ++ last.toList := by
    rw [List.append_assoc]
    exact lists
  have led : ∀ rest, last.toList ≠ '-' :: rest := by
    intro rest leads
    have begins : startswith last "-" = true := startswith_iff.mpr ⟨rest, leads⟩
    rw [front] at begins
    contradiction
  rw [contains_iff]
  rcases List.append_eq_append_iff.mp joined with ⟨before, -, texts⟩ | ⟨part, names, lasts⟩
  · exact ⟨before, [], by rw [List.append_nil, texts]⟩
  · rcases List.append_eq_append_iff.mp names with ⟨more, -, dashes⟩ | ⟨more, -, parts⟩
    · match more with
      | [] =>
        obtain rfl : part = ['-', '-'] := dashes.symm
        exact absurd lasts (led _)
      | [c] =>
        obtain rfl : part = ['-'] := by simpa using (List.cons.inj dashes).2.symm
        exact absurd lasts (led _)
      | c :: d :: others =>
        have nothing : others ++ part = [] := (List.cons.inj (List.cons.inj dashes).2).2.symm
        obtain ⟨-, rfl⟩ := List.append_eq_nil_iff.mp nothing
        exact ⟨[], [], by rw [lasts, List.nil_append, List.nil_append, List.append_nil]⟩
    · have double : contains last "--" = true := by
        rw [contains_iff]
        exact ⟨more, text.toList, by rw [lasts, parts]; rfl⟩
      rw [single] at double
      contradiction

end Copr.Text
