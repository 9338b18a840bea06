import Mathlib.Algebra.GroupWithZero.Nat
import Mathlib.Data.List.DropRight
import Mathlib.Data.List.Infix
import Mathlib.Data.List.ReduceOption
import Mathlib.Tactic.Common

/-!
# Files of sections and keys

How an ini file is read. A file that was put together from section names and values is read as
these sections and keys exactly when no name and no value has a line end, no name has the bracket
that ends it, and no value has blanks around it.
-/

namespace Copr.IniFiles

/-! ## Reading -/

/-- The blanks within a line: the space, both tabulators, the form feed and the carriage return. -/
def blanks : List Char := [' ', '\t', Char.ofNat 11, Char.ofNat 12, '\r']

/-- A blank within a line. -/
def isBlank (c : Char) : Bool := blanks.contains c

/-- A text without the blanks at its end. -/
def trimEnd (text : List Char) : List Char := text.rdropWhile isBlank

/-- A text without the blanks around it. -/
def trim (text : List Char) : List Char := trimEnd (text.dropWhile isBlank)

/-- What a file has in its order. -/
inductive Item
  /-- A section begins. -/
  | header (name : List Char)
  /-- A key with its value. -/
  | key (name value : List Char)
  deriving DecidableEq, Repr

/-- What a line is by itself. -/
inductive Line
  /-- A blank line or a comment. -/
  | blank
  /-- Something of its own. -/
  | item (own : Item)
  /-- One more line of a value. -/
  | more (text : List Char)
  deriving DecidableEq, Repr

/-- Reads a line; `none` when it is malformed. -/
def readLine : List Char → Option Line
  | [] => some .blank
  | c :: rest =>
    if c = '#' ∨ c = ';' then some .blank
    else if c = '[' then
      if ']' ∈ rest ∧ ((rest.dropWhile (· ≠ ']')).drop 1).all isBlank = true then
        some (.item (.header (rest.takeWhile (· ≠ ']'))))
      else none
    else if isBlank c = true then
      if rest.all isBlank = true then some .blank else some (.more (trim rest))
    else if c ≠ '=' ∧ '=' ∈ rest then
      some (.item (.key (trimEnd (c :: rest.takeWhile (· ≠ '=')))
        (trim ((rest.dropWhile (· ≠ '=')).drop 1))))
    else none

/-- Adds a line to what was read, the newest first; `none` for a key outside of sections and for
one more line of no value. -/
def addLine : List Item → Line → Option (List Item)
  | items, .blank => some items
  | items, .item (.header name) => some (.header name :: items)
  | [], .item (.key _ _) => none
  | item :: items, .item (.key name value) => some (.key name value :: item :: items)
  | .key name value :: items, .more text => some (.key name (value ++ '\n' :: text) :: items)
  | _, .more _ => none

/-- Reads some more lines. -/
def readLines : List Item → List (List Char) → Option (List Item)
  | items, [] => some items
  | items, line :: rest =>
    (readLine line).bind fun line => (addLine items line).bind fun items => readLines items rest

/-- Reads a file. -/
def readIni (text : List Char) : Option (List Item) :=
  (readLines [] (text.splitOn '\n')).map List.reverse

/-! ## Lengths -/

/-- How many characters an item needs. -/
def Item.size : Item → Nat
  | .header name => name.length + 2
  | .key name value => name.length + 1 + value.length

/-- How many characters a line needs. -/
def Line.size : Line → Nat
  | .blank => 0
  | .item own => own.size
  | .more text => text.length + 1

/-- How many characters some items need. -/
def totalSize (items : List Item) : Nat := (items.map Item.size).sum

section Sizes

variable {c : Char} {text line : List Char} {lines : List (List Char)} {l : Line}
  {items items' : List Item}

/-- Nothing is put in front or at the end. -/
theorem trimEnd_length : (trimEnd text).length ≤ text.length :=
  (List.rdropWhile_prefix isBlank text).length_le

/-- A trimmed text is not longer. -/
theorem trim_length : (trim text).length ≤ text.length :=
  Nat.le_trans trimEnd_length (List.dropWhile_suffix isBlank).length_le

/-- Nothing is taken from a text with other characters at its ends. -/
theorem trim_eq (front : ∀ c ∈ text.head?, isBlank c = false)
    (back : ∀ c ∈ text.getLast?, isBlank c = false) : trim text = text := by
  have first : text.dropWhile isBlank = text := by
    cases text with
    | nil => rfl
    | cons c rest =>
      have other : ¬isBlank c = true := by rw [front c rfl]; exact Bool.false_ne_true
      exact List.dropWhile_cons_of_neg other
  rw [trim, trimEnd, first, List.rdropWhile_eq_self_iff]
  intro nonempty
  rw [back _ (List.getLast?_eq_getLast_of_ne_nil nonempty)]
  exact Bool.false_ne_true

/-- A separator with what stands around it. -/
theorem around_length (member : c ∈ text) :
    (text.takeWhile (· ≠ c)).length + 1 + ((text.dropWhile (· ≠ c)).drop 1).length =
      text.length := by
  have whole := congrArg List.length (List.takeWhile_append_dropWhile (p := (· ≠ c)) (l := text))
  have nonempty : text.dropWhile (· ≠ c) ≠ [] := by
    intro empty
    rw [List.dropWhile_eq_nil_iff] at empty
    simpa using empty c member
  have positive := List.length_pos_iff.mpr nonempty
  rw [List.length_append] at whole
  rw [List.length_drop]
  omega

/-- No line gives more than it has. -/
theorem readLine_size (read : readLine line = some l) : l.size ≤ line.length := by
  cases line with
  | nil =>
    cases read
    exact Nat.le_refl _
  | cons c rest =>
    simp only [readLine] at read
    split at read
    · cases read
      exact Nat.zero_le _
    · split at read
      · obtain ⟨⟨closed, _⟩, same⟩ := Option.ite_none_right_eq_some.mp read
        cases same
        have length := around_length closed
        show (rest.takeWhile (· ≠ ']')).length + 2 ≤ rest.length + 1
        omega
      · split at read
        · split at read
          · cases read
            exact Nat.zero_le _
          · cases read
            exact Nat.succ_le_succ trim_length
        · obtain ⟨⟨_, equals⟩, same⟩ := Option.ite_none_right_eq_some.mp read
          cases same
          have length := around_length equals
          have name := @trimEnd_length (c :: rest.takeWhile (· ≠ '='))
          have value := @trim_length ((rest.dropWhile (· ≠ '=')).drop 1)
          rw [List.length_cons] at name
          show _ + 1 + _ ≤ rest.length + 1
          omega

/-- A line adds what it gives. -/
theorem addLine_size (added : addLine items l = some items') :
    totalSize items' = totalSize items + l.size := by
  unfold addLine at added
  split at added <;> cases added
  · rfl
  · exact Nat.add_comm _ _
  · exact Nat.add_comm _ _
  · simp only [totalSize, Item.size, Line.size, List.map_cons, List.sum_cons, List.length_append,
      List.length_cons]
    omega

/-- The lines give no more than they have. -/
theorem readLines_size (read : readLines items lines = some items') :
    totalSize items' ≤ totalSize items + (lines.map List.length).sum := by
  induction lines generalizing items with
  | nil =>
    cases read
    exact Nat.le_refl _
  | cons line rest ih =>
    obtain ⟨l, own, others⟩ := Option.bind_eq_some_iff.mp read
    obtain ⟨next, added, more⟩ := Option.bind_eq_some_iff.mp others
    have whole := ih more
    rw [addLine_size added] at whole
    have length := readLine_size own
    rw [List.map_cons, List.sum_cons]
    omega

/-- The lines of a text with their ends. -/
theorem lines_length :
    ((text.splitOn '\n').map List.length).sum + text.count '\n' = text.length := by
  induction text with
  | nil => rfl
  | cons c rest ih =>
    rw [List.splitOn_cons_eq_if_modifyHead, List.count_cons, List.length_cons]
    by_cases newline : c = '\n'
    · rw [newline, if_pos (beq_self_eq_true _), if_pos (beq_self_eq_true _), List.map_cons,
        List.sum_cons, List.length_nil]
      omega
    · have other : (c == '\n') = false := beq_eq_false_iff_ne.mpr newline
      obtain ⟨line, lines, same⟩ := List.exists_cons_of_ne_nil (List.splitOn_ne_nil '\n' rest)
      rw [other, if_neg Bool.false_ne_true, if_neg Bool.false_ne_true, same, List.modifyHead_cons]
      rw [same] at ih
      simp only [List.map_cons, List.sum_cons, List.length_cons] at ih ⊢
      omega

end Sizes

/-! ## Files from items -/

/-- The line of an item. -/
def Item.text : Item → List Char
  | .header name => '[' :: (name ++ [']'])
  | .key name value => name ++ '=' :: value

/-- The file with some items, each on a line, and with blank lines between them. -/
def print (lines : List (Option Item)) : List Char :=
  lines.flatMap fun item => '\n' :: (item.map Item.text).getD []

/-- A key that is read as it is. -/
def ProperKey (name : List Char) : Prop :=
  trimEnd name = name ∧ '=' ∉ name ∧ '\n' ∉ name ∧
    name.head?.any (fun c => !(isBlank c || c = '#' || c = ';' || c = '[')) = true

instance ProperKey.decidable (name : List Char) : Decidable (ProperKey name) :=
  inferInstanceAs (Decidable (_ ∧ _))

/-- The keys are read as they are. -/
def Item.Proper : Item → Prop
  | .header _ => True
  | .key name _ => ProperKey name

/-- The name of a section or the value of a key is read as it is. -/
def Item.Fits : Item → Prop
  | .header name => '\n' ∉ name ∧ ']' ∉ name
  | .key _ value => '\n' ∉ value ∧ trim value = value

/-- An item as it is read. -/
def Item.read : Item → Item
  | .header name => .header name
  | .key name value => .key name (trim value)

/-- The name of a section is not ended early. -/
def Item.closed : Item → Bool
  | .header name => decide (']' ∉ name)
  | .key _ _ => true

/-- There is no key before the first section. -/
def Headed : List Item → Prop
  | .key _ _ :: _ => False
  | _ => True

section Print

variable {c : Char} {name value : List Char} {item : Item} {items acc : List Item}
  {lines : List (Option Item)}

/-- How long the line of an item is. -/
theorem Item.text_length : item.text.length = item.size := by
  cases item with
  | header name =>
    show (name ++ [']']).length + 1 = name.length + 2
    rw [List.length_append]
    rfl
  | key name value =>
    show (name ++ '=' :: value).length = name.length + 1 + value.length
    rw [List.length_append, List.length_cons]
    omega

/-- What stands around the first separator. -/
theorem takeWhile_around (absent : c ∉ name) :
    (name ++ c :: value).takeWhile (· ≠ c) = name ∧
      ((name ++ c :: value).dropWhile (· ≠ c)).drop 1 = value := by
  have all : ∀ d ∈ name, decide (d ≠ c) = true := fun d member =>
    decide_eq_true fun same => absent (same ▸ member)
  rw [List.takeWhile_append_of_pos all, List.dropWhile_append_of_pos all]
  simp

/-- The line of a proper key is read as the key with its trimmed value. -/
theorem readLine_key (proper : ProperKey name) :
    readLine (name ++ '=' :: value) = some (.item (.key name (trim value))) := by
  obtain ⟨trimmed, equals, _, first⟩ := proper
  cases name with
  | nil => contradiction
  | cons c rest =>
    simp only [List.head?_cons, Option.any_some, Bool.not_eq_true', Bool.or_eq_false_iff,
      decide_eq_false_iff_not] at first
    obtain ⟨⟨⟨blank, hash⟩, semicolon⟩, bracket⟩ := first
    rw [List.mem_cons, not_or] at equals
    obtain ⟨before, after⟩ := @takeWhile_around '=' rest value equals.2
    rw [List.cons_append, readLine, if_neg (not_or.mpr ⟨hash, semicolon⟩), if_neg bracket,
      if_neg (by simp [blank]), if_pos ⟨Ne.symm equals.1, by simp⟩, before, after, trimmed]

/-- The line of a section is read as its name, unless the name has a closing bracket. -/
theorem readLine_header : readLine ('[' :: (name ++ [']'])) =
    if ']' ∈ name then none else some (.item (.header name)) := by
  have hash : ¬('[' = '#' ∨ '[' = ';') := by decide
  rw [readLine, if_neg hash, if_pos rfl]
  by_cases inside : ']' ∈ name
  · obtain ⟨front, back, same, absent⟩ := List.eq_append_cons_of_mem inside
    obtain ⟨-, after⟩ := @takeWhile_around ']' front (back ++ [']']) absent
    have whole : name ++ [']'] = front ++ ']' :: (back ++ [']']) := by
      rw [same, List.append_assoc]
      rfl
    rw [if_pos inside, whole, after, if_neg]
    rintro ⟨_, blanks⟩
    rw [List.all_append, Bool.and_eq_true] at blanks
    exact absurd blanks.2 (by decide)
  · obtain ⟨before, after⟩ := @takeWhile_around ']' name [] inside
    rw [before, after, if_neg inside, if_pos ⟨by simp, rfl⟩]

/-- The line of a proper item is read as that item if it is closed. -/
theorem readLine_item (proper : item.Proper) :
    readLine item.text = if item.closed = true then some (.item item.read) else none := by
  cases item with
  | header name =>
    rw [Item.text, readLine_header]
    by_cases inside : ']' ∈ name
    · simp [Item.closed, inside]
    · simp [Item.closed, inside, Item.read]
  | key name value =>
    rw [Item.text, readLine_key proper]
    rfl

/-- The lines of a file without line ends in its items. -/
theorem splitOn_print (single : ∀ item ∈ lines.reduceOption, '\n' ∉ item.text) :
    (print lines).splitOn '\n' = [] :: lines.map fun item => (item.map Item.text).getD [] := by
  have pieces : ∀ pre : List Char, '\n' ∉ pre → (pre ++ print lines).splitOn '\n' =
      pre :: lines.map fun item => (item.map Item.text).getD [] := by
    induction lines with
    | nil =>
      intro pre absent
      show (pre ++ []).splitOn '\n' = [pre]
      rw [List.append_nil, List.splitOn_eq_singleton absent]
    | cons line rest ih =>
      intro pre absent
      have own : '\n' ∉ (line.map Item.text).getD [] := by
        cases line with
        | none => exact List.not_mem_nil
        | some item => exact single item List.mem_cons_self
      have others := ih (fun item member => single item (by
        cases line with
        | none => exact member
        | some own => exact List.mem_cons_of_mem _ member)) _ own
      show (pre ++ ('\n' :: (line.map Item.text).getD [] ++ print rest)).splitOn '\n' = _
      rw [List.cons_append, List.splitOn_append_cons_self_of_not_mem absent, others]
      rfl
  exact pieces [] List.not_mem_nil

/-- The length of a printed file and its line breaks, from those of its items. -/
theorem print_length :
    (print lines).length = lines.length + totalSize lines.reduceOption ∧
      (print lines).count '\n' =
        lines.length + (lines.reduceOption.map fun item => item.text.count '\n').sum := by
  induction lines with
  | nil => exact ⟨rfl, rfl⟩
  | cons line rest ih =>
    have whole : print (line :: rest) = '\n' :: (line.map Item.text).getD [] ++ print rest := rfl
    rw [whole, List.length_append, List.length_cons, List.count_append, List.count_cons_self,
      ih.1, ih.2, List.length_cons]
    cases line with
    | none =>
      show 0 + 1 + (rest.length + totalSize rest.reduceOption) = _ ∧ 0 + 1 + _ = _
      rw [List.reduceOption_cons_of_none]
      constructor <;> omega
    | some item =>
      show item.text.length + 1 + (rest.length + totalSize rest.reduceOption) = _ ∧
        item.text.count '\n' + 1 + _ = _
      simp only [Item.text_length, List.reduceOption_cons_of_some, totalSize, List.map_cons,
        List.sum_cons]
      constructor <;> omega

/-- The lines of some items are all read, or one of them is malformed. -/
theorem readLines_items (proper : ∀ item ∈ lines.reduceOption, item.Proper)
    (headed : acc ≠ [] ∨ Headed lines.reduceOption) :
    readLines acc (lines.map fun item => (item.map Item.text).getD []) =
      if ∀ item ∈ lines.reduceOption, item.closed = true then
        some ((lines.reduceOption.map Item.read).reverse ++ acc)
      else none := by
  induction lines generalizing acc with
  | nil => simp [readLines]
  | cons line rest ih =>
    cases line with
    | none =>
      rw [List.reduceOption_cons_of_none] at proper headed ⊢
      exact ih proper headed
    | some item =>
      rw [List.reduceOption_cons_of_some] at proper headed ⊢
      have others := fun item member => proper item (List.mem_cons_of_mem _ member)
      have added : addLine acc (.item item.read) = some (item.read :: acc) := by
        cases item with
        | header name => rfl
        | key name value =>
          cases acc with
          | nil => simp [Headed] at headed
          | cons _ _ => rfl
      rw [List.map_cons, readLines]
      show (readLine item.text).bind _ = _
      rw [readLine_item (proper item List.mem_cons_self)]
      by_cases closed : item.closed = true
      · rw [if_pos closed, Option.bind_some, added, Option.bind_some,
          ih others (Or.inl (List.cons_ne_nil _ _))]
        simp [closed]
      · simp [closed]

/-- A file is read as the items it was put together from exactly when their names and values are
read as they are. -/
theorem readIni_print_iff (proper : ∀ item ∈ lines.reduceOption, item.Proper)
    (headed : Headed lines.reduceOption) :
    readIni (print lines) = some lines.reduceOption ↔
      ∀ item ∈ lines.reduceOption, item.Fits := by
  have whole (single : ∀ item ∈ lines.reduceOption, '\n' ∉ item.text) :
      readIni (print lines) =
        if ∀ item ∈ lines.reduceOption, item.closed = true then
          some (lines.reduceOption.map Item.read)
        else none := by
    have first (rest : List (List Char)) : readLines [] ([] :: rest) = readLines [] rest := rfl
    rw [readIni, splitOn_print single, first, readLines_items proper (Or.inr headed)]
    split
    · simp
    · rfl
  have fits {item : Item} (own : item.Proper) :
      item.Fits ↔ '\n' ∉ item.text ∧ item.closed = true ∧ item.read = item := by
    cases item with
    | header name =>
      have bracket : ('\n' : Char) ≠ '[' := by decide
      have closing : ('\n' : Char) ≠ ']' := by decide
      simp [Item.Fits, Item.text, Item.closed, Item.read, bracket, closing]
    | key name value =>
      obtain ⟨-, -, line, -⟩ := own
      have equals : ('\n' : Char) ≠ '=' := by decide
      simp [Item.Fits, Item.text, Item.closed, Item.read, line, equals]
  constructor
  · intro read
    obtain ⟨newest, lined, same⟩ := Option.map_eq_some_iff.mp read
    have sizes := readLines_size lined
    have total : totalSize newest = totalSize lines.reduceOption := by
      rw [← same, totalSize, totalSize, List.map_reverse, List.sum_reverse]
    obtain ⟨length, ends⟩ := @print_length lines
    have split := @lines_length (print lines)
    rw [total, show totalSize [] = 0 from rfl] at sizes
    have none : (lines.reduceOption.map fun item => item.text.count '\n').sum = 0 := by omega
    have single : ∀ item ∈ lines.reduceOption, '\n' ∉ item.text := by
      intro item member
      rw [← List.count_eq_zero]
      exact List.sum_eq_zero_iff_forall_eq_nat.mp none _ (List.mem_map_of_mem member)
    rw [whole single] at read
    obtain ⟨closed, kept⟩ := Option.ite_none_right_eq_some.mp read
    intro item member
    rw [fits (proper item member)]
    have own : lines.reduceOption.map Item.read = lines.reduceOption.map id := by
      rw [Option.some.inj kept, List.map_id]
    exact ⟨single item member, closed item member, List.map_inj_left.mp own item member⟩
  · intro all
    have each {item : Item} (member : item ∈ lines.reduceOption) :=
      (fits (proper item member)).mp (all item member)
    have kept : lines.reduceOption.map Item.read = lines.reduceOption.map id :=
      List.map_inj_left.mpr fun item member => (each member).2.2
    rw [whole fun item member => (each member).1, if_pos fun item member => (each member).2.1,
      kept, List.map_id]

end Print

end Copr.IniFiles
