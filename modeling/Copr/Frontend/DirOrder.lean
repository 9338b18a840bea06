import Copr.Frontend.CoprDirs
import Copr.Lib.Comparators

/-!
# The order of directories

`CoprDirsLogic._compare_dir_pairs` compares names of directories field by field, as numbers behind a
field `pr` where it can and by the locale elsewhere. It orders the directories of a project when
no two of them go on with the same number there and no other field falls between two numbers
that the locale has in the opposite order.
-/

namespace Copr

open Text Comparators

/-- What is used of libraries. -/
structure DirLibrary where
  /-- `locale.strcoll`. -/
  strcoll : List Char → List Char → Int
  /-- `int(text)`; `none` when it raises `ValueError`. -/
  int : List Char → Option Int
  /-- Two texts compare as equal only if they are the same. -/
  strcoll_zero : ∀ a b, strcoll a b = 0 ↔ a = b
  /-- Comparing two texts the other way round changes the sign. -/
  strcoll_swap : ∀ a b, (strcoll a b).sign = -(strcoll b a).sign
  /-- A text that comes before one that comes before a third comes before the third. -/
  strcoll_trans : ∀ a b c, strcoll a b < 0 → strcoll b c < 0 → strcoll a c < 0

/-- `'pr'`. -/
def prField : List Char := ['p', 'r']

namespace DirLibrary

variable (lib : DirLibrary)

/-- Both fields as numbers, which are only tried behind `pr`. -/
def numbers (pr : Bool) (left right : List Char) : Option (Int × Int) :=
  if pr then (lib.int right).bind fun n => (lib.int left).map fun m => (m, n) else none

/-- The loop of `_compare_dir_pairs`. -/
def compareFields : Bool → List (List Char) → List (List Char) → Int
  | _, [], [] => 0
  | _, [], _ :: _ => 1
  | _, _ :: _, [] => -1
  | pr, left :: lefts, right :: rights =>
    match lib.numbers pr left right with
    | some (m, n) => n - m
    | none =>
      if lib.strcoll left right ≠ 0 then lib.strcoll left right
      else compareFields (left == prField) lefts rights

/-- `_compare_dir_pairs`. -/
def compareDirPairs (dirname1 dirname2 : String) : Int :=
  if ':' ∉ dirname1.toList then -1
  else if ':' ∉ dirname2.toList then 1
  else lib.compareFields false (split dirname1 ':') (split dirname2 ':')

end DirLibrary

/-! ## Fields behind `pr` -/

/-- The text up to a field is that of `pr`; in front of all fields it is as given. -/
def endsWithPr (pr : Bool) (front : List (List Char)) : Bool :=
  front.getLast?.elim pr fun last => last == prField

/-- The fields go on with one behind `pr`. -/
def Follows (pr : Bool) (front : List (List Char)) (field : List Char)
    (fields : List (List Char)) : Prop :=
  endsWithPr pr front = true ∧ front ++ [field] <+: fields

namespace DirLibrary

variable (lib : DirLibrary)

/-- Up to a field `pr` the same, and then the same number. -/
def SameNumber (pr : Bool) (a b : List (List Char)) : Prop :=
  ∃ front x y n, Follows pr front x a ∧ Follows pr front y b ∧
    lib.int x = some n ∧ lib.int y = some n

/-- Up to a field `pr` the same, and then a number, a smaller one and a field that is none, which
falls between them in the opposite order. -/
def Between (pr : Bool) (a b c : List (List Char)) : Prop :=
  ∃ front x y z m n, Follows pr front x a ∧ Follows pr front y b ∧ Follows pr front z c ∧
    lib.int x = some m ∧ lib.int y = some n ∧ lib.int z = none ∧ n < m ∧
    lib.strcoll y z < 0 ∧ lib.strcoll z x < 0

end DirLibrary

variable {lib : DirLibrary} {pr : Bool} {front : List (List Char)} {field x y : List Char}
  {a b c : List (List Char)}

/-- Fields behind a first one end with `pr` when the others do, or there are none and it is `pr`. -/
theorem endsWithPr_cons : endsWithPr pr (x :: front) = endsWithPr (x == prField) front := by
  rw [endsWithPr, endsWithPr, List.getLast?_cons]
  cases front.getLast? <;> rfl

/-- A field that stands behind `pr` still does when another field is put in front. -/
theorem Follows.cons (follows : Follows (x == prField) front field a) :
    Follows pr (x :: front) field (x :: a) :=
  ⟨endsWithPr_cons.trans follows.1, List.cons_prefix_cons.mpr ⟨rfl, follows.2⟩⟩

/-- The first field stands behind `pr` when the text in front ends with it. -/
theorem Follows.head : Follows true [] field (field :: a) :=
  ⟨rfl, List.cons_prefix_cons.mpr ⟨rfl, List.nil_prefix⟩⟩

/-- Names with the same number behind `pr` have it with the same field in front as well. -/
theorem DirLibrary.SameNumber.cons (same : lib.SameNumber (x == prField) a b) :
    lib.SameNumber pr (x :: a) (x :: b) := by
  obtain ⟨front, y, z, n, one, two, numbers⟩ := same
  exact ⟨x :: front, y, z, n, one.cons, two.cons, numbers⟩

/-- A field that falls between two numbers still does with the same field in front of all three. -/
theorem DirLibrary.Between.cons (between : lib.Between (x == prField) a b c) :
    lib.Between pr (x :: a) (x :: b) (x :: c) := by
  obtain ⟨front, y, z, w, m, n, one, two, three, rest⟩ := between
  exact ⟨x :: front, y, z, w, m, n, one.cons, two.cons, three.cons, rest⟩

/-! ## What the loop finds -/

/-- Two numbers are found behind `pr`. -/
theorem numbers_eq_some {m n : Int} : lib.numbers pr x y = some (m, n) ↔
    pr = true ∧ lib.int x = some m ∧ lib.int y = some n := by
  unfold DirLibrary.numbers
  cases pr with
  | false => simp
  | true =>
    cases lib.int x <;> cases lib.int y <;> simp

/-- Without two numbers the fields are compared as texts. -/
theorem compareFields_texts (none : lib.numbers pr x y = none) :
    lib.compareFields pr (x :: a) (y :: b) < 0 ↔
      lib.strcoll x y < 0 ∨ x = y ∧ lib.compareFields (x == prField) a b < 0 := by
  rw [DirLibrary.compareFields, none]
  simp only
  split
  · rename_i apart
    have differ : x ≠ y := fun same => apart ((lib.strcoll_zero x y).mpr same)
    exact ⟨Or.inl, fun found => found.resolve_right fun both => differ both.1⟩
  · rename_i same
    rw [not_not] at same
    rw [same]
    exact ⟨fun before => Or.inr ⟨(lib.strcoll_zero x y).mp same, before⟩,
      fun found => (found.resolve_left (lt_irrefl 0)).2⟩

/-- Two numbers are compared the other way round. -/
theorem compareFields_numbers {m n : Int} (both : lib.numbers pr x y = some (m, n)) :
    lib.compareFields pr (x :: a) (y :: b) = n - m := by
  rw [DirLibrary.compareFields, both]

/-- Comparing two lists of fields the other way round changes the sign. -/
theorem compareFields_swap (lib : DirLibrary) (pr : Bool) (a b : List (List Char)) :
    (lib.compareFields pr a b).sign = -(lib.compareFields pr b a).sign := by
  induction a generalizing pr b with
  | nil => cases b <;> rfl
  | cons x a ih =>
    cases b with
    | nil => rfl
    | cons y b =>
      cases found : lib.numbers pr x y with
      | some numbers =>
        obtain ⟨behind, left, right⟩ := numbers_eq_some.mp found
        rw [compareFields_numbers found,
          compareFields_numbers (numbers_eq_some.mpr ⟨behind, right, left⟩), ← Int.sign_neg,
          Int.neg_sub]
      | none =>
        have other : lib.numbers pr y x = none := by
          cases again : lib.numbers pr y x with
          | none => rfl
          | some numbers =>
            obtain ⟨behind, left, right⟩ := numbers_eq_some.mp again
            rw [numbers_eq_some.mpr ⟨behind, right, left⟩] at found
            contradiction
        rw [DirLibrary.compareFields, DirLibrary.compareFields, found, other]
        simp only
        by_cases same : x = y
        · subst same
          have zero := (lib.strcoll_zero x x).mpr rfl
          rw [zero]
          exact ih _ _
        · rw [if_pos fun zero => same ((lib.strcoll_zero x y).mp zero),
            if_pos fun zero => same ((lib.strcoll_zero y x).mp zero).symm, lib.strcoll_swap]

/-- The fields of a name compare as equal to themselves. -/
theorem compareFields_self (pr : Bool) (a : List (List Char)) : lib.compareFields pr a a = 0 := by
  have signs := compareFields_swap lib pr a a
  exact Int.sign_eq_zero_iff_zero.mp (by omega)

/-- Different names compare as equal only if they have the same number behind `pr`. -/
theorem compareFields_eq_zero (same : lib.compareFields pr a b = 0) :
    a = b ∨ lib.SameNumber pr a b := by
  induction a generalizing pr b with
  | nil =>
    cases b with
    | nil => exact Or.inl rfl
    | cons y b => exact absurd (show (1 : Int) = 0 from same) (by decide)
  | cons x a ih =>
    cases b with
    | nil => exact absurd (show (-1 : Int) = 0 from same) (by decide)
    | cons y b =>
      cases found : lib.numbers pr x y with
      | some numbers =>
        obtain ⟨behind, left, right⟩ := numbers_eq_some.mp found
        rw [compareFields_numbers found] at same
        have equal : numbers.1 = numbers.2 := by omega
        subst behind
        exact Or.inr ⟨[], x, y, numbers.2, Follows.head, Follows.head, equal ▸ left, right⟩
      | none =>
        rw [DirLibrary.compareFields, found] at same
        simp only at same
        split at same
        · contradiction
        · rename_i zero
          rw [not_not] at zero
          obtain rfl := (lib.strcoll_zero x y).mp zero
          rcases ih same with rfl | number
          · exact Or.inl rfl
          · exact Or.inr number.cons

/-- Names that begin alike are compared by the rest, unless they have the same number behind `pr`
before. -/
theorem compareFields_append (front : List (List Char)) (pr : Bool)
    (apart : ¬ lib.SameNumber pr (front ++ a) (front ++ b)) :
    lib.compareFields pr (front ++ a) (front ++ b) =
      lib.compareFields (endsWithPr pr front) a b := by
  induction front generalizing pr with
  | nil => rfl
  | cons f front ih =>
    cases found : lib.numbers pr f f with
    | some numbers =>
      obtain ⟨behind, left, right⟩ := numbers_eq_some.mp found
      subst behind
      exact absurd ⟨[], f, f, numbers.1, Follows.head, Follows.head, left, left⟩ apart
    | none =>
      rw [List.cons_append, List.cons_append, DirLibrary.compareFields, found, endsWithPr_cons]
      simp only [(lib.strcoll_zero f f).mpr rfl, ne_eq, not_true_eq_false, if_false]
      exact ih _ fun same => apart same.cons

/-- Names with the same number behind `pr` compare as equal. -/
theorem compareFields_of_sameNumber (same : lib.SameNumber pr a b) :
    lib.compareFields pr a b = 0 := by
  obtain ⟨front, x, y, n, ⟨behind, rest, rfl⟩, ⟨-, rest', rfl⟩, left, right⟩ := same
  induction front generalizing pr with
  | nil =>
    rw [List.nil_append, List.nil_append, List.singleton_append, List.singleton_append,
      compareFields_numbers (numbers_eq_some.mpr ⟨show pr = true from behind, left, right⟩),
      Int.sub_self]
  | cons f front ih =>
    cases found : lib.numbers pr f f with
    | some numbers =>
      obtain ⟨-, one, two⟩ := numbers_eq_some.mp found
      rw [List.cons_append, List.cons_append, List.cons_append, List.cons_append,
        compareFields_numbers found, Option.some.inj (one.symm.trans two), Int.sub_self]
    | none =>
      rw [List.cons_append, List.cons_append, List.cons_append, List.cons_append,
        DirLibrary.compareFields, found]
      simp only [(lib.strcoll_zero f f).mpr rfl, ne_eq, not_true_eq_false, if_false]
      exact ih (endsWithPr_cons ▸ behind)

/-- A number that falls between two others in the opposite order makes a circle. -/
theorem circle_of_between (between : lib.Between pr a b c) (one : ¬ lib.SameNumber pr a b)
    (two : ¬ lib.SameNumber pr b c) (three : ¬ lib.SameNumber pr c a) :
    lib.compareFields pr a b < 0 ∧ lib.compareFields pr b c < 0 ∧
      lib.compareFields pr c a < 0 := by
  obtain ⟨front, x, y, z, m, n, ⟨behind, ra, rfl⟩, ⟨-, rb, rfl⟩, ⟨-, rc, rfl⟩, larger, smaller,
    text, less, low, high⟩ := between
  simp only [List.append_assoc, List.singleton_append] at one two three ⊢
  rw [compareFields_append _ _ one, compareFields_append _ _ two, compareFields_append _ _ three,
    behind]
  have notNumber : ∀ u, lib.numbers true u z = none ∧ lib.numbers true z u = none := by
    intro u
    constructor
    · rw [DirLibrary.numbers, text]
      rfl
    · rw [DirLibrary.numbers, text]
      cases lib.int u <;> rfl
  refine ⟨?_, ?_, ?_⟩
  · rw [compareFields_numbers (numbers_eq_some.mpr ⟨rfl, larger, smaller⟩)]
    omega
  · exact (compareFields_texts (notNumber y).1).mpr (Or.inl low)
  · exact (compareFields_texts (notNumber x).2).mpr (Or.inl high)

/-- One of two different texts comes first. -/
theorem strcoll_cases (apart : x ≠ y) : lib.strcoll x y < 0 ∨ lib.strcoll y x < 0 := by
  have signs := lib.strcoll_swap x y
  rcases Int.lt_trichotomy (lib.strcoll x y) 0 with before | same | after
  · exact Or.inl before
  · exact absurd ((lib.strcoll_zero x y).mp same) apart
  · rw [Int.sign_eq_one_of_pos after] at signs
    exact Or.inr (Int.sign_eq_neg_one_iff_neg.mp (by omega))

/-- A number and a field that is none are compared as texts. -/
theorem compareFields_unlike (unlike : (lib.int x).isSome ≠ (lib.int y).isSome) :
    lib.compareFields pr (x :: a) (y :: b) < 0 ↔ lib.strcoll x y < 0 := by
  have none : lib.numbers pr x y = none := by
    cases found : lib.numbers pr x y with
    | none => rfl
    | some numbers =>
      obtain ⟨-, left, right⟩ := numbers_eq_some.mp found
      rw [left, right] at unlike
      contradiction
  rw [compareFields_texts none]
  refine or_iff_left fun both => unlike ?_
  rw [both.1]

/-- The order of fields is transitive, if no two names have the same number behind `pr` and no
field falls between two numbers. -/
theorem compareFields_trans (pr : Bool) (a b c : List (List Char))
    (first : lib.compareFields pr a b < 0) (second : lib.compareFields pr b c < 0)
    (apart : ¬ lib.SameNumber pr a c) (last : ¬ lib.Between pr a b c)
    (middle : ¬ lib.Between pr c a b) (front : ¬ lib.Between pr b c a) :
    lib.compareFields pr a c < 0 := by
  induction a generalizing pr b c with
  | nil =>
    cases b with
    | nil => exact absurd (show (0 : Int) < 0 from first) (by decide)
    | cons y b => exact absurd (show (1 : Int) < 0 from first) (by decide)
  | cons x a ih =>
    cases c with
    | nil => exact show (-1 : Int) < 0 by decide
    | cons z c =>
      cases b with
      | nil => exact absurd (show (1 : Int) < 0 from second) (by decide)
      | cons y b =>
        -- As texts the order of the fields decides, or that of the rest.
        have texts : lib.numbers pr x y = none → lib.numbers pr y z = none →
            lib.numbers pr x z = none → lib.compareFields pr (x :: a) (z :: c) < 0 := by
          intro xy yz xz
          rw [compareFields_texts xy] at first
          rw [compareFields_texts yz] at second
          rw [compareFields_texts xz]
          rcases first with less | ⟨rfl, less⟩
          · rcases second with less' | ⟨rfl, _⟩
            · exact Or.inl (lib.strcoll_trans x y z less less')
            · exact Or.inl less
          · rcases second with less' | ⟨rfl, less'⟩
            · exact Or.inl less'
            · exact Or.inr ⟨rfl, ih _ b c less less' (fun same => apart same.cons)
                (fun between => last between.cons) (fun between => middle between.cons)
                fun between => front between.cons⟩
        cases pr with
        | false => exact texts rfl rfl rfl
        | true =>
          cases left : lib.int x with
          | none =>
            cases right : lib.int z with
            | none =>
              refine texts ?_ ?_ ?_ <;> simp [DirLibrary.numbers, left, right]
            | some k =>
              cases found : lib.int y with
              | none => refine texts ?_ ?_ ?_ <;> simp [DirLibrary.numbers, left, found]
              | some n =>
                rw [compareFields_unlike (by simp [left, found])] at first
                rw [compareFields_numbers (numbers_eq_some.mpr ⟨rfl, found, right⟩)] at second
                rw [compareFields_unlike (by simp [left, right])]
                have differ : x ≠ z := by rintro rfl; rw [left] at right; contradiction
                refine (strcoll_cases differ).resolve_right fun less => front ?_
                exact ⟨[], y, z, x, n, k, Follows.head, Follows.head, Follows.head, found, right,
                  left, by omega, less, first⟩
          | some m =>
            cases right : lib.int z with
            | none =>
              cases found : lib.int y with
              | none => refine texts ?_ ?_ ?_ <;> simp [DirLibrary.numbers, right, found]
              | some n =>
                rw [compareFields_numbers (numbers_eq_some.mpr ⟨rfl, left, found⟩)] at first
                rw [compareFields_unlike (by simp [found, right])] at second
                rw [compareFields_unlike (by simp [left, right])]
                have differ : x ≠ z := by rintro rfl; rw [left] at right; contradiction
                refine (strcoll_cases differ).resolve_right fun less => last ?_
                exact ⟨[], x, y, z, m, n, Follows.head, Follows.head, Follows.head, left, found,
                  right, by omega, second, less⟩
            | some k =>
              rw [compareFields_numbers (numbers_eq_some.mpr ⟨rfl, left, right⟩)]
              cases found : lib.int y with
              | none =>
                rw [compareFields_unlike (by simp [left, found])] at first
                rw [compareFields_unlike (by simp [found, right])] at second
                rcases Int.lt_trichotomy m k with less | rfl | more
                · exact absurd ⟨[], z, x, y, k, m, Follows.head, Follows.head, Follows.head, right,
                    left, found, less, first, second⟩ middle
                · exact absurd ⟨[], x, z, m, Follows.head, Follows.head, left, right⟩ apart
                · omega
              | some n =>
                rw [compareFields_numbers (numbers_eq_some.mpr ⟨rfl, left, found⟩)] at first
                rw [compareFields_numbers (numbers_eq_some.mpr ⟨rfl, found, right⟩)] at second
                omega

/-! ## Directories of a project -/

/-- A name of a directory of a project: that of the project itself, which the main directory has, or
one behind it. The names that are accepted now are some of these. -/
@[ext]
structure DirName {chars : CharClasses} (copr : NamedCopr chars) where
  /-- `name`. -/
  name : String
  /-- How the name begins. -/
  ofProject : name = copr.name ∨ startswith name (copr.name ++ ":") = true
  deriving DecidableEq

namespace DirName

variable {chars : CharClasses} {copr : NamedCopr chars} {d e : DirName copr}

/-- The main directory. -/
def main (copr : NamedCopr chars) : DirName copr := ⟨copr.name, .inl rfl⟩

/-- A name that is accepted. -/
def ofAccepted {name : String} (accepted : Accepted chars copr.name name) : DirName copr :=
  ⟨name, .inr accepted.spec.1⟩

/-- The fields of a name. -/
def fields (d : DirName copr) : List (List Char) := split d.name ':'

/-- `_compare_dir_pairs` of two directories. -/
def compare (lib : DirLibrary) (d e : DirName copr) : Int := lib.compareDirPairs d.name e.name

/-- The directories of a project are ordered: the comparator is antisymmetric, also for a directory
and itself if these are compared, transitive and tells different names apart, so that sorting
gives one list. -/
structure Ordered (lib : DirLibrary) (names : Set (DirName copr)) (withItself : Bool) : Prop where
  /-- Different directories. -/
  orders : Orders (compare lib) names
  /-- A directory and itself. -/
  self : withItself = true → ∀ d ∈ names, (compare lib d d).sign = -(compare lib d d).sign
  /-- Sorting. -/
  listing : ∀ l l' : List (DirName copr), l.Perm l' → (∀ d ∈ l, d ∈ names) →
    sorted (compare lib) l = sorted (compare lib) l'

/-- No two names go on with the same number behind `pr`. -/
def Apart (lib : DirLibrary) (names : Set (DirName copr)) : Prop :=
  ∀ d ∈ names, ∀ e ∈ names, d ≠ e → ¬ lib.SameNumber false d.fields e.fields

/-- No name goes on behind `pr` with a field that falls between the numbers of two others. -/
def Unmixed (lib : DirLibrary) (names : Set (DirName copr)) : Prop :=
  ∀ d ∈ names, ∀ e ∈ names, ∀ f ∈ names, ¬ lib.Between false d.fields e.fields f.fields

/-- The main directory is the one without a colon in its name. -/
theorem colon_iff : ':' ∈ d.name.toList ↔ d ≠ main copr := by
  constructor
  · rintro inside rfl
    exact copr.name_colon inside
  · intro other
    rcases d.ofProject with same | starts
    · exact absurd (DirName.ext same) other
    · obtain ⟨rest, same⟩ := startswith_iff.mp starts
      rw [same, String.toList_append]
      exact List.mem_append_left _ (List.mem_append_right _ (by decide))

/-- The fields tell the name. -/
theorem fields_inj (same : d.fields = e.fields) : d = e := by
  have whole : ∀ d : DirName copr, [':'].intercalate d.fields = d.name.toList :=
    fun _ => List.intercalate_splitOn ':'
  refine DirName.ext (String.toList_inj.mp ?_)
  rw [← whole d, ← whole e, same]

/-- The main directory has one field, so none behind `pr`. -/
theorem not_follows_main {front : List (List Char)} {field : List Char} :
    ¬ Follows false front field (main copr).fields := by
  rintro ⟨behind, beginning⟩
  rw [fields, main, split, List.splitOn_eq_singleton copr.name_colon] at beginning
  have short := beginning.length_le
  rw [List.length_append, List.length_singleton, List.length_singleton] at short
  obtain rfl := List.length_eq_zero_iff.mp (show front.length = 0 by omega)
  contradiction

variable {lib : DirLibrary} {names : Set (DirName copr)} {withItself : Bool}

/-- The main directory comes first. -/
theorem compare_main (d : DirName copr) : compare lib (main copr) d = -1 :=
  if_pos copr.name_colon

/-- Every other directory comes behind the main one. -/
theorem compare_other_main (other : d ≠ main copr) : compare lib d (main copr) = 1 := by
  rw [compare, DirLibrary.compareDirPairs, if_neg (not_not_intro (colon_iff.mpr other))]
  exact if_pos copr.name_colon

/-- Other directories are compared by their fields. -/
theorem compare_fields (left : d ≠ main copr) (right : e ≠ main copr) :
    compare lib d e = lib.compareFields false d.fields e.fields := by
  rw [compare, DirLibrary.compareDirPairs, if_neg (not_not_intro (colon_iff.mpr left)),
    if_neg (not_not_intro (colon_iff.mpr right))]
  rfl

/-- Only the main directory does not compare as equal to itself. -/
theorem compare_self_iff : (compare lib d d).sign = -(compare lib d d).sign ↔ d ≠ main copr := by
  by_cases same : d = main copr
  · subst same
    rw [compare_main]
    exact iff_of_false (by decide) (not_not_intro rfl)
  · rw [compare_fields same same, compareFields_self]
    exact iff_of_true rfl same

/-- The names are ordered when no two have the same number behind `pr` and no field falls between
two numbers. -/
theorem orders_of (apart : Apart lib names) (unmixed : Unmixed lib names) :
    Orders (compare lib) names := by
  refine ⟨fun d _ e _ differ => ?_, fun d here e there f last first second => ?_,
    fun d here e there same => ?_⟩
  · by_cases left : d = main copr
    · subst left
      rw [compare_main, compare_other_main (Ne.symm differ)]
      rfl
    · by_cases right : e = main copr
      · subst right
        rw [compare_main, compare_other_main left]
        rfl
      · rw [compare_fields left right, compare_fields right left]
        exact compareFields_swap lib _ _ _
  · by_cases left : d = main copr
    · subst left
      rw [compare_main]
      decide
    · by_cases middle : e = main copr
      · subst middle
        rw [compare_other_main left] at first
        contradiction
      · by_cases right : f = main copr
        · subst right
          rw [compare_other_main middle] at second
          contradiction
        · rw [compare_fields left middle] at first
          rw [compare_fields middle right] at second
          rw [compare_fields left right]
          have differ : d ≠ f := by
            rintro rfl
            have signs := compareFields_swap lib false d.fields e.fields
            rw [Int.sign_eq_neg_one_of_neg first, Int.sign_eq_neg_one_of_neg second] at signs
            contradiction
          exact compareFields_trans false _ _ _ first second (apart d here f last differ)
            (unmixed d here e there f last) (unmixed f last d here e there)
            (unmixed e there f last d here)
  · by_cases left : d = main copr
    · subst left
      rw [compare_main] at same
      contradiction
    · by_cases right : e = main copr
      · subst right
        rw [compare_other_main left] at same
        contradiction
      · rw [compare_fields left right] at same
        by_contra differ
        rcases compareFields_eq_zero same with equal | number
        · exact differ (fields_inj equal)
        · exact apart d here e there differ number

/-- A directory does not come behind itself. -/
theorem compare_self_le (d : DirName copr) : compare lib d d ≤ 0 := by
  by_cases same : d = main copr
  · subst same
    rw [compare_main]
    decide
  · rw [compare_fields same same, compareFields_self]

/-- Ordered names do not have the same number behind `pr`. -/
theorem apart_of (orders : Orders (compare lib) names) : Apart lib names := by
  intro d here e there differ number
  have left : d ≠ main copr := by
    rintro rfl
    obtain ⟨front, x, y, n, follows, -⟩ := number
    exact not_follows_main follows
  have right : e ≠ main copr := by
    rintro rfl
    obtain ⟨front, x, y, n, -, follows, -⟩ := number
    exact not_follows_main follows
  refine differ (orders.distinct d here e there ?_)
  rw [compare_fields left right]
  exact compareFields_of_sameNumber number

/-- Ordered names have no field between two numbers. -/
theorem unmixed_of (orders : Orders (compare lib) names) : Unmixed lib names := by
  intro d here e there f last between
  have apart := apart_of orders
  obtain ⟨front, x, y, z, m, n, one, two, three, larger, smaller, text, less, -⟩ := id between
  have mains : ∀ {g : DirName copr} {w}, Follows false front w g.fields → g ≠ main copr := by
    rintro g w follows rfl
    exact not_follows_main follows
  -- The fields behind `pr` tell the three names apart.
  have different : ∀ {g h : DirName copr} {v w}, Follows false front v g.fields →
      Follows false front w h.fields → v ≠ w → g ≠ h := by
    rintro g h v w ⟨-, left⟩ ⟨-, right⟩ differ rfl
    have same := List.prefix_of_prefix_length_le left right (by simp)
    exact differ (List.singleton_inj.mp ((List.append_right_inj front).mp (same.eq_of_length
      (by simp))))
  have xy : x ≠ y := by
    rintro rfl
    rw [larger] at smaller
    exact less.ne' (Option.some.inj smaller)
  have yz : y ≠ z := by
    rintro rfl
    rw [smaller] at text
    contradiction
  have zx : z ≠ x := by
    rintro rfl
    rw [text] at larger
    contradiction
  obtain ⟨first, second, third⟩ := circle_of_between between
    (apart d here e there (different one two xy)) (apart e there f last (different two three yz))
    (apart f last d here (different three one zx))
  rw [← compare_fields (mains one) (mains two)] at first
  rw [← compare_fields (mains two) (mains three)] at second
  rw [← compare_fields (mains three) (mains one)] at third
  have forward := orders.trans d here e there f last first second
  have signs := orders.antisymm d here f last (different three one zx).symm
  rw [Int.sign_eq_neg_one_of_neg forward, Int.sign_eq_neg_one_of_neg third] at signs
  contradiction

/-- The directories of a project are ordered exactly when no two names go on with the same number
behind `pr`, no name goes on there with a field that falls between two numbers in the
opposite order, and the main directory is not compared with itself. -/
theorem ordered_iff (lib : DirLibrary) (names : Set (DirName copr)) (withItself : Bool) :
    Ordered lib names withItself ↔
      Apart lib names ∧ Unmixed lib names ∧ (withItself = true → main copr ∉ names) := by
  constructor
  · intro ordered
    refine ⟨apart_of ordered.orders, unmixed_of ordered.orders, fun compared member => ?_⟩
    exact compare_self_iff.mp (ordered.self compared _ member) rfl
  · rintro ⟨apart, unmixed, others⟩
    have orders := orders_of apart unmixed
    refine ⟨orders, fun compared d member => compare_self_iff.mpr ?_, fun l l' perm inside => ?_⟩
    · rintro rfl
      exact others compared member
    · exact orders.sorted_eq (fun d _ => compare_self_le d) perm inside

end DirName

/-! ## The listing of a project -/

/-- The configuration with `_compare_dir_pairs` as the order. -/
def DirLibrary.config (lib : DirLibrary) (keepPrDirsDays : Nat) : DirConfig where
  keepPrDirsDays := keepPrDirsDays
  precedes name other := decide (lib.compareDirPairs name other ≤ 0)

variable {chars : CharClasses} {copr : NamedCopr chars}

/-- Every directory of a project has a name of one. -/
theorem CoprDir.ofProject {d : CoprDir chars} (own : d.copr = copr) :
    d.name = copr.name ∨ startswith d.name (copr.name ++ ":") = true := by
  have created := d.created
  rw [own] at created
  split at created
  · exact Or.inl created
  · exact Or.inr created.spec.1

/-- The name of a directory of a project. -/
def CoprDir.dirName (copr : NamedCopr chars) (d : CoprDir chars) : DirName copr :=
  if own : d.copr = copr then ⟨d.name, ofProject own⟩ else .main copr

/-- The names of the directories of a project. -/
def DirDatabase.dirNames (db : DirDatabase chars) (copr : NamedCopr chars) : Set (DirName copr) :=
  {n | ∃ d ∈ db.dirs.rows, d.copr = copr ∧ d.dirName copr = n}

/-- The listing of a project does not depend on the order of the rows when its directories are
ordered. -/
theorem DirDatabase.listing_eq (lib : DirLibrary) (keepPrDirsDays : Nat) (now : Int)
    {db db' : DirDatabase chars} (rows : db.dirs.rows.Perm db'.dirs.rows)
    (builds : db.builds = db'.builds)
    (own : ∀ d ∈ db.dirs.rows, d.copr.id = copr.id → d.copr = copr)
    (apart : DirName.Apart lib (db.dirNames copr))
    (unmixed : DirName.Unmixed lib (db.dirNames copr)) :
    db.getAllWithLatestSubmittedBuild (lib.config keepPrDirsDays) now copr.id =
      db'.getAllWithLatestSubmittedBuild (lib.config keepPrDirsDays) now copr.id := by
  let inProject : Set (CoprDir chars) := {d | d ∈ db.dirs.rows ∧ d.copr = copr}
  have named : ∀ d : CoprDir chars, d.copr = copr → (d.dirName copr).name = d.name := by
    intro d same
    rw [CoprDir.dirName, dif_pos same]
  have orders : Orders (fun d e : CoprDir chars => DirName.compare lib (d.dirName copr)
      (e.dirName copr)) inProject := by
    refine (DirName.orders_of apart unmixed).comap (CoprDir.dirName copr)
      (fun d member => ⟨d, member.1, member.2, rfl⟩) fun d here e there same => ?_
    refine Tables.Table.eq_of_key here.1 there.1 ?_
    rw [CoprDir.key, CoprDir.key, here.2, there.2, ← named d here.2, ← named e there.2, same]
  have inside : ∀ d ∈ db.dirs.rows.filter (fun d => decide (d.copr.id = copr.id)),
      d ∈ inProject := by
    intro d member
    obtain ⟨listed, same⟩ := List.mem_filter.mp member
    exact ⟨listed, own d listed (of_decide_eq_true same)⟩
  have sort := orders.sorted_eq (fun d _ => DirName.compare_self_le _)
    (rows.filter fun d => decide (d.copr.id = copr.id)) inside
  have order : ∀ l : List (CoprDir chars), (∀ d ∈ l, d ∈ inProject) →
      l.insertionSort (fun d e => (lib.config keepPrDirsDays).precedes d.name e.name = true) =
        sorted (fun d e => DirName.compare lib (d.dirName copr) (e.dirName copr)) l := by
    intro l within
    refine insertionSort_eq_sorted _ fun d here e there => ?_
    rw [DirName.compare, named d (within d here).2, named e (within e there).2]
    exact decide_eq_true_iff
  have inside' : ∀ d ∈ db'.dirs.rows.filter (fun d => decide (d.copr.id = copr.id)),
      d ∈ inProject := by
    intro d member
    exact inside d ((rows.filter _).mem_iff.mpr member)
  have infos : db.dirInfo (lib.config keepPrDirsDays) now =
      db'.dirInfo (lib.config keepPrDirsDays) now := by
    funext d
    rw [dirInfo, dirInfo, latestBuildSubmittedOn, latestBuildSubmittedOn, builds]
  rw [getAllWithLatestSubmittedBuild, getAllWithLatestSubmittedBuild, order _ inside,
    order _ inside', sort, infos]

namespace DirName

/-! ## Samples -/

/-- The order of code points, as in the locale `C`. -/
def codePoints : List Char → List Char → Int
  | [], [] => 0
  | [], _ :: _ => -1
  | _ :: _, [] => 1
  | c :: a, d :: b =>
    if c.toNat < d.toNat then -1 else if d.toNat < c.toNat then 1 else codePoints a b

/-- Two texts compare as equal only if they are the same. -/
theorem codePoints_zero (a b : List Char) : codePoints a b = 0 ↔ a = b := by
  induction a generalizing b with
  | nil => cases b <;> simp [codePoints]
  | cons c a ih =>
    cases b with
    | nil => simp [codePoints]
    | cons d b =>
      rw [codePoints, List.cons.injEq]
      split
      · rename_i less
        refine iff_of_false (by decide) fun same => ?_
        rw [same.1] at less
        exact Nat.lt_irrefl _ less
      · split
        · rename_i more
          refine iff_of_false (by decide) fun same => ?_
          rw [same.1] at more
          exact Nat.lt_irrefl _ more
        · have same : c = d := Char.toNat_inj.mp (by omega)
          rw [ih]
          exact (and_iff_right same).symm

/-- Comparing two texts the other way round changes the sign. -/
theorem codePoints_swap (a b : List Char) : (codePoints a b).sign = -(codePoints b a).sign := by
  induction a generalizing b with
  | nil => cases b <;> rfl
  | cons c a ih =>
    cases b with
    | nil => rfl
    | cons d b =>
      rw [codePoints, codePoints]
      rcases Nat.lt_trichotomy c.toNat d.toNat with less | same | more
      · rw [if_pos less, if_neg (by omega), if_pos less]
        rfl
      · rw [if_neg (by omega), if_neg (by omega), if_neg (by omega), if_neg (by omega)]
        exact ih b
      · rw [if_neg (by omega), if_pos more, if_pos more]
        rfl

/-- A text that comes before one that comes before a third comes before the third. -/
theorem codePoints_trans (a b c : List Char) (one : codePoints a b < 0) (two : codePoints b c < 0) :
    codePoints a c < 0 := by
  induction a generalizing b c with
  | nil =>
    cases c with
    | nil => cases b <;> simp [codePoints] at one two
    | cons z c => exact show (-1 : Int) < 0 by decide
  | cons x a ih =>
    cases b with
    | nil => simp [codePoints] at one
    | cons y b =>
      cases c with
      | nil => simp [codePoints] at two
      | cons z c =>
        rw [codePoints] at one two ⊢
        split at one
        · split at two
          · rw [if_pos (by omega)]
            decide
          · split at two
            · contradiction
            · rw [if_pos (by omega)]
              decide
        · split at one
          · contradiction
          · split at two
            · rw [if_pos (by omega)]
              decide
            · split at two
              · contradiction
              · rw [if_neg (by omega), if_neg (by omega)]
                exact ih b c one two

/-- A number of digits of ASCII; the samples have no signs, blanks or underscores. -/
def digits (text : List Char) : Option Int :=
  if text ≠ [] ∧ text.all Char.isDigit then
    some (text.foldl (fun n c => 10 * n + (c.toNat - 48)) 0)
  else none

/-- The locale `C`. -/
def sampleLibrary : DirLibrary where
  strcoll := codePoints
  int := digits
  strcoll_zero := codePoints_zero
  strcoll_swap := codePoints_swap
  strcoll_trans := codePoints_trans

/-- A project. -/
def sampleCopr : NamedCopr .ascii := ⟨1, "ann", "hi", by decide, by decide⟩

/-- Names of directories that are accepted. -/
def sampleName (suffix : String)
    (accepted : Accepted .ascii sampleCopr.name ("hi:pr:" ++ suffix)) : DirName sampleCopr :=
  ofAccepted accepted

/-- Two pull requests, and one that is no number. -/
def sampleNames : List (DirName sampleCopr) :=
  [sampleName "2" (by decide), sampleName "1" (by decide), sampleName "1-5" (by decide)]

/-- The three names are in a circle. -/
theorem pull_requests_circle :
    ¬ Ordered sampleLibrary {d : DirName sampleCopr | d ∈ sampleNames} false := by
  intro ordered
  have circle := ordered.orders.trans (sampleName "2" (by decide)) (by decide)
    (sampleName "1" (by decide)) (by decide) (sampleName "1-5" (by decide)) (by decide)
    (by decide) (by decide)
  revert circle
  decide

end DirName

end Copr
