import Mathlib.Data.List.Nodup

/-!
# Tables with a key

The rows of a table have different keys. Rows are changed in place, which keeps their keys, and
added under new keys. What a table has under a key afterwards is known from what it had there.
-/

namespace Copr.Tables

variable {α κ : Type*} {key : α → κ}

/-- A table: no two rows have the same key. -/
structure Table (key : α → κ) where
  /-- The rows. -/
  rows : List α
  /-- The key is unique. -/
  distinct : (rows.map key).Nodup

namespace Table

/-- A table without rows. -/
def empty : Table key where
  rows := []
  distinct := List.nodup_nil

/-- Some rows are changed. -/
def update (t : Table key) (selected : α → Bool) (change : α → α)
    (keeps : ∀ a, key (change a) = key a) : Table key where
  rows := t.rows.map fun a => if selected a then change a else a
  distinct := by
    have same : (t.rows.map fun a => if selected a then change a else a).map key =
        t.rows.map key := by
      rw [List.map_map]
      refine List.map_congr_left fun a _ => ?_
      simp only [Function.comp_apply]
      split
      · exact keeps a
      · rfl
    rw [same]
    exact t.distinct

/-- Some rows are removed. -/
def remove (t : Table key) (selected : α → Bool) : Table key where
  rows := t.rows.filter fun a => !selected a
  distinct := t.distinct.sublist (List.filter_sublist.map key)

variable {t : Table key} {a b : α} {k : κ}

/-- The rows after some were removed. -/
theorem mem_remove {selected : α → Bool} :
    a ∈ (t.remove selected).rows ↔ a ∈ t.rows ∧ selected a = false := by
  simp [remove]

/-- A row is known by its key. -/
theorem eq_of_key (here : a ∈ t.rows) (there : b ∈ t.rows) (same : key a = key b) : a = b :=
  List.inj_on_of_nodup_map t.distinct here there same

/-- The rows after some were changed. -/
theorem mem_update {selected : α → Bool} {change : α → α} {keeps : ∀ a, key (change a) = key a} :
    b ∈ (t.update selected change keeps).rows ↔
      ∃ a ∈ t.rows, (if selected a then change a else a) = b := by
  simp [update]

variable [DecidableEq κ]

/-- A row is added, unless there is one with its key. -/
def insert (t : Table key) (a : α) : Table key :=
  if fresh : key a ∈ t.rows.map key then t
  else
    { rows := t.rows ++ [a]
      distinct := by
        rw [List.map_append]
        refine List.nodup_append.mpr
          ⟨t.distinct, List.nodup_singleton _, fun k listed l single => ?_⟩
        obtain rfl := List.mem_singleton.mp single
        exact fun same => fresh (same ▸ listed) }

/-- The row with a key. -/
def find (t : Table key) (k : κ) : Option α := t.rows.find? fun a => decide (key a = k)

/-- What is found is the row with the key. -/
theorem find_eq_some : t.find k = some a ↔ a ∈ t.rows ∧ key a = k := by
  constructor
  · intro found
    exact ⟨List.mem_of_find?_eq_some found, by simpa using List.find?_some found⟩
  · rintro ⟨member, rfl⟩
    obtain ⟨b, found⟩ := Option.isSome_iff_exists.mp
      (List.find?_isSome.mpr ⟨a, member, decide_eq_true rfl⟩ :
        (t.rows.find? fun b => decide (key b = key a)).isSome = true)
    have same : key b = key a := by simpa using List.find?_some found
    rw [find, found, eq_of_key (List.mem_of_find?_eq_some found) member same]

/-- A row is found under its key. -/
theorem find_of_mem (member : a ∈ t.rows) : t.find (key a) = some a :=
  find_eq_some.mpr ⟨member, rfl⟩

/-- Nothing is found when no row has the key. -/
theorem find_eq_none : t.find k = none ↔ ∀ a ∈ t.rows, key a ≠ k := by
  simp [find]

/-- What is under a key after rows with other keys were removed. -/
theorem find_remove {selected : α → Bool}
    (kept : ∀ a ∈ t.rows, key a = k → selected a = false) :
    (t.remove selected).find k = t.find k := by
  cases found : t.find k with
  | none =>
    rw [find_eq_none] at found ⊢
    intro a member
    exact found a (mem_remove.mp member).1
  | some a =>
    rw [find_eq_some] at found ⊢
    exact ⟨mem_remove.mpr ⟨found.1, kept a found.1 found.2⟩, found.2⟩

/-- What is under a key after some rows were changed. -/
@[simp] theorem find_update {selected : α → Bool} {change : α → α}
    {keeps : ∀ a, key (change a) = key a} :
    (t.update selected change keeps).find k =
      (t.find k).map fun a => if selected a then change a else a := by
  have same : ∀ a, key (if selected a then change a else a) = key a := by
    intro a
    split
    · exact keeps a
    · rfl
  simp only [find, update, List.find?_map, Function.comp_def, same]

/-- What is under a key after a row was added. -/
@[simp] theorem find_insert :
    (t.insert a).find k = (t.find k).or (if key a = k then some a else none) := by
  unfold insert
  split
  · rename_i listed
    cases found : t.find k with
    | some b => rfl
    | none =>
      obtain ⟨b, member, same⟩ := List.mem_map.mp listed
      have other := find_eq_none.mp found b member
      rw [if_neg fun equal => other (same.trans equal)]
      rfl
  · simp only [find, List.find?_append, List.find?_cons, List.find?_nil]
    by_cases same : key a = k
    · simp [same]
    · simp [same]

/-- The rows after one was added. -/
theorem mem_insert : b ∈ (t.insert a).rows ↔
    b ∈ t.rows ∨ b = a ∧ key a ∉ t.rows.map key := by
  unfold insert
  split
  · rename_i taken
    exact ⟨Or.inl, fun either => either.resolve_right fun both => both.2 taken⟩
  · rename_i fresh
    simp [fresh]

/-- Rows are added one after another. -/
def insertAll (t : Table key) (added : List α) : Table key := added.foldl insert t

/-- Nothing else is new after rows were added. -/
theorem mem_insertAll {added : List α} (member : b ∈ (t.insertAll added).rows) :
    b ∈ t.rows ∨ b ∈ added := by
  induction added generalizing t with
  | nil => exact Or.inl member
  | cons a rest ih =>
    have one : b ∈ (t.insert a).rows → b ∈ t.rows ∨ b = a := by
      unfold insert
      split
      · exact Or.inl
      · simp
    rcases ih member with before | later
    · rcases one before with listed | rfl
      · exact Or.inl listed
      · exact Or.inr List.mem_cons_self
    · exact Or.inr (List.mem_cons_of_mem _ later)

/-- What is under a key after rows were added. -/
@[simp] theorem find_insertAll {added : List α} :
    (t.insertAll added).find k = (t.find k).or (added.find? fun a => decide (key a = k)) := by
  induction added generalizing t with
  | nil => simp [insertAll]
  | cons a rest ih =>
    have next := @ih (t.insert a)
    rw [insertAll] at next ⊢
    rw [List.foldl_cons, next, find_insert, Option.or_assoc, List.find?_cons]
    by_cases same : key a = k
    · simp [same]
    · simp [same]

end Table

end Copr.Tables
