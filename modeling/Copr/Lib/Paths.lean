import Copr.Lib.Text

/-!
# Paths and their names

Lexical normalization of slash-separated paths, as `posixpath.normpath` does it, and the names
that a path is made of afterwards. A normalized path lies below another one exactly if the names
of the other one are the first of its names; for the texts this is a test for a prefix that ends
with a slash.
-/

namespace Copr.Paths

/-- A name between slashes. -/
abbrev Name := List Char

/-- The loop of `normpath` over the components, with the names that it has kept so far. -/
def collapse (absolute : Bool) : List Name → List Name → List Name
  | kept, [] => kept
  | kept, comp :: rest =>
    if comp = [] ∨ comp = ['.'] then collapse absolute kept rest
    else if comp ≠ ['.', '.'] ∨ (absolute = false ∧ kept = []) ∨
        kept.getLast? = some ['.', '.'] then
      collapse absolute (kept ++ [comp]) rest
    else collapse absolute kept.dropLast rest

/-- A path starts with a slash. -/
def isAbsolute (path : List Char) : Bool := path.head? = some '/'

/-- The names of a path after normalization. -/
def names (path : List Char) : List Name := collapse (isAbsolute path) [] (path.splitOn '/')

/-- `'/'.join(names)`. -/
def join : List Name → List Char
  | [] => []
  | [name] => name
  | name :: second :: rest => name ++ '/' :: join (second :: rest)

/-- The slashes that `normpath` leaves in front: two stay two, more become one. -/
def initialSlashes : List Char → List Char
  | '/' :: '/' :: '/' :: _ => ['/']
  | '/' :: '/' :: _ => ['/', '/']
  | '/' :: _ => ['/']
  | _ => []

/-- `posixpath.normpath`. -/
def normpath (path : List Char) : List Char :=
  let result := initialSlashes path ++ join (names path)
  if result = [] then ['.'] else result

/-- `path.strip('/')`. -/
def strip (path : List Char) : List Char :=
  let front := path.dropWhile (· = '/')
  (front.reverse.dropWhile (· = '/')).reverse

/-- A name that can stand between slashes. -/
def Solid (name : Name) : Prop := name ≠ [] ∧ '/' ∉ name

/-- The names of one path continue those of another. -/
def Below (s p : List Name) : Prop := s <+: p ∧ s ≠ p

instance (s p : List Name) : Decidable (Below s p) := inferInstanceAs (Decidable (_ ∧ _))

/-! ## Names -/

/-- What the loop keeps was there or is one of the components. -/
theorem mem_collapse {absolute : Bool} {kept comps : List Name} {name : Name}
    (member : name ∈ collapse absolute kept comps) :
    name ∈ kept ∨ (name ∈ comps ∧ name ≠ [] ∧ name ≠ ['.']) := by
  induction comps generalizing kept with
  | nil => exact Or.inl member
  | cons comp rest ih =>
    have later : ∀ {p : Prop}, (p ∨ name ∈ rest ∧ name ≠ [] ∧ name ≠ ['.']) →
        p ∨ name ∈ comp :: rest ∧ name ≠ [] ∧ name ≠ ['.'] :=
      fun found => found.imp_right fun h => ⟨List.mem_cons_of_mem _ h.1, h.2⟩
    rw [collapse] at member
    split at member
    · exact later (ih member)
    · rename_i proper
      rw [not_or] at proper
      split at member
      · rcases ih member with there | found
        · rcases List.mem_append.mp there with there | new
          · exact Or.inl there
          · obtain rfl := List.mem_singleton.mp new
            exact Or.inr ⟨List.mem_cons_self, proper⟩
        · exact later (Or.inr found)
      · exact later ((ih member).imp_left List.mem_of_mem_dropLast)

/-- The names of a path are solid, and none of them is the dot. -/
theorem solid_of_mem_names {path : List Char} {name : Name} (member : name ∈ names path) :
    Solid name ∧ name ≠ ['.'] := by
  rcases mem_collapse member with there | ⟨listed, nonempty, nodot⟩
  · contradiction
  · exact ⟨⟨nonempty, Text.not_mem_piece listed⟩, nodot⟩

/-- A joined list of solid names is not empty, and neither starts nor ends with a slash. -/
theorem join_ends {l : List Name} (solid : ∀ name ∈ l, Solid name) (some_name : l ≠ []) :
    join l ≠ [] ∧ (join l).head? ≠ some '/' ∧ (join l).getLast? ≠ some '/' := by
  induction l with
  | nil => contradiction
  | cons name rest ih =>
    obtain ⟨nonempty, noslash⟩ := solid name List.mem_cons_self
    obtain ⟨c, more, rfl⟩ := List.exists_cons_of_ne_nil nonempty
    have first : c ≠ '/' := fun same => noslash (same ▸ List.mem_cons_self)
    cases rest with
    | nil =>
      refine ⟨nonempty, by simpa [join] using first, ?_⟩
      intro last
      exact noslash (List.mem_of_getLast? last)
    | cons second others =>
      obtain ⟨full, -, last⟩ := ih (fun name member => solid name (List.mem_cons_of_mem _ member))
        (List.cons_ne_nil _ _)
      refine ⟨by simp [join], by simpa [join] using first, ?_⟩
      rw [join, List.getLast?_append, List.getLast?_cons_of_ne_nil full]
      cases ending : (join (second :: others)).getLast? with
      | none => exact absurd (List.getLast?_eq_none_iff.mp ending) full
      | some d => simpa [ending] using last

/-- Nothing is stripped from a text that neither starts nor ends with a slash, and slashes in
front of it are. -/
theorem strip_append {slashes text : List Char} (front : ∀ c ∈ slashes, c = '/')
    (first : text.head? ≠ some '/') (last : text.getLast? ≠ some '/') :
    strip (slashes ++ text) = text := by
  have kept : ∀ l : List Char, l.head? ≠ some '/' →
      l.dropWhile (fun c => decide (c = '/')) = l := by
    intro l head
    cases l with
    | nil => rfl
    | cons c rest => exact List.dropWhile_cons_of_neg (by simpa using head)
  have dropped : (slashes ++ text).dropWhile (fun c => decide (c = '/')) = text := by
    rw [List.dropWhile_append_of_pos (by simpa using front)]
    exact kept text first
  have backwards : text.reverse.dropWhile (fun c => decide (c = '/')) = text.reverse :=
    kept _ (by rwa [List.head?_reverse])
  rw [strip, dropped, backwards, List.reverse_reverse]

/-- The slashes that are kept in front. -/
theorem mem_initialSlashes {path : List Char} {c : Char} (member : c ∈ initialSlashes path) :
    c = '/' := by
  unfold initialSlashes at member
  split at member <;> simp at member <;> exact member

/-- Only an absolute path keeps slashes in front. -/
theorem initialSlashes_eq_nil {path : List Char} :
    initialSlashes path = [] ↔ isAbsolute path = false := by
  unfold initialSlashes isAbsolute
  split
  · simp
  · simp
  · simp
  · rename_i other
    cases path with
    | nil => simp
    | cons c rest =>
      have differ : c ≠ '/' := fun same => other rest (same ▸ rfl)
      simp [differ]

/-- A normalized and stripped path: its names joined, or the dot for the relative path without
names. -/
theorem strip_normpath (path : List Char) :
    strip (normpath path) =
      if names path = [] ∧ isAbsolute path = false then ['.'] else join (names path) := by
  have front : ∀ c ∈ initialSlashes path, c = '/' := fun c => mem_initialSlashes
  by_cases nothing : names path = []
  · by_cases relative : isAbsolute path = false
    · have slashes := initialSlashes_eq_nil.mpr relative
      rw [if_pos ⟨nothing, relative⟩, normpath, nothing, slashes]
      rfl
    · have slashes : initialSlashes path ≠ [] := mt initialSlashes_eq_nil.mp relative
      have full : normpath path = initialSlashes path ++ [] := by
        rw [normpath, nothing]
        exact if_neg (by simpa [join] using slashes)
      rw [if_neg (fun both => relative both.2), full, nothing]
      exact strip_append front (by simp) (by simp)
  · obtain ⟨some_char, first, last⟩ := join_ends
      (fun name member => (solid_of_mem_names member).1) nothing
    have full : normpath path = initialSlashes path ++ join (names path) :=
      if_neg (by simp [some_char])
    rw [if_neg (fun both => nothing both.1), full]
    exact strip_append front first last

/-- Only the relative path without names becomes the dot. -/
theorem strip_normpath_eq_dot {path : List Char} :
    strip (normpath path) = ['.'] ↔ names path = [] ∧ isAbsolute path = false := by
  rw [strip_normpath]
  split
  · rename_i root
    exact iff_of_true rfl root
  · rename_i proper
    refine iff_of_false ?_ proper
    have solid : ∀ name ∈ names path, Solid name ∧ name ≠ ['.'] :=
      fun name => solid_of_mem_names
    intro same
    match names path, solid, same with
    | [name], solid, same => exact (solid name List.mem_cons_self).2 same
    | name :: second :: rest, _, same =>
      have slash : '/' ∈ join (name :: second :: rest) := by simp [join]
      rw [same] at slash
      exact absurd slash (by decide)

/-! ## Prefixes of joined names -/

/-- The text of some names and a slash is in front of the text of other names exactly if the
latter lie below. -/
theorem join_slash_prefix_iff {s p : List Name} (solidS : ∀ name ∈ s, Solid name)
    (solidP : ∀ name ∈ p, Solid name) (some_name : s ≠ []) :
    join s ++ ['/'] <+: join p ↔ Below s p := by
  induction s generalizing p with
  | nil => contradiction
  | cons name rest ih =>
    obtain ⟨-, noslash⟩ := solidS name List.mem_cons_self
    cases p with
    | nil => simp [join, Below]
    | cons other others =>
      obtain ⟨-, noslash'⟩ := solidP other List.mem_cons_self
      have heads : ∀ {l r : List Char}, name ++ '/' :: l <+: other ++ '/' :: r ↔
          name = other ∧ l <+: r := by
        intro l r
        constructor
        · rintro ⟨more, same⟩
          rw [List.append_assoc, List.cons_append] at same
          obtain ⟨rfl, rfl⟩ := Text.around_separator noslash noslash' same
          exact ⟨rfl, List.prefix_append _ _⟩
        · rintro ⟨rfl, more, rfl⟩
          exact ⟨more, by simp⟩
      have never : ∀ l : List Char, ¬ name ++ '/' :: l <+: other := by
        rintro l ⟨more, same⟩
        refine noslash' (same ▸ ?_)
        simp
      cases rest with
      | nil =>
        cases others with
        | nil =>
          have equal : [name] <+: [other] → [name] = [other] := by simp
          exact iff_of_false (never []) fun below => below.2 (equal below.1)
        | cons second more =>
          refine heads.trans ?_
          simp [Below]
      | cons second more =>
        have rest_text : join (name :: second :: more) ++ ['/'] =
            name ++ '/' :: (join (second :: more) ++ ['/']) := by simp [join]
        rw [rest_text]
        cases others with
        | nil => exact iff_of_false (never _) (by simp [Below])
        | cons third further =>
          have below : Below (name :: second :: more) (other :: third :: further) ↔
              name = other ∧ Below (second :: more) (third :: further) := by
            unfold Below
            rw [List.cons_prefix_cons, and_assoc]
            refine and_congr_right fun same => ?_
            simp [same]
          rw [below, ← ih (fun n member => solidS n (List.mem_cons_of_mem _ member))
            (fun n member => solidP n (List.mem_cons_of_mem _ member)) (List.cons_ne_nil _ _)]
          exact heads

end Copr.Paths
