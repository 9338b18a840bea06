import Mathlib.Data.List.Chain
import Mathlib.Data.List.DropRight

/-!
# Words between separators

The words of a list are the non-empty pieces between separators. Squeezing makes one separator of
several in a row, trimming drops those at both ends. A list that is squeezed and trimmed is its
words with single separators between them, so it says exactly what the words are.
-/

namespace Copr.Tokens

variable {α : Type*} [BEq α] (sep : α)

/-- The non-empty pieces between separators. -/
def words (l : List α) : List (List α) := (l.splitOn sep).filter fun piece => !piece.isEmpty

/-- One separator instead of several in a row. -/
def squeeze : List α → List α
  | [] => []
  | [c] => [c]
  | c :: d :: rest => if c == sep && d == sep then squeeze (d :: rest) else c :: squeeze (d :: rest)

/-- Without the separators at both ends. -/
def trim (l : List α) : List α :=
  (l.rdropWhile fun c => c == sep).dropWhile fun c => c == sep

/-- Two lists begin with the same piece and have the same words behind it. -/
def Alike (l l' : List α) : Prop :=
  ∃ first rest rest', l.splitOn sep = first :: rest ∧ l'.splitOn sep = first :: rest' ∧
    rest.filter (fun piece => !piece.isEmpty) = rest'.filter fun piece => !piece.isEmpty

variable {sep} {l l' : List α}

/-- Lists that are alike have the same words. -/
theorem Alike.words_eq (alike : Alike sep l l') : words sep l = words sep l' := by
  obtain ⟨first, rest, rest', here, there, same⟩ := alike
  rw [words, words, here, there, List.filter_cons, List.filter_cons, same]

/-- Every list is like itself. -/
theorem Alike.refl (l : List α) : Alike sep l l := by
  obtain ⟨first, rest, pieces⟩ := List.exists_cons_of_ne_nil (List.splitOn_ne_nil sep l)
  exact ⟨first, rest, rest, pieces, pieces, rfl⟩

/-- Likeness goes both ways. -/
theorem Alike.symm (alike : Alike sep l l') : Alike sep l' l := by
  obtain ⟨first, rest, rest', here, there, same⟩ := alike
  exact ⟨first, rest', rest, there, here, same.symm⟩

/-- Lists that are like a third one are like each other. -/
theorem Alike.trans {l'' : List α} (one : Alike sep l l') (two : Alike sep l' l'') :
    Alike sep l l'' := by
  obtain ⟨first, rest, rest', here, there, same⟩ := one
  obtain ⟨first', more, more', again, last, equal⟩ := two
  rw [there] at again
  obtain ⟨rfl, rfl⟩ := List.cons.inj again
  exact ⟨first, rest, more', here, last, same.trans equal⟩

variable [LawfulBEq α]

omit [LawfulBEq α] in
/-- One element more in front. -/
theorem Alike.cons (alike : Alike sep l l') (c : α) : Alike sep (c :: l) (c :: l') := by
  have same := alike.words_eq
  obtain ⟨first, rest, rest', here, there, equal⟩ := alike
  unfold Alike
  simp only [List.splitOn_cons_eq_if_modifyHead]
  split
  · exact ⟨[], _, _, rfl, rfl, same⟩
  · rw [here, there]
    exact ⟨c :: first, rest, rest', rfl, rfl, equal⟩

/-- A separator in front makes no word. -/
theorem words_cons_sep (l : List α) : words sep (sep :: l) = words sep l := by
  rw [words, List.splitOn_cons_eq_if_modifyHead, if_pos (beq_self_eq_true sep)]
  rfl

/-- Two separators in front are like one. -/
theorem alike_sep_sep (l : List α) : Alike sep (sep :: sep :: l) (sep :: l) := by
  refine ⟨[], (sep :: l).splitOn sep, l.splitOn sep, ?_, ?_, words_cons_sep l⟩
  · rw [List.splitOn_cons_eq_if_modifyHead, if_pos (beq_self_eq_true sep)]
  · rw [List.splitOn_cons_eq_if_modifyHead, if_pos (beq_self_eq_true sep)]

/-- A separator at the end is like none. -/
theorem alike_concat_sep (l : List α) : Alike sep (l ++ [sep]) l := by
  induction l with
  | nil =>
    refine ⟨[], [[]], [], ?_, List.splitOn_nil sep, rfl⟩
    rw [List.nil_append, List.splitOn_cons_eq_if_modifyHead, if_pos (beq_self_eq_true sep),
      List.splitOn_nil]
  | cons c l ih => exact ih.cons c

/-- Squeezing changes nothing but separators. -/
theorem squeeze_alike (l : List α) : Alike sep (squeeze sep l) l := by
  induction l using squeeze.induct sep with
  | case1 => exact .refl []
  | case2 c => exact .refl [c]
  | case3 c d rest both ih =>
    obtain ⟨first, second⟩ := Bool.and_eq_true_iff.mp both
    obtain rfl := beq_iff_eq.mp first
    obtain rfl := beq_iff_eq.mp second
    rw [squeeze, if_pos both]
    exact ih.trans (alike_sep_sep rest).symm
  | case4 c d rest other ih =>
    rw [squeeze, if_neg other]
    exact ih.cons c

/-- Dropping separators at the end changes nothing else. -/
theorem rdropWhile_alike (l : List α) :
    Alike sep (l.rdropWhile fun c => c == sep) l := by
  induction l using List.reverseRecOn with
  | nil => exact .refl []
  | append_singleton l c ih =>
    rw [List.rdropWhile_concat]
    split
    · rename_i same
      obtain rfl := beq_iff_eq.mp same
      exact ih.trans (alike_concat_sep l).symm
    · exact .refl _

/-- Dropping separators in front keeps the words. -/
theorem words_dropWhile (l : List α) :
    words sep (l.dropWhile fun c => c == sep) = words sep l := by
  induction l with
  | nil => rfl
  | cons c l ih =>
    rw [List.dropWhile_cons]
    split
    · rename_i same
      obtain rfl := beq_iff_eq.mp same
      rw [ih, words_cons_sep]
    · rfl

/-- Neither squeezing nor trimming changes the words. -/
theorem words_trim_squeeze (l : List α) : words sep (trim sep (squeeze sep l)) = words sep l := by
  rw [trim, words_dropWhile, (rdropWhile_alike _).words_eq, (squeeze_alike l).words_eq]

omit [LawfulBEq α] in
/-- Squeezing separators puts nothing in. -/
theorem squeeze_sublist (l : List α) : (squeeze sep l).Sublist l := by
  induction l using squeeze.induct sep with
  | case1 => exact .slnil
  | case2 c => exact .refl [c]
  | case3 c d rest both ih =>
    rw [squeeze, if_pos both]
    exact ih.cons c
  | case4 c d rest other ih =>
    rw [squeeze, if_neg other]
    exact ih.cons_cons c

omit [LawfulBEq α] in
/-- Squeezing and trimming separators puts nothing in. -/
theorem trim_squeeze_sublist (l : List α) : (trim sep (squeeze sep l)).Sublist l :=
  (List.dropWhile_sublist _).trans
    ((List.rdropWhile_prefix _ _).sublist.trans (squeeze_sublist l))

/-! ## Squeezed and trimmed lists -/

/-- No two separators are next to each other. -/
def Squeezed (sep : α) (l : List α) : Prop := l.IsChain fun c d => ¬ (c = sep ∧ d = sep)

/-- Squeezing keeps the first element. -/
theorem head?_squeeze (l : List α) : (squeeze sep l).head? = l.head? := by
  induction l using squeeze.induct sep with
  | case1 => rfl
  | case2 c => rfl
  | case3 c d rest both ih =>
    obtain ⟨first, second⟩ := Bool.and_eq_true_iff.mp both
    obtain rfl := beq_iff_eq.mp first
    obtain rfl := beq_iff_eq.mp second
    rw [squeeze, if_pos both, ih]
    rfl
  | case4 c d rest other ih =>
    rw [squeeze, if_neg other]
    rfl

/-- Squeezing leaves no two separators next to each other. -/
theorem squeezed_squeeze (l : List α) : Squeezed sep (squeeze sep l) := by
  induction l using squeeze.induct sep with
  | case1 => exact .nil
  | case2 c => exact .singleton c
  | case3 c d rest both ih =>
    rw [squeeze, if_pos both]
    exact ih
  | case4 c d rest other ih =>
    rw [squeeze, if_neg other]
    refine List.isChain_cons.mpr ⟨fun e first both => other ?_, ih⟩
    obtain ⟨rfl, rfl⟩ := both
    rw [head?_squeeze] at first
    obtain rfl := Option.some.inj first
    simp

/-- In a squeezed list that does not end with a separator, only the first piece may be empty. -/
theorem pieces_of_squeezed (squeezed : Squeezed sep l) (ends : l.getLast? ≠ some sep) :
    ∃ first rest, l.splitOn sep = first :: rest ∧ (first = [] → l = [] ∨ l.head? = some sep) ∧
      ∀ piece ∈ rest, piece ≠ [] := by
  induction l with
  | nil => exact ⟨[], [], List.splitOn_nil sep, fun _ => .inl rfl, List.forall_mem_nil _⟩
  | cons c l ih =>
    obtain ⟨apart, later⟩ := List.isChain_cons.mp squeezed
    rw [List.getLast?_cons] at ends
    have laterEnds : l.getLast? ≠ some sep := fun last => ends (by rw [last]; rfl)
    obtain ⟨first, rest, pieces, empty, occupied⟩ := ih later laterEnds
    rw [List.splitOn_cons_eq_if_modifyHead, pieces]
    by_cases same : c = sep
    · subst same
      rw [if_pos (beq_self_eq_true c)]
      refine ⟨[], first :: rest, rfl, fun _ => .inr rfl, List.forall_mem_cons.mpr ⟨?_, occupied⟩⟩
      intro none_
      rcases empty none_ with rfl | again
      · exact ends rfl
      · exact apart c again ⟨rfl, rfl⟩
    · rw [if_neg fun equal => same (beq_iff_eq.mp equal)]
      exact ⟨c :: first, rest, rfl, nofun, occupied⟩

/-- A squeezed list without separators at its ends is its words with single separators between
them. -/
theorem eq_intercalate_words (squeezed : Squeezed sep l) (begins : l.head? ≠ some sep)
    (ends : l.getLast? ≠ some sep) : l = [sep].intercalate (words sep l) := by
  obtain ⟨first, rest, pieces, empty, occupied⟩ := pieces_of_squeezed squeezed ends
  by_cases none_ : first = []
  · rcases empty none_ with rfl | again
    · rfl
    · exact absurd again begins
  · have all : words sep l = l.splitOn sep := by
      refine List.filter_eq_self.mpr fun piece listed => ?_
      rw [pieces] at listed
      have solid : piece ≠ [] := by
        rcases List.mem_cons.mp listed with rfl | later
        · exact none_
        · exact occupied piece later
      simpa using solid
    rw [all, List.intercalate_splitOn]

/-- A squeezed and trimmed list is the words of the list before. -/
theorem trim_squeeze (l : List α) :
    trim sep (squeeze sep l) = [sep].intercalate (words sep l) := by
  have front : (squeeze sep l).rdropWhile (fun c => c == sep) <+: squeeze sep l :=
    List.rdropWhile_prefix _ _
  have back : trim sep (squeeze sep l) <:+
      (squeeze sep l).rdropWhile fun c => c == sep := List.dropWhile_suffix _
  rw [← words_trim_squeeze l]
  have kept : Squeezed sep (trim sep (squeeze sep l)) := by
    have squeezed := @squeezed_squeeze α _ sep _ l
    obtain ⟨ending, cut⟩ := front
    obtain ⟨beginning, cut'⟩ := back
    rw [← cut, ← cut'] at squeezed
    exact squeezed.left_of_append.right_of_append
  refine eq_intercalate_words kept ?_ ?_
  · intro first
    have other := List.head?_dropWhile_not (fun c => c == sep)
      ((squeeze sep l).rdropWhile fun c => c == sep)
    unfold trim at first
    rw [first] at other
    simp at other
  · intro last
    have occupied : trim sep (squeeze sep l) ≠ [] := fun none_ => by
      rw [none_] at last
      contradiction
    have inside : (squeeze sep l).rdropWhile (fun c => c == sep) ≠ [] := fun none_ =>
      occupied (List.suffix_nil.mp (none_ ▸ back))
    have other := List.rdropWhile_last_not _ _ inside
    rw [← back.getLast occupied] at other
    rw [List.getLast?_eq_some_getLast occupied] at last
    exact other (by rw [Option.some.inj last, beq_self_eq_true])

/-- Lists with the same words, and no others, are the same after squeezing and trimming. -/
theorem trim_squeeze_eq_iff :
    trim sep (squeeze sep l) = trim sep (squeeze sep l') ↔ words sep l = words sep l' := by
  constructor
  · intro same
    rw [← words_trim_squeeze l, same, words_trim_squeeze]
  · intro same
    rw [trim_squeeze, trim_squeeze, same]

/-! ## Separators of several kinds -/

/-- The non-empty pieces of elements that are kept. -/
def runs {α : Type*} (keep : α → Bool) (l : List α) : List (List α) :=
  (l.splitOnP fun c => !keep c).filter fun piece => !piece.isEmpty

/-- Writing one separator for every element that is not kept leaves the pieces that are. -/
theorem words_map {keep : α → Bool} {f : α → α} (kept : ∀ c, keep c = true → f c = c ∧ c ≠ sep)
    (replaced : ∀ c, keep c = false → f c = sep) (l : List α) :
    words sep (l.map f) = runs keep l := by
  have pieces : (l.map f).splitOn sep = l.splitOnP fun c => !keep c := by
    induction l with
    | nil => rfl
    | cons c l ih =>
      rw [List.map_cons, List.splitOn_cons_eq_if_modifyHead, List.splitOnP_cons_eq_if_modifyHead,
        ih]
      cases kind : keep c with
      | true =>
        obtain ⟨same, other⟩ := kept c kind
        rw [same, if_neg fun equal => other (beq_iff_eq.mp equal)]
        rfl
      | false =>
        rw [replaced c kind, if_pos (beq_self_eq_true sep)]
        rfl
  rw [words, pieces, runs]

/-- The elements of a run are kept. -/
theorem keep_of_mem_runs {α : Type*} {keep : α → Bool} {l run : List α} {c : α}
    (listed : run ∈ runs keep l) (member : c ∈ run) : keep c = true := by
  have piece : ∀ {l : List α} {run : List α}, run ∈ l.splitOnP (fun c => !keep c) →
      ∀ c ∈ run, keep c = true := by
    intro l
    induction l with
    | nil =>
      intro run listed c member
      obtain rfl := List.mem_singleton.mp listed
      contradiction
    | cons a l ih =>
      intro run listed c member
      rw [List.splitOnP_cons_eq_if_modifyHead] at listed
      split at listed
      · rcases List.mem_cons.mp listed with rfl | later
        · contradiction
        · exact ih later c member
      · rename_i kept
        obtain ⟨first, others, split⟩ := List.exists_cons_of_ne_nil
          (List.splitOnP_ne_nil (fun c => !keep c) l)
        rw [split, List.modifyHead_cons] at listed
        rw [split] at ih
        rcases List.mem_cons.mp listed with rfl | later
        · rcases List.mem_cons.mp member with rfl | inside
          · simpa using kept
          · exact ih List.mem_cons_self c inside
        · exact ih (List.mem_cons_of_mem _ later) c member
  exact piece (List.mem_of_mem_filter listed) c member

/-- The runs of a list are not empty. -/
theorem ne_nil_of_mem_runs {α : Type*} {keep : α → Bool} {l run : List α}
    (listed : run ∈ runs keep l) : run ≠ [] := by
  have occupied := (List.mem_filter.mp listed).2
  simpa using occupied

/-- Runs with a separator between them are found again. -/
theorem runs_intercalate {α : Type*} {keep : α → Bool} {sep : α} (dropped : keep sep = false)
    {ls : List (List α)} (kept : ∀ run ∈ ls, run ≠ [] ∧ ∀ c ∈ run, keep c = true) :
    runs keep ([sep].intercalate ls) = ls := by
  induction ls with
  | nil => rfl
  | cons run ls ih =>
    obtain ⟨occupied, inside⟩ := kept run List.mem_cons_self
    have none : ∀ c ∈ run, (!keep c) = false := fun c member => by rw [inside c member]; rfl
    have later := ih fun other member => kept other (List.mem_cons_of_mem run member)
    have first : (fun piece : List α => !piece.isEmpty) run = true := by simpa using occupied
    cases ls with
    | nil =>
      rw [List.intercalate_singleton, runs, List.splitOnP_eq_singleton none,
        List.filter_cons_of_pos (p := fun piece : List α => !piece.isEmpty) first]
      rfl
    | cons second others =>
      rw [List.intercalate_cons_cons, List.append_assoc, List.singleton_append, runs,
        List.splitOnP_append_cons_of_forall_mem none sep (by rw [dropped]; rfl),
        List.filter_cons_of_pos (p := fun piece : List α => !piece.isEmpty) first]
      exact congrArg (run :: ·) later

/-- What is not kept in front of a list is no part of its runs. -/
theorem runs_cons_of_drop {α : Type*} {keep : α → Bool} {c : α} (dropped : keep c = false)
    (l : List α) : runs keep (c :: l) = runs keep l := by
  rw [runs, List.splitOnP_cons_eq_if_modifyHead, if_pos (by rw [dropped]; rfl),
    List.filter_cons_of_neg (by simp)]
  rfl

/-- The first run is what is kept in front. -/
theorem runs_append_of_keep {α : Type*} {keep : α → Bool} {front : List α} (occupied : front ≠ [])
    (kept : ∀ c ∈ front, keep c = true) (l : List α) :
    runs keep (front ++ l) = (front ++ l.takeWhile keep) :: runs keep (l.dropWhile keep) := by
  have whole : front ++ l = (front ++ l.takeWhile keep) ++ l.dropWhile keep := by
    rw [List.append_assoc, List.takeWhile_append_dropWhile]
  have inside : ∀ c ∈ front ++ l.takeWhile keep, (!keep c) = false := by
    intro c member
    rcases List.mem_append.mp member with early | late
    · rw [kept c early]
      rfl
    · rw [List.mem_takeWhile_imp late]
      rfl
  have first : (fun piece : List α => !piece.isEmpty) (front ++ l.takeWhile keep) = true := by
    simp [occupied]
  rw [whole]
  cases behind : l.dropWhile keep with
  | nil =>
    rw [List.append_nil, runs, List.splitOnP_eq_singleton inside,
      List.filter_cons_of_pos (p := fun piece : List α => !piece.isEmpty) first]
    rfl
  | cons sep rest =>
    have off : keep sep = false := by
      have front := List.head?_dropWhile_not keep l
      rw [behind] at front
      simpa using front
    rw [runs_cons_of_drop off, runs,
      List.splitOnP_append_cons_of_forall_mem inside sep (by rw [off]; rfl),
      List.filter_cons_of_pos (p := fun piece : List α => !piece.isEmpty) first]
    rfl

/-- The first run begins with an element that is kept. -/
theorem runs_cons_of_keep {α : Type*} {keep : α → Bool} {c : α} (kept : keep c = true)
    (l : List α) :
    runs keep (c :: l) = (c :: l.takeWhile keep) :: runs keep (l.dropWhile keep) :=
  runs_append_of_keep (List.cons_ne_nil c []) (fun _ member => List.mem_singleton.mp member ▸ kept)
    l

/-- The runs of lists that are the same in front. -/
theorem runs_cons_inj {α : Type*} {keep : α → Bool} {c : α} {l l' : List α}
    (same : runs keep (c :: l) = runs keep (c :: l')) : runs keep l = runs keep l' := by
  cases kind : keep c with
  | false => rwa [runs_cons_of_drop kind, runs_cons_of_drop kind] at same
  | true =>
    have split : ∀ l : List α, runs keep l =
        (if l.takeWhile keep = [] then [] else [l.takeWhile keep]) ++
          runs keep (l.dropWhile keep) := by
      intro l
      by_cases empty : l.takeWhile keep = []
      · have whole := List.takeWhile_append_dropWhile (p := keep) (l := l)
        rw [empty, List.nil_append] at whole
        rw [if_pos empty, List.nil_append, whole]
      · have inside : ∀ c ∈ l.takeWhile keep, keep c = true := fun c => List.mem_takeWhile_imp
        have front := runs_append_of_keep empty inside (l.dropWhile keep)
        rw [List.takeWhile_append_dropWhile] at front
        have ended : (l.dropWhile keep).takeWhile keep = [] := by
          rw [List.takeWhile_eq_nil_iff]
          intro bound
          have off := List.head?_dropWhile_not keep l
          rw [List.head?_eq_getElem?, List.getElem?_eq_getElem bound] at off
          simpa using off
        have more := List.takeWhile_append_dropWhile (p := keep) (l := l.dropWhile keep)
        rw [ended, List.nil_append] at more
        rw [if_neg empty, front, ended, List.append_nil, more]
        rfl
    rw [runs_cons_of_keep kind, runs_cons_of_keep kind] at same
    have ⟨word, later⟩ := List.cons.inj same
    rw [split l, split l', (List.cons.inj word).2, later]

/-- The runs of lists with the same front. -/
theorem runs_append_inj {α : Type*} {keep : α → Bool} {front l l' : List α}
    (same : runs keep (front ++ l) = runs keep (front ++ l')) : runs keep l = runs keep l' := by
  induction front with
  | nil => exact same
  | cons c front ih => exact ih (runs_cons_inj same)

/-- Nothing is dropped at the ends twice. -/
theorem trimmed_twice {α : Type*} (p : α → Bool) (l : List α) :
    ((l.dropWhile p).rdropWhile p).dropWhile p = (l.dropWhile p).rdropWhile p := by
  rw [List.dropWhile_eq_self_iff]
  intro occupied front
  obtain ⟨rest, whole⟩ := List.rdropWhile_prefix p (l.dropWhile p)
  generalize (l.dropWhile p).rdropWhile p = m at occupied front whole
  have begins := List.dropWhile_idempotent p l
  rw [← whole, List.dropWhile_eq_self_iff] at begins
  refine begins (by rw [List.length_append]; omega) ?_
  rw [List.getElem_append_left occupied]
  exact front

end Copr.Tokens
