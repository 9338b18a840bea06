import Copr.Keygen.KeySafety
import Mathlib.Data.List.TakeWhile

/-!
# Where the key generator writes

The address of a request becomes the name of a file. Whatever requests come in, the passphrases and
lock files that are written are files of the directory of the passphrases itself, and each belongs
to a request that was accepted. The addresses of two projects never share a file. Parameter files
are written elsewhere, under names that the library makes.
-/

namespace Copr.Keygen

open Text Host

section Names

variable {chars : CharClasses} {allowed : Char → Bool} {text : List Char} {nameEmail : String}

/-- The characters of a line that matches. -/
theorem allowed_of_matchesLine (good : matchesLine allowed text = true) {c : Char}
    (member : c ∈ text) : allowed c = true ∨ c = '\n' := by
  unfold matchesLine at good
  rw [Bool.and_eq_true, List.all_eq_true] at good
  by_cases ends : text.getLast? = some '\n'
  · rw [if_pos ends] at good
    obtain ⟨line, rfl⟩ := List.getLast?_eq_some_iff.mp ends
    rw [List.dropLast_concat] at good
    rcases List.mem_append.mp member with inside | last
    · exact Or.inl (good.2 c inside)
    · exact Or.inr (List.mem_singleton.mp last)
  · rw [if_neg ends] at good
    exact Or.inl (good.2 c member)

/-- A slash is no character of an address. -/
theorem not_isEmailChar_slash : isEmailChar chars '/' = false := by
  unfold isEmailChar isNameChar isWord
  rw [chars.isalnum_eq_false (by decide) (by decide)]
  decide

/-- A name character is allowed in an address. -/
theorem isEmailChar_of_isNameChar {c : Char} (good : isNameChar chars c = true) :
    isEmailChar chars c = true := by
  unfold isEmailChar
  rw [good, Bool.true_or]

/-- The characters of an accepted address. -/
theorem chars_of_valid (valid : validateNameEmail chars nameEmail = true) {c : Char}
    (member : c ∈ nameEmail.toList) : isEmailChar chars c = true ∨ c = '\n' ∨ c = '#' := by
  unfold validateNameEmail at valid
  split at valid
  · rw [Bool.and_eq_true, Bool.and_eq_true] at valid
    obtain ⟨⟨name, email⟩, _⟩ := valid
    rw [← List.takeWhile_append_dropWhile (p := (· == '@')) (l := nameEmail.toList)] at member
    rcases List.mem_append.mp member with ats | stripped
    · have at_sign : c = '@' := by simpa using List.mem_takeWhile_imp ats
      left
      rw [at_sign]
      simp [isEmailChar]
    · rw [← List.takeWhile_append_dropWhile (p := (· != '#'))
        (l := nameEmail.toList.dropWhile (· == '@'))] at stripped
      rcases List.mem_append.mp stripped with before | after
      · exact (allowed_of_matchesLine name before).imp isEmailChar_of_isNameChar Or.inl
      · by_cases hash : c = '#'
        · exact Or.inr (Or.inr hash)
        · cases rest : (nameEmail.toList.dropWhile (· == '@')).dropWhile (· != '#') with
          | nil =>
            rw [rest] at after
            exact absurd after List.not_mem_nil
          | cons d tail =>
            have head : d = '#' := by
              have stopped := List.head?_dropWhile_not (· != '#')
                (nameEmail.toList.dropWhile (· == '@'))
              rw [rest] at stopped
              simpa using stopped
            rw [rest, head] at after
            rw [rest] at email
            have inside : c ∈ tail := (List.mem_cons.mp after).resolve_left hash
            exact (allowed_of_matchesLine email inside).imp_right Or.inl
  · cases valid

/-- A name that is a file of the directory itself. -/
def Inside (file : String) : Prop := '/' ∉ file.toList ∧ '#' ∈ file.toList

/-- An accepted address is the name of a file. -/
theorem inside_of_valid (valid : validateNameEmail chars nameEmail = true) : Inside nameEmail := by
  constructor
  · intro slash
    rcases chars_of_valid valid slash with good | no | no
    · rw [not_isEmailChar_slash] at good
      cases good
    · cases no
    · cases no
  · unfold validateNameEmail at valid
    split at valid
    · assumption
    · cases valid

/-- The lock file of a name inside the directory is inside it as well. -/
theorem inside_lockFile (inside : Inside nameEmail) : Inside (lockFile nameEmail) := by
  have spelled : (lockFile nameEmail).toList = nameEmail.toList ++ ".lock".toList :=
    String.toList_append
  unfold Inside
  rw [spelled]
  refine ⟨fun slash => ?_, List.mem_append_left _ inside.2⟩
  rcases List.mem_append.mp slash with no | no
  · exact inside.1 no
  · exact absurd no (by decide)

/-- What is accepted is valid. -/
theorem valid_of_accept {body : Option Query} {r : Request} (good : accept chars body = .ok r) :
    validateNameEmail chars r.email = true := by
  unfold accept at good
  split at good
  · cases good
  · split at good
    · cases good
    · cases good
    · split at good
      · rename_i valid
        cases good
        exact valid
      · cases good

end Names

section Files

variable {chars : CharClasses} {gpg : Gpg} {s : Host} {i : Nat} {r : Request}

/-- The files of an address. -/
def Owns (email file : String) : Prop := file = passphraseLocation email ∨ file = lockFile email

/-- A step of a request writes no file but its own. -/
theorem files_progress (event : Event) {file : String}
    (foreign : ¬ Owns r.email file) :
    (s.progress gpg i r event).files file = s.files file := by
  have writes (own content : String) (owns : Owns r.email own) :
      (s.write own content).files file = s.files file := by
    refine Function.update_of_ne (fun same => foreign ?_) _ _
    rw [same]
    exact owns
  cases event with
  | post body => rfl
  | lock j opens =>
    simp only [progress]
    split_ifs
    · rfl
    · change (s.touch (lockFile r.email)).files file = s.files file
      unfold touch
      split
      · exact writes _ _ (Or.inr rfl)
      · rfl
    · rfl
  | exported j understood =>
    simp only [progress]
    split_ifs <;> rfl
  | generate j added zero =>
    simp only [progress]
    split_ifs <;> rfl
  | ensure j writable =>
    cases pc : r.pc with
    | ensuring created =>
      simp only [progress, pc]
      cases s.lacksPassphrase r.email with
      | false => rfl
      | true =>
        cases writable with
        | true => exact writes _ _ (Or.inl rfl)
        | false => exact writes _ _ (Or.inl rfl)
    | _ => simp only [progress, pc]
  | die j => cases pc : r.pc <;> simp only [progress, pc, goto]

/-- A request stays, wherever it gets. -/
theorem owned_progress (gpg : Gpg) (there : s.requests[i]? = some r)
    (event : Event) {file : String}
    (owned : ∃ r ∈ s.requests, Owns r.email file) :
    ∃ q ∈ (s.progress gpg i r event).requests, Owns q.email file := by
  obtain ⟨pc, moved⟩ := requests_progress gpg there event
  obtain ⟨old, member, owns⟩ := owned
  obtain ⟨j, bound, rfl⟩ := List.getElem_of_mem member
  rw [moved]
  by_cases same : i = j
  · subst same
    have mine : r = s.requests[i] :=
      Option.some.inj (there.symm.trans (List.getElem?_eq_getElem bound))
    refine ⟨{ r with pc := pc }, List.mem_set bound _, ?_⟩
    rw [← mine] at owns
    exact owns
  · have longer : j < (s.requests.set i { r with pc := pc }).length := by
      rw [List.length_set]
      exact bound
    refine ⟨_, List.getElem_mem longer, ?_⟩
    rw [List.getElem_set_ne same]
    exact owns

/-- Every file belongs to a request. -/
theorem step_owned (event : Event)
    (owned : ∀ file, s.files file ≠ none → ∃ r ∈ s.requests, Owns r.email file) (file : String)
    (there : (step chars gpg s event).files file ≠ none) :
    ∃ r ∈ (step chars gpg s event).requests, Owns r.email file := by
  have goes (i : Nat)
      (there : ((s.requests[i]?).elim s fun r => s.progress gpg i r event).files file ≠ none) :
      ∃ r ∈ ((s.requests[i]?).elim s fun r => s.progress gpg i r event).requests,
        Owns r.email file := by
    cases at_i : s.requests[i]? with
    | none =>
      rw [at_i] at there
      exact owned file there
    | some r =>
      rw [at_i, Option.elim_some] at there
      refine owned_progress gpg at_i event ?_
      by_cases own : Owns r.email file
      · exact ⟨r, List.mem_of_getElem? at_i, own⟩
      · rw [files_progress event own] at there
        exact owned file there
  cases event with
  | post body =>
    unfold step at there ⊢
    dsimp only at there ⊢
    cases told : accept chars body with
    | error status =>
      rw [told] at there
      exact owned file there
    | ok new =>
      rw [told] at there
      obtain ⟨r, member, owns⟩ := owned file there
      exact ⟨r, List.mem_append_left _ member, owns⟩
  | lock i opens => exact goes i there
  | exported i understood => exact goes i there
  | generate i added zero => exact goes i there
  | ensure i writable => exact goes i there
  | die i => exact goes i there

/-- Whatever requests come in and however they go, a file that was put into the directory of the
passphrases is the passphrase or the lock of a request that was accepted, and lies in the directory
itself. -/
theorem files_of_run (chars : CharClasses) (gpg : Gpg) (events : List Event)
    (file : String) :
    (run chars gpg events).files file = none ∨
      Inside file ∧ ∃ r ∈ (run chars gpg events).requests, Owns r.email file := by
  have keeps : ∀ s : Host,
      (∀ file, s.files file ≠ none → ∃ r ∈ s.requests, Owns r.email file) →
      ∀ file, (events.foldl (step chars gpg) s).files file ≠ none →
        ∃ r ∈ (events.foldl (step chars gpg) s).requests, Owns r.email file := by
    induction events with
    | nil => exact fun _ owned => owned
    | cons event events ih => exact fun s owned => ih _ (step_owned event owned)
  by_cases there : (run chars gpg events).files file = none
  · exact Or.inl there
  · have owned := keeps {} (fun _ no => absurd rfl no) file there
    obtain ⟨r, member, owns⟩ := owned
    have valid : validateNameEmail chars r.email = true :=
      requests_run (p := fun email _ => validateNameEmail chars email = true) events
        (fun _ _ _ told => valid_of_accept told) r member
    have inside : Inside r.email := inside_of_valid valid
    refine Or.inr ⟨?_, r, member, owns⟩
    rcases owns with rfl | rfl
    · exact inside
    · exact inside_lockFile inside

end Files

section Projects

variable {username projectname username' projectname' domain : String}

/-- An address as characters. -/
theorem toList_createGpgEmail (username projectname domain : String) :
    (createGpgEmail username projectname domain).toList =
      username.toList ++
        '#' :: (projectname.toList ++ '@' :: ("copr.".toList ++ domain.toList)) := by
  have spelled : "@copr.".toList = '@' :: "copr.".toList := by decide
  unfold createGpgEmail
  rw [String.toList_append, String.toList_append, String.toList_append, String.toList_append,
    spelled]
  simp

/-- What follows two addresses tells them apart. -/
theorem parts_of_createGpgEmail {rest rest' : List Char}
    (users : '#' ∉ username.toList ∧ '#' ∉ username'.toList)
    (projects : '@' ∉ projectname.toList ∧ '@' ∉ projectname'.toList)
    (same : (createGpgEmail username projectname domain).toList ++ rest =
      (createGpgEmail username' projectname' domain).toList ++ rest') :
    username = username' ∧ projectname = projectname' ∧ rest = rest' := by
  rw [toList_createGpgEmail, toList_createGpgEmail, List.append_assoc, List.append_assoc,
    List.cons_append, List.cons_append, List.append_assoc, List.append_assoc, List.cons_append,
    List.cons_append] at same
  obtain ⟨user, after⟩ := around_separator users.1 users.2 same
  obtain ⟨project, ends⟩ := around_separator projects.1 projects.2 after
  exact ⟨String.toList_inj.mp user, String.toList_inj.mp project, List.append_cancel_left ends⟩

/-- Two projects never share a file of the key generator, neither passphrase nor lock. -/
theorem project_of_file (users : '#' ∉ username.toList ∧ '#' ∉ username'.toList)
    (projects : '@' ∉ projectname.toList ∧ '@' ∉ projectname'.toList) {file : String}
    (mine : Owns (createGpgEmail username projectname domain) file)
    (yours : Owns (createGpgEmail username' projectname' domain) file) :
    username = username' ∧ projectname = projectname' := by
  have spelled : ∀ email, Owns email file →
      file.toList = email.toList ++ [] ∨ file.toList = email.toList ++ ".lock".toList := by
    rintro email (rfl | rfl)
    · exact Or.inl (List.append_nil _).symm
    · exact Or.inr String.toList_append
  have same : ∃ rest rest' : List Char,
      (createGpgEmail username projectname domain).toList ++ rest =
        (createGpgEmail username' projectname' domain).toList ++ rest' := by
    rcases spelled _ mine with left | left <;> rcases spelled _ yours with right | right <;>
      exact ⟨_, _, left.symm.trans right⟩
  obtain ⟨rest, rest', same⟩ := same
  have ⟨user, project, _⟩ := parts_of_createGpgEmail users projects same
  exact ⟨user, project⟩

end Projects

end Copr.Keygen
