import Copr.Keygen.GenKey

/-!
# One key for an address

However the requests alternate, and whatever becomes of the calls of `gpg`, there is at most one
key for an address, and one more for every process that died while `gpg --gen-key` was running for
it. Who was answered that there is a key finds it, with its passphrase.
-/

namespace Copr.Keygen

open Text

namespace Host

/-- How many requests for an address are at such a place. -/
def countAt (s : Host) (email : String) (p : Pc → Bool) : Nat :=
  s.requests.countP fun r => p r.pc && r.email == email

/-- `gpg` reads one address in every parameter file: that of the request. -/
def Reads (s : Host) (gpg : Gpg) : Prop :=
  ∀ r ∈ s.requests, gpg.addresses r.parameters = [r.email]

end Host

namespace Pc

/-- `gpg --gen-key` runs. -/
def isGenerating : Pc → Bool
  | .generating => true
  | _ => false

/-- The process died while `gpg --gen-key` was running, which has ended since. -/
def diedGenerating : Pc → Bool
  | .died inside => inside
  | _ => false

/-- There was no key before. -/
def creates : Pc → Bool
  | .generating | .verifying => true
  | .ensuring created => created
  | _ => false

/-- The answer is that a key was created. -/
def created : Pc → Bool
  | .answered status => status == 201
  | _ => false

/-- The answer is that there is a key. -/
def welcomed : Pc → Bool
  | .answered status => status == 200 || status == 201
  | _ => false

/-- The key was found. -/
def found : Pc → Bool
  | .ensuring _ => true
  | .answered status => status == 200 || status == 201
  | _ => false

end Pc

open Host

/-- What is true of an address at any time. -/
structure Sound (gpg : Gpg) (s : Host) (email : String) : Prop where
  /-- One request holds the lock at most. -/
  alone : s.countAt email Pc.holds ≤ 1
  /-- The keys, the one that may still come included. -/
  keys : s.Reads gpg → s.keyring.count email + s.countAt email Pc.isGenerating ≤
    s.countAt email Pc.diedGenerating + 1
  /-- A key is created once. -/
  once : s.countAt email Pc.creates + s.countAt email Pc.created ≤ 1
  /-- What was found is there. -/
  kept : 0 < s.countAt email Pc.found → ∃ key ∈ s.keyring, gpg.finds email key = true
  /-- Whoever was told of a key has a passphrase. -/
  phrase : 0 < s.countAt email Pc.welcomed → s.lacksPassphrase email = false

section Counts

variable {s t : Host} {gpg : Gpg} {email elsewhere file : String} {i : Nat}
  {before after : Pc} {p q h : Pc → Bool}

/-- When a request moves, the count of a place loses it where it was and gains it where it is. -/
theorem countAt_set (there : s.requests[i]? = some ⟨email, file, before⟩)
    (moved : t.requests = s.requests.set i ⟨email, file, after⟩) :
    t.countAt email p + (p before).toNat = s.countAt email p + (p after).toNat := by
  obtain ⟨bound, same⟩ := List.getElem?_eq_some_iff.mp there
  let here (r : Request) : Bool := p r.pc && r.email == email
  have counted := List.boole_getElem_le_countP (p := here) bound
  have changed := List.countP_set (p := here) (a := ⟨email, file, after⟩) bound
  rw [same] at counted changed
  have was : here ⟨email, file, before⟩ = p before := by simp [here]
  have is : here ⟨email, file, after⟩ = p after := by simp [here]
  rw [was] at counted changed
  rw [is] at changed
  change t.requests.countP here + _ = s.requests.countP here + _
  rw [moved, changed]
  generalize p before = left at counted
  generalize p after = come
  cases left <;> cases come <;>
    simp only [Bool.false_eq_true, if_true, if_false, Bool.toNat_true, Bool.toNat_false]
      at counted ⊢ <;> omega

/-- The counts for an address stay when a request for another address moves. -/
theorem countAt_set_other (there : s.requests[i]? = some ⟨elsewhere, file, before⟩)
    (moved : t.requests = s.requests.set i ⟨elsewhere, file, after⟩) (differ : elsewhere ≠ email) :
    t.countAt email p = s.countAt email p := by
  obtain ⟨bound, same⟩ := List.getElem?_eq_some_iff.mp there
  unfold countAt
  rw [moved, List.countP_set bound, same]
  simp [differ]

/-- Places that exclude each other count together at most what a place that includes both does. -/
theorem countAt_add (apart : ∀ pc, (p pc).toNat + (q pc).toNat ≤ (h pc).toNat) :
    s.countAt email p + s.countAt email q ≤ s.countAt email h := by
  unfold countAt
  induction s.requests with
  | nil => exact Nat.le_refl _
  | cons r rest ih =>
    rw [List.countP_cons, List.countP_cons, List.countP_cons]
    have here := apart r.pc
    cases r.email == email
    · simpa using ih
    · generalize p r.pc = first at here
      generalize q r.pc = second at here
      generalize h r.pc = whole at here
      cases first <;> cases second <;> cases whole <;> simp at here ⊢ <;> omega

/-- A place that another one includes has no more requests. -/
theorem countAt_mono (less : ∀ pc, p pc = true → q pc = true) :
    s.countAt email p ≤ s.countAt email q := by
  refine List.countP_mono_left fun r _ same => ?_
  rw [Bool.and_eq_true] at same ⊢
  exact ⟨less r.pc same.1, same.2⟩

/-- Where a request is, the count is not zero. -/
theorem countAt_pos (there : s.requests[i]? = some ⟨email, file, before⟩) (here : p before = true) :
    0 < s.countAt email p := by
  refine List.countP_pos_iff.mpr ⟨_, List.mem_of_getElem? there, ?_⟩
  simp [here]

/-- What `gpg` reads in the parameter files is the same before a request moves. -/
theorem reads_set (there : s.requests[i]? = some ⟨email, file, before⟩)
    (moved : t.requests = s.requests.set i ⟨email, file, after⟩) (reads : t.Reads gpg) :
    s.Reads gpg := by
  intro r member
  obtain ⟨j, bound, rfl⟩ := List.getElem_of_mem member
  have longer : j < t.requests.length := by
    rw [moved, List.length_set]
    exact bound
  have later := reads _ (List.getElem_mem longer)
  simp only [moved, List.getElem_set] at later
  split at later
  · subst i
    have same : s.requests[j] = ⟨email, file, before⟩ :=
      Option.some.inj ((List.getElem?_eq_getElem bound).symm.trans there)
    rw [same]
    exact later
  · exact later

/-- How a request that moves changes what is counted. -/
structure Moved (gpg : Gpg) (s t : Host) (email : String) (before after : Pc) :
    Prop where
  /-- What `gpg` reads. -/
  reads : t.Reads gpg → s.Reads gpg
  /-- Who holds the lock. -/
  holds : t.countAt email Pc.holds + before.holds.toNat =
    s.countAt email Pc.holds + after.holds.toNat
  /-- Who generates a key. -/
  generating : t.countAt email Pc.isGenerating + before.isGenerating.toNat =
    s.countAt email Pc.isGenerating + after.isGenerating.toNat
  /-- Who has died over it. -/
  died : t.countAt email Pc.diedGenerating + before.diedGenerating.toNat =
    s.countAt email Pc.diedGenerating + after.diedGenerating.toNat
  /-- Who found no key. -/
  creates : t.countAt email Pc.creates + before.creates.toNat =
    s.countAt email Pc.creates + after.creates.toNat
  /-- Who was told of a new key. -/
  created : t.countAt email Pc.created + before.created.toNat =
    s.countAt email Pc.created + after.created.toNat
  /-- Who found a key. -/
  found : t.countAt email Pc.found + before.found.toNat =
    s.countAt email Pc.found + after.found.toNat
  /-- Who was told of a key. -/
  welcomed : t.countAt email Pc.welcomed + before.welcomed.toNat =
    s.countAt email Pc.welcomed + after.welcomed.toNat

/-- Every count changes by the request that moves. -/
theorem moved (there : s.requests[i]? = some ⟨email, file, before⟩)
    (requests : t.requests = s.requests.set i ⟨email, file, after⟩) :
    Moved gpg s t email before after where
  reads := reads_set there requests
  holds := countAt_set there requests
  generating := countAt_set there requests
  died := countAt_set there requests
  creates := countAt_set there requests
  created := countAt_set there requests
  found := countAt_set there requests
  welcomed := countAt_set there requests

/-- What is true of an address stays true when none of its requests moves, no key or passphrase
goes, and no key for it comes. -/
theorem Sound.other (sound : Sound gpg s email)
    (counts : ∀ p, t.countAt email p = s.countAt email p) (reads : t.Reads gpg → s.Reads gpg)
    (fewer : t.Reads gpg → t.keyring.count email ≤ s.keyring.count email)
    (more : ∀ key ∈ s.keyring, key ∈ t.keyring)
    (phrase : s.lacksPassphrase email = false → t.lacksPassphrase email = false) :
    Sound gpg t email where
  alone := by rw [counts]; exact sound.alone
  keys := by
    rw [counts, counts]
    exact fun read => (Nat.add_le_add_right (fewer read) _).trans (sound.keys (reads read))
  once := by rw [counts, counts]; exact sound.once
  kept := by
    rw [counts]
    intro found
    have ⟨key, member, finds⟩ := sound.kept found
    exact ⟨key, more key member, finds⟩
  phrase := by rw [counts]; exact fun told => phrase (sound.phrase told)

end Counts

/-! ## Steps -/

section Steps

variable {s t : Host} {gpg : Gpg} {email file : String} {i : Nat}
  {before after : Pc}

/-- When the lock on its file is free, no request for the address holds it. -/
theorem countAt_of_not_locked (free : s.locked (lockFile email) = false) :
    s.countAt email Pc.holds = 0 := by
  unfold countAt
  rw [List.countP_eq_zero]
  intro r member
  have other := List.any_eq_false.mp free r member
  intro same
  rw [Bool.and_eq_true, beq_iff_eq] at same
  exact other (by rw [same.1, same.2]; simp)

/-- What is true of an address stays true when a request gives up. -/
theorem Sound.leave (sound : Sound gpg s email) (counts : Moved gpg s t email before after)
    (gone : after = .answered 500 ∨ after = .died false) (alive : before.diedGenerating = false)
    (keyring : t.keyring = s.keyring)
    (phrase : s.lacksPassphrase email = false → t.lacksPassphrase email = false) :
    Sound gpg t email := by
  have holds : t.countAt email Pc.holds ≤ s.countAt email Pc.holds := by
    rcases gone with rfl | rfl <;> exact Nat.le.intro counts.holds
  have generating : t.countAt email Pc.isGenerating ≤ s.countAt email Pc.isGenerating := by
    rcases gone with rfl | rfl <;> exact Nat.le.intro counts.generating
  have died : t.countAt email Pc.diedGenerating = s.countAt email Pc.diedGenerating := by
    have moves := counts.died
    rw [alive] at moves
    rcases gone with rfl | rfl <;> exact moves
  have creates : t.countAt email Pc.creates ≤ s.countAt email Pc.creates := by
    rcases gone with rfl | rfl <;> exact Nat.le.intro counts.creates
  have created : t.countAt email Pc.created ≤ s.countAt email Pc.created := by
    rcases gone with rfl | rfl <;> exact Nat.le.intro counts.created
  have found : t.countAt email Pc.found ≤ s.countAt email Pc.found := by
    rcases gone with rfl | rfl <;> exact Nat.le.intro counts.found
  have welcomed : t.countAt email Pc.welcomed ≤ s.countAt email Pc.welcomed := by
    rcases gone with rfl | rfl <;> exact Nat.le.intro counts.welcomed
  have ⟨alone, keys, once, kept, told⟩ := sound
  refine ⟨?_, fun read => ?_, ?_, ?_, fun some => phrase (told (by omega))⟩
  · omega
  · have before := keys (counts.reads read)
    rw [keyring]
    omega
  · omega
  · rw [keyring]
    exact fun some => kept (by omega)

/-- What is true of an address stays true when a request takes the free lock. -/
theorem Sound.lock (sound : Sound gpg s email)
    (counts : Moved gpg s t email .locking .exporting) (free : s.countAt email Pc.holds = 0)
    (keyring : t.keyring = s.keyring)
    (phrase : s.lacksPassphrase email = false → t.lacksPassphrase email = false) :
    Sound gpg t email := by
  have holds : t.countAt email Pc.holds = s.countAt email Pc.holds + 1 := counts.holds
  have generating : t.countAt email Pc.isGenerating = s.countAt email Pc.isGenerating :=
    counts.generating
  have died : t.countAt email Pc.diedGenerating = s.countAt email Pc.diedGenerating := counts.died
  have creates : t.countAt email Pc.creates = s.countAt email Pc.creates := counts.creates
  have created : t.countAt email Pc.created = s.countAt email Pc.created := counts.created
  have found : t.countAt email Pc.found = s.countAt email Pc.found := counts.found
  have welcomed : t.countAt email Pc.welcomed = s.countAt email Pc.welcomed := counts.welcomed
  have ⟨alone, keys, once, kept, told⟩ := sound
  refine ⟨?_, fun read => ?_, ?_, ?_, fun some => phrase (told (by omega))⟩
  · omega
  · have before := keys (counts.reads read)
    rw [keyring]
    omega
  · omega
  · rw [keyring]
    exact fun some => kept (by omega)

/-- What is true of an address stays true when a request finds a key that is there. -/
theorem Sound.find (created : Bool) (sound : Sound gpg s email)
    (counts : Moved gpg s t email (if created then .verifying else .exporting) (.ensuring created))
    (there : ∃ key ∈ s.keyring, gpg.finds email key = true) (keyring : t.keyring = s.keyring)
    (phrase : s.lacksPassphrase email = false → t.lacksPassphrase email = false) :
    Sound gpg t email := by
  have holds : t.countAt email Pc.holds = s.countAt email Pc.holds := by
    have moves := counts.holds
    cases created <;> exact Nat.succ.inj moves
  have generating : t.countAt email Pc.isGenerating = s.countAt email Pc.isGenerating := by
    have moves := counts.generating
    cases created <;> exact moves
  have died : t.countAt email Pc.diedGenerating = s.countAt email Pc.diedGenerating := by
    have moves := counts.died
    cases created <;> exact moves
  have creates : t.countAt email Pc.creates = s.countAt email Pc.creates := by
    have moves := counts.creates
    cases created
    · exact moves
    · exact Nat.succ.inj moves
  have told : t.countAt email Pc.created = s.countAt email Pc.created := by
    have moves := counts.created
    cases created <;> exact moves
  have welcomed : t.countAt email Pc.welcomed = s.countAt email Pc.welcomed := by
    have moves := counts.welcomed
    cases created <;> exact moves
  have ⟨alone, keys, once, _, phrased⟩ := sound
  refine ⟨?_, fun read => ?_, ?_, ?_, fun some => phrase (phrased (by omega))⟩
  · omega
  · have before := keys (counts.reads read)
    rw [keyring]
    omega
  · omega
  · rw [keyring]
    exact fun _ => there

/-- What is true of an address stays true when a request that has found no key begins to generate
one. -/
theorem Sound.generate (sound : Sound gpg s email)
    (counts : Moved gpg s t email .exporting .generating)
    (held : 0 < s.countAt email fun pc => pc == .exporting)
    (none : ∀ key ∈ s.keyring, gpg.finds email key = false)
    (keyring : t.keyring = s.keyring)
    (phrase : s.lacksPassphrase email = false → t.lacksPassphrase email = false) :
    Sound gpg t email := by
  have holds : t.countAt email Pc.holds = s.countAt email Pc.holds := Nat.succ.inj counts.holds
  have generating : t.countAt email Pc.isGenerating = s.countAt email Pc.isGenerating + 1 :=
    counts.generating
  have died : t.countAt email Pc.diedGenerating = s.countAt email Pc.diedGenerating := counts.died
  have creates : t.countAt email Pc.creates = s.countAt email Pc.creates + 1 := counts.creates
  have created : t.countAt email Pc.created = s.countAt email Pc.created := counts.created
  have found : t.countAt email Pc.found = s.countAt email Pc.found := counts.found
  have welcomed : t.countAt email Pc.welcomed = s.countAt email Pc.welcomed := counts.welcomed
  have ⟨alone, keys, once, kept, told⟩ := sound
  -- the one that holds the lock is this request, so nobody else is at work on the address
  have only : s.countAt email Pc.creates + s.countAt email (fun pc => pc == .exporting) ≤
      s.countAt email Pc.holds := countAt_add fun pc => by
    cases pc with
    | ensuring created => cases created <;> decide
    | answered status => rfl
    | died inside => cases inside <;> decide
    | _ => decide
  have busy : s.countAt email Pc.isGenerating ≤ s.countAt email Pc.creates :=
    countAt_mono fun pc => by cases pc <;> simp [Pc.isGenerating, Pc.creates]
  have new : s.countAt email Pc.created ≤ s.countAt email Pc.found :=
    countAt_mono fun pc => by cases pc <;> simp +contextual [Pc.created, Pc.found]
  have missing : s.countAt email Pc.found = 0 := by
    by_contra some
    have ⟨key, member, finds⟩ := kept (by omega)
    rw [none key member] at finds
    contradiction
  have lacking : s.keyring.count email = 0 := by
    rw [List.count_eq_zero]
    intro member
    have self := gpg.finds_self email
    rw [none email member] at self
    contradiction
  refine ⟨?_, fun read => ?_, ?_, ?_, fun some => phrase (told (by omega))⟩
  · omega
  · have before := keys (counts.reads read)
    rw [keyring]
    omega
  · omega
  · rw [keyring]
    exact fun some => kept (by omega)

/-- After `gpg --gen-key` all keys are still there, and one more for the address at most when `gpg`
reads this address only. -/
theorem keyring_added (email : String) {added : Nat}
    (keyring : t.keyring = (gpg.addresses file).take added ++ s.keyring) :
    (∀ key ∈ s.keyring, key ∈ t.keyring) ∧
      (gpg.addresses file = [email] → t.keyring.count email ≤ s.keyring.count email + 1) := by
  refine ⟨fun key member => keyring ▸ List.mem_append_right _ member, fun reads => ?_⟩
  rw [keyring, List.count_append]
  have most : ((gpg.addresses file).take added).count email ≤ [email].count email := by
    rw [← reads]
    exact (List.take_sublist _ _).count_le _
  rw [List.count_singleton_self] at most
  omega

/-- What is true of an address stays true when `gpg --gen-key` has ended for a request. -/
theorem Sound.generated (zero : Bool) (sound : Sound gpg s email) {added : Nat}
    (counts : Moved gpg s t email .generating (if zero then .verifying else .answered 500))
    (keyring : t.keyring = (gpg.addresses file).take added ++ s.keyring)
    (reads : s.Reads gpg → gpg.addresses file = [email])
    (phrase : s.lacksPassphrase email = false → t.lacksPassphrase email = false) :
    Sound gpg t email := by
  have holds : t.countAt email Pc.holds ≤ s.countAt email Pc.holds := by
    have moves := counts.holds
    cases zero
    · exact Nat.le.intro moves
    · exact Nat.le_of_eq (Nat.succ.inj moves)
  have generating : t.countAt email Pc.isGenerating + 1 = s.countAt email Pc.isGenerating := by
    have moves := counts.generating
    cases zero <;> exact moves
  have died : t.countAt email Pc.diedGenerating = s.countAt email Pc.diedGenerating := by
    have moves := counts.died
    cases zero <;> exact moves
  have creates : t.countAt email Pc.creates ≤ s.countAt email Pc.creates := by
    have moves := counts.creates
    cases zero
    · exact Nat.le.intro moves
    · exact Nat.le_of_eq (Nat.succ.inj moves)
  have created : t.countAt email Pc.created = s.countAt email Pc.created := by
    have moves := counts.created
    cases zero <;> exact moves
  have found : t.countAt email Pc.found = s.countAt email Pc.found := by
    have moves := counts.found
    cases zero <;> exact moves
  have welcomed : t.countAt email Pc.welcomed = s.countAt email Pc.welcomed := by
    have moves := counts.welcomed
    cases zero <;> exact moves
  have ⟨more, most⟩ := keyring_added email keyring
  have ⟨alone, keys, once, kept, told⟩ := sound
  refine ⟨?_, fun read => ?_, ?_, ?_, fun some => phrase (told (by omega))⟩
  · omega
  · have before := keys (counts.reads read)
    have one := most (reads (counts.reads read))
    omega
  · omega
  · intro some
    have ⟨key, member, finds⟩ := kept (by omega)
    exact ⟨key, more key member, finds⟩

/-- What is true of an address stays true when a request is answered and has its passphrase. -/
theorem Sound.answer (sound : Sound gpg s email) {created : Bool}
    (counts : Moved gpg s t email (.ensuring created) (.answered (if created then 201 else 200)))
    (keyring : t.keyring = s.keyring)
    (phrase : t.lacksPassphrase email = false) : Sound gpg t email := by
  have holds : t.countAt email Pc.holds + 1 = s.countAt email Pc.holds := counts.holds
  have generating : t.countAt email Pc.isGenerating = s.countAt email Pc.isGenerating :=
    counts.generating
  have died : t.countAt email Pc.diedGenerating = s.countAt email Pc.diedGenerating := counts.died
  have creates : t.countAt email Pc.creates + t.countAt email Pc.created =
      s.countAt email Pc.creates + s.countAt email Pc.created := by
    have leaves := counts.creates
    have comes := counts.created
    cases created
    · exact congrArg₂ Nat.add leaves comes
    · have gone : t.countAt email Pc.creates + 1 = s.countAt email Pc.creates := leaves
      have told : t.countAt email Pc.created = s.countAt email Pc.created + 1 := comes
      omega
  have found : t.countAt email Pc.found = s.countAt email Pc.found := by
    have moves := counts.found
    cases created <;> exact Nat.succ.inj moves
  have ⟨alone, keys, once, kept, _⟩ := sound
  refine ⟨?_, fun read => ?_, ?_, ?_, fun _ => phrase⟩
  · omega
  · have before := keys (counts.reads read)
    rw [keyring]
    omega
  · omega
  · rw [keyring]
    exact fun some => kept (by omega)

/-- What is true of an address stays true when the process of a request dies while `gpg --gen-key`
is running, which goes on. -/
theorem Sound.abandon (sound : Sound gpg s email)
    (counts : Moved gpg s t email .generating .abandoned) (keyring : t.keyring = s.keyring)
    (phrase : s.lacksPassphrase email = false → t.lacksPassphrase email = false) :
    Sound gpg t email := by
  have holds : t.countAt email Pc.holds + 1 = s.countAt email Pc.holds := counts.holds
  have generating : t.countAt email Pc.isGenerating + 1 = s.countAt email Pc.isGenerating :=
    counts.generating
  have died : t.countAt email Pc.diedGenerating = s.countAt email Pc.diedGenerating := counts.died
  have creates : t.countAt email Pc.creates + 1 = s.countAt email Pc.creates := counts.creates
  have created : t.countAt email Pc.created = s.countAt email Pc.created := counts.created
  have found : t.countAt email Pc.found = s.countAt email Pc.found := counts.found
  have welcomed : t.countAt email Pc.welcomed = s.countAt email Pc.welcomed := counts.welcomed
  have ⟨alone, keys, once, kept, told⟩ := sound
  refine ⟨?_, fun read => ?_, ?_, ?_, fun some => phrase (told (by omega))⟩
  · omega
  · have before := keys (counts.reads read)
    rw [keyring]
    omega
  · omega
  · rw [keyring]
    exact fun some => kept (by omega)

/-- What is true of an address stays true when `gpg --gen-key` has ended whose request has died:
the key counts for the dead. -/
theorem Sound.orphan (sound : Sound gpg s email) {added : Nat}
    (counts : Moved gpg s t email .abandoned (.died true))
    (keyring : t.keyring = (gpg.addresses file).take added ++ s.keyring)
    (reads : s.Reads gpg → gpg.addresses file = [email])
    (phrase : s.lacksPassphrase email = false → t.lacksPassphrase email = false) :
    Sound gpg t email := by
  have holds : t.countAt email Pc.holds = s.countAt email Pc.holds := counts.holds
  have generating : t.countAt email Pc.isGenerating = s.countAt email Pc.isGenerating :=
    counts.generating
  have died : t.countAt email Pc.diedGenerating = s.countAt email Pc.diedGenerating + 1 :=
    counts.died
  have creates : t.countAt email Pc.creates = s.countAt email Pc.creates := counts.creates
  have created : t.countAt email Pc.created = s.countAt email Pc.created := counts.created
  have found : t.countAt email Pc.found = s.countAt email Pc.found := counts.found
  have welcomed : t.countAt email Pc.welcomed = s.countAt email Pc.welcomed := counts.welcomed
  have ⟨more, most⟩ := keyring_added email keyring
  have ⟨alone, keys, once, kept, told⟩ := sound
  refine ⟨?_, fun read => ?_, ?_, ?_, fun some => phrase (told (by omega))⟩
  · omega
  · have before := keys (counts.reads read)
    have one := most (reads (counts.reads read))
    omega
  · omega
  · intro some
    have ⟨key, member, finds⟩ := kept (by omega)
    exact ⟨key, more key member, finds⟩

end Steps

/-! ## Runs -/

section Runs

variable {chars : CharClasses} {s t : Host} {gpg : Gpg} {i : Nat} {r : Request}
  {after : Pc}

/-- A passphrase stays when something is written that is not empty or not for it. -/
theorem phrase_write {file content email : String} (good : content ≠ "" ∨ file ≠ email)
    (phrase : s.lacksPassphrase email = false) :
    (s.write file content).lacksPassphrase email = false := by
  unfold lacksPassphrase write passphraseLocation at *
  by_cases same : email = file
  · subst same
    have filled : content ≠ "" := good.resolve_right fun no => no rfl
    simp [filled]
  · have kept : Function.update s.files file (some content) email = s.files email :=
      Function.update_of_ne same _ _
    dsimp only
    rw [kept]
    exact phrase

/-- There is a passphrase once it was written. -/
theorem phrase_written (email : String) :
    (s.write email "1\n").lacksPassphrase email = false := by
  unfold lacksPassphrase write passphraseLocation
  simp

/-- A passphrase stays when a lock file is written. -/
theorem phrase_touch {file email : String} (phrase : s.lacksPassphrase email = false) :
    (s.touch file).lacksPassphrase email = false := by
  unfold touch
  split
  · exact phrase_write (Or.inl (by simp)) phrase
  · exact phrase

/-- A move of a request keeps what is true of every address when it keeps what is true of its
own. -/
theorem sound_of_move (sound : ∀ email, Sound gpg s email) (there : s.requests[i]? = some r)
    (requests : t.requests = s.requests.set i { r with pc := after })
    (fewer : s.Reads gpg → ∀ email, r.email ≠ email →
      t.keyring.count email ≤ s.keyring.count email)
    (more : ∀ key ∈ s.keyring, key ∈ t.keyring)
    (phrase : ∀ email, r.email ≠ email → s.lacksPassphrase email = false →
      t.lacksPassphrase email = false)
    (mine : Moved gpg s t r.email r.pc after → Sound gpg t r.email) :
    ∀ email, Sound gpg t email := by
  intro email
  by_cases same : r.email = email
  · subst same
    exact mine (moved there requests)
  · have reads : t.Reads gpg → s.Reads gpg := reads_set there requests
    exact (sound email).other (fun _ => countAt_set_other there requests same) reads
      (fun read => fewer (reads read) email same) more (phrase email same)

/-- A move that leaves the keys alone keeps what is true of every address when it keeps what is true
of its own. -/
theorem sound_of_quiet (sound : ∀ email, Sound gpg s email) (there : s.requests[i]? = some r)
    (requests : t.requests = s.requests.set i { r with pc := after })
    (keyring : t.keyring = s.keyring)
    (phrase : ∀ email, r.email ≠ email → s.lacksPassphrase email = false →
      t.lacksPassphrase email = false)
    (mine : Moved gpg s t r.email r.pc after → Sound gpg t r.email) :
    ∀ email, Sound gpg t email :=
  sound_of_move sound there requests (fun _ _ _ => by rw [keyring])
    (fun _ member => keyring ▸ member) phrase mine

/-- A move that adds what `gpg` has generated keeps what is true of every address when it keeps what
is true of its own. -/
theorem sound_of_adding {added : Nat} (sound : ∀ email, Sound gpg s email)
    (there : s.requests[i]? = some r)
    (requests : t.requests = s.requests.set i { r with pc := after })
    (keyring : t.keyring = (gpg.addresses r.parameters).take added ++ s.keyring)
    (files : t.files = s.files)
    (mine : (s.Reads gpg → gpg.addresses r.parameters = [r.email]) →
      Moved gpg s t r.email r.pc after → Sound gpg t r.email) :
    ∀ email, Sound gpg t email := by
  have read : s.Reads gpg → gpg.addresses r.parameters = [r.email] :=
    fun reads => reads r (List.mem_of_getElem? there)
  refine sound_of_move sound there requests ?_ (keyring_added r.email keyring).1 ?_
    (mine read)
  · intro reads email differ
    have none : ((gpg.addresses r.parameters).take added).count email = 0 := by
      rw [List.count_eq_zero, read reads]
      exact fun member => differ (List.mem_singleton.mp (List.mem_of_mem_take member)).symm
    rw [keyring, List.count_append, none, Nat.zero_add]
  · intro email _ phrase
    unfold lacksPassphrase at *
    rw [files]
    exact phrase

/-- A step of a request keeps what is true of every address. -/
theorem progress_sound (sound : ∀ email, Sound gpg s email) (there : s.requests[i]? = some r)
    (event : Event) : ∀ email, Sound gpg (s.progress gpg i r event) email := by
  obtain ⟨address, file, pc⟩ := r
  have same : ∀ email, address ≠ email → s.lacksPassphrase email = false →
      s.lacksPassphrase email = false := fun _ _ phrase => phrase
  have quits (alive : pc.diedGenerating = false) :
      ∀ email, Sound gpg (s.goto i ⟨address, file, pc⟩ (.answered 500)) email :=
    sound_of_quiet sound there rfl rfl same (fun counts =>
      (sound address).leave counts (Or.inl rfl) alive rfl fun phrase => phrase)
  cases event with
  | post body => exact sound
  | lock j opens =>
    simp only [progress]
    split_ifs with refused free
    · obtain ⟨rfl, _⟩ := refused
      exact quits rfl
    · obtain ⟨rfl, free⟩ := free
      have same : (s.touch (lockFile address)).requests = s.requests ∧
          (s.touch (lockFile address)).keyring = s.keyring := by
        unfold touch
        split <;> exact ⟨rfl, rfl⟩
      exact sound_of_quiet
        (t := (s.touch (lockFile address)).goto i ⟨address, file, .locking⟩ .exporting) sound there
        (congrArg (fun l : List Request => l.set i ⟨address, file, .exporting⟩) same.1) same.2
        (fun _ _ => phrase_touch) (fun counts => (sound address).lock counts
          (countAt_of_not_locked free) same.2 phrase_touch)
    · exact sound
  | exported j understood =>
    simp only [progress]
    split_ifs with exporting unread found verifying again
    · obtain rfl : pc = .exporting := exporting
      exact quits rfl
    · obtain rfl : pc = .exporting := exporting
      exact sound_of_quiet sound there rfl rfl same (fun counts =>
        (sound address).find false counts (List.any_eq_true.mp found) rfl fun phrase => phrase)
    · obtain rfl : pc = .exporting := exporting
      exact sound_of_quiet sound there rfl rfl same (fun counts =>
        (sound address).generate counts (countAt_pos there rfl)
          (fun key member => Bool.eq_false_iff.mpr (List.any_eq_false.mp
            (Bool.eq_false_iff.mpr found) key member)) rfl fun phrase => phrase)
    · obtain rfl : pc = .verifying := verifying
      rw [Bool.and_eq_true] at again
      exact sound_of_quiet sound there rfl rfl same (fun counts =>
        (sound address).find true counts (List.any_eq_true.mp again.2) rfl fun phrase => phrase)
    · obtain rfl : pc = .verifying := verifying
      exact quits rfl
    · exact sound
  | generate j added zero =>
    simp only [progress]
    split_ifs with generating exits abandoned
    · obtain rfl : pc = .generating := generating
      exact sound_of_adding sound there rfl rfl rfl (fun reads counts =>
        Sound.generated true (sound address) counts rfl reads fun phrase => phrase)
    · obtain rfl : pc = .generating := generating
      exact sound_of_adding sound there rfl rfl rfl (fun reads counts =>
        Sound.generated false (sound address) counts rfl reads fun phrase => phrase)
    · obtain rfl : pc = .abandoned := abandoned
      exact sound_of_adding sound there rfl rfl rfl (fun reads counts =>
        (sound address).orphan counts rfl reads fun phrase => phrase)
    · exact sound
  | ensure j writable =>
    cases pc with
    | ensuring created =>
      simp only [progress]
      cases lacks : s.lacksPassphrase address with
      | false =>
        exact sound_of_quiet sound there rfl rfl same
          (fun counts => (sound address).answer counts rfl lacks)
      | true =>
        cases writable with
        | true =>
          exact sound_of_quiet sound there rfl rfl (fun _ differ => phrase_write (Or.inr differ))
            (fun counts => (sound address).answer counts rfl (phrase_written address))
        | false =>
          exact sound_of_quiet sound there rfl rfl (fun _ differ => phrase_write (Or.inr differ))
            (fun counts => (sound address).leave counts (Or.inl rfl) rfl rfl
              fun phrase => absurd (lacks.symm.trans phrase) (by simp))
    | _ => exact sound
  | die j =>
    have dies (alive : pc.diedGenerating = false) :
        ∀ email, Sound gpg (s.goto i ⟨address, file, pc⟩ (.died false)) email :=
      sound_of_quiet sound there rfl rfl same (fun counts =>
        (sound address).leave counts (Or.inr rfl) alive rfl fun phrase => phrase)
    cases pc with
    | generating =>
      exact sound_of_quiet sound there rfl rfl same (fun counts =>
        (sound address).abandon counts rfl fun phrase => phrase)
    | answered status => exact sound
    | abandoned => exact sound
    | died inside => exact sound
    | locking => exact dies rfl
    | exporting => exact dies rfl
    | verifying => exact dies rfl
    | ensuring created => exact dies rfl

/-- A request that was accepted waits for the lock. -/
theorem locking_of_accept {body : Option Query} (good : accept chars body = .ok r) :
    r.pc = .locking := by
  unfold accept at good
  split at good
  · cases good
  · split at good
    · cases good
    · cases good
    · split at good
      · cases good
        rfl
      · cases good

/-- What is true of every address stays true with every event. -/
theorem step_sound (sound : ∀ email, Sound gpg s email) (event : Event) (email : String) :
    Sound gpg (step chars gpg s event) email := by
  have goes (i : Nat) :
      Sound gpg ((s.requests[i]?).elim s fun r => s.progress gpg i r event) email := by
    cases there : s.requests[i]? with
    | none => exact sound email
    | some r => exact progress_sound sound there event email
  cases event with
  | post body =>
    unfold step
    dsimp only
    cases good : accept chars body with
    | error status => exact sound email
    | ok r =>
      have counts : ∀ p : Pc → Bool, p .locking = false →
          ({ s with requests := s.requests ++ [r] } : Host).countAt email p =
            s.countAt email p := by
        intro p silent
        unfold countAt
        rw [List.countP_append, List.countP_singleton, locking_of_accept good, silent]
        rfl
      have reads : ({ s with requests := s.requests ++ [r] } : Host).Reads gpg → s.Reads gpg :=
        fun read r member => read r (List.mem_append_left _ member)
      have ⟨alone, keys, once, kept, told⟩ := sound email
      rw [← counts _ rfl] at alone kept told
      rw [← counts _ rfl, ← counts _ rfl] at keys once
      exact ⟨alone, fun read => keys (reads read), once, kept, told⟩
  | lock i opens => exact goes i
  | exported i understood => exact goes i
  | generate i added zero => exact goes i
  | ensure i writable => exact goes i
  | die i => exact goes i

/-- What is true of every address is true after every run. -/
theorem run_sound (chars : CharClasses) (gpg : Gpg) (events : List Event)
    (email : String) : Sound gpg (run chars gpg events) email := by
  have keeps : ∀ s : Host, (∀ email, Sound gpg s email) →
      ∀ email, Sound gpg (events.foldl (step chars gpg) s) email := by
    induction events with
    | nil => exact fun _ sound => sound
    | cons event events ih => exact fun s sound => ih _ (step_sound sound event)
  exact keeps {} (fun _ => ⟨Nat.zero_le _, fun _ => Nat.zero_le _, Nat.zero_le _,
    fun no => absurd no (Nat.lt_irrefl 0), fun no => absurd no (Nat.lt_irrefl 0)⟩) email

/-- A step of a request changes no request but for its place. -/
theorem requests_progress (gpg : Gpg) (there : s.requests[i]? = some r)
    (event : Event) :
    ∃ pc, (s.progress gpg i r event).requests = s.requests.set i { r with pc := pc } := by
  have stays : s.requests = s.requests.set i { r with pc := r.pc } := by
    obtain ⟨bound, same⟩ := List.getElem?_eq_some_iff.mp there
    rw [← same, List.set_getElem_self]
  cases event with
  | post body => exact ⟨_, stays⟩
  | lock j opens =>
    simp only [progress]
    split_ifs
    · exact ⟨_, rfl⟩
    · refine ⟨.exporting, ?_⟩
      have same : (s.touch (lockFile r.email)).requests = s.requests := by
        unfold touch
        split <;> rfl
      exact congrArg (fun l : List Request => l.set i { r with pc := .exporting }) same
    · exact ⟨_, stays⟩
  | exported j understood =>
    simp only [progress]
    split_ifs
    all_goals first | exact ⟨_, rfl⟩ | exact ⟨_, stays⟩
  | generate j added zero =>
    simp only [progress]
    split_ifs
    all_goals first | exact ⟨_, rfl⟩ | exact ⟨_, stays⟩
  | ensure j writable =>
    cases pc : r.pc with
    | ensuring created =>
      simp only [progress, pc]
      split_ifs <;> exact ⟨_, rfl⟩
    | _ =>
      simp only [progress, pc]
      exact ⟨_, stays⟩
  | die j =>
    cases pc : r.pc with
    | answered status =>
      simp only [progress, pc]
      exact ⟨_, stays⟩
    | abandoned =>
      simp only [progress, pc]
      exact ⟨_, stays⟩
    | died inside =>
      simp only [progress, pc]
      exact ⟨_, stays⟩
    | _ =>
      simp only [progress, pc]
      exact ⟨_, rfl⟩

/-- What is true of the requests that are accepted is true of those of a run. -/
theorem requests_run {p : String → String → Prop} (events : List Event)
    (accepted : ∀ query r, Event.post (some query) ∈ events → accept chars (some query) = .ok r →
      p r.email r.parameters) :
    ∀ r ∈ (run chars gpg events).requests, p r.email r.parameters := by
  have keeps : ∀ s : Host, (∀ r ∈ s.requests, p r.email r.parameters) →
      ∀ r ∈ (events.foldl (step chars gpg) s).requests, p r.email r.parameters := by
    induction events with
    | nil => exact fun _ good => good
    | cons event events ih =>
      refine fun s good => ih (fun query r member =>
        accepted query r (List.mem_cons_of_mem _ member)) _ ?_
      have goes (i : Nat) : ∀ r ∈ ((s.requests[i]?).elim s fun r =>
          s.progress gpg i r event).requests, p r.email r.parameters := by
        cases there : s.requests[i]? with
        | none => exact good
        | some old =>
          obtain ⟨pc, moved⟩ := requests_progress gpg there event
          intro r member
          rw [Option.elim_some, moved] at member
          rcases List.mem_or_eq_of_mem_set member with before | rfl
          · exact good r before
          · exact good old (List.mem_of_getElem? there)
      cases event with
      | post body =>
        unfold step
        dsimp only
        cases told : accept chars body with
        | error status => exact good
        | ok new =>
          intro r member
          rcases List.mem_append.mp member with before | same
          · exact good r before
          · rw [List.mem_singleton.mp same]
            cases body with
            | none => exact absurd told (by simp [accept])
            | some query => exact accepted query new List.mem_cons_self told
      | lock i opens => exact goes i
      | exported i understood => exact goes i
      | generate i added zero => exact goes i
      | ensure i writable => exact goes i
      | die i => exact goes i
  exact keeps {} fun _ none => absurd none List.not_mem_nil

/-- Where `gpg` reads in every parameter file the address of the request and nothing else, there is
one key at most for an address, and one more for every process that has died while
`gpg --gen-key` was running for it. -/
theorem keys_of_address (chars : CharClasses) (gpg : Gpg) (events : List Event)
    (reads : ∀ query r, Event.post (some query) ∈ events → accept chars (some query) = .ok r →
      gpg.addresses r.parameters = [r.email]) (email : String) :
    (run chars gpg events).keyring.count email ≤
      (run chars gpg events).countAt email Pc.diedGenerating + 1 := by
  have every : (run chars gpg events).Reads gpg :=
    requests_run (p := fun email parameters => gpg.addresses parameters = [email]) events reads
  have keys := (run_sound chars gpg events email).keys every
  omega

/-- The addresses in a parameter file whose fields are lines. -/
def nameEmails (parameters : String) : List String :=
  (parameters.toList.splitOn '\n').filterMap fun line =>
    if "Name-Email: ".toList.isPrefixOf line then some (String.ofList (line.drop 12)) else none

/-- A `gpg` for parameter files whose fields are lines. It finds keys whatever the case of the
letters of ASCII is. -/
def lineGpg : Gpg where
  addresses := nameEmails
  finds asked key := asked.toList.map Char.toLower == key.toList.map Char.toLower
  finds_self _ := beq_self_eq_true _

/-- A request for the key of a project. -/
def helloQuery : Query :=
  { nameReal := some "alice_hello", nameEmail := some "alice#hello@copr.org" }

/-- Two requests for one key: the first dies while `gpg --gen-key` runs, which adds its key when
the second has found none. -/
theorem keys_of_hello :
    (run .ascii lineGpg [.post (some helloQuery), .post (some helloQuery), .lock 0 true,
      .exported 0 true, .die 0, .lock 1 true, .exported 1 true, .generate 0 1 true,
      .generate 1 1 true]).keyring.count "alice#hello@copr.org" ≤
    (run .ascii lineGpg [.post (some helloQuery), .post (some helloQuery), .lock 0 true,
      .exported 0 true, .die 0, .lock 1 true, .exported 1 true, .generate 0 1 true,
      .generate 1 1 true]).countAt "alice#hello@copr.org" Pc.diedGenerating + 1 := by
  refine keys_of_address .ascii lineGpg _ (fun query r member told => ?_) _
  have same : query = helloQuery := by simpa using member
  have reads : lineGpg.addresses (parameters "alice_hello" "alice#hello@copr.org" helloQuery) =
      ["alice#hello@copr.org"] := by decide +kernel
  have given : accept .ascii (some helloQuery) = .ok ⟨"alice#hello@copr.org",
      parameters "alice_hello" "alice#hello@copr.org" helloQuery, .locking⟩ := by rfl
  rw [same, given] at told
  cases told
  exact reads

end Runs

end Copr.Keygen
