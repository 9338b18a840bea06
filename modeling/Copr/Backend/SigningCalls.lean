import Copr.Backend.Signing

/-!
# What is run to sign packages

`sign_rpms_in_dir` signs no package before the project is known to have a key, signs with no other
key and no other hash, and runs `/bin/sign` at most three times for a package, not again once it has
exited with zero. The answers are arbitrary.
-/

namespace Copr.Signing

open Programs SafeRequest Keygen

/-- How often `/bin/sign` was run for a package. -/
def tries (path : String) : List Event → Nat
  | [] => 0
  | .ran (.sign _ _ signed) _ :: earlier =>
    (if signed = path then 1 else 0) + tries path earlier
  | _ :: earlier => tries path earlier

/-- A package was signed. -/
def Succeeded (path : String) (events : List Event) : Prop :=
  ∃ hashtype email outcome, .ran (.sign hashtype email path) outcome ∈ events ∧ outcome.zero = true

/-- The project is known to have a key: it was given, or the key generator has answered. -/
def KeyKnown (email : String) (events : List Event) : Prop :=
  (∃ outcome, .ran (.pubkey email) outcome ∈ events ∧ outcome.zero = true) ∨
    ∃ nameReal status, .generated nameReal email status ∈ events ∧ status < 400

/-- What may happen after what has happened before. -/
def Permitted (email hashtype : String) (rpms : List String) : Event → List Event → Prop
  | .ran (.sign used signer path) _, earlier =>
    used = hashtype ∧ signer = email ∧ path ∈ rpms ∧ KeyKnown email earlier ∧
      tries path earlier < 3 ∧ ¬ Succeeded path earlier
  | .ran (.pubkey asked) _, _ => asked = email
  | .ran (.delsign _) _, _ => False
  | .generated _ asked _, _ => asked = email

/-- Everything that has happened was permitted when it happened. -/
def Careful (email hashtype : String) (rpms : List String) : List Event → Prop
  | [] => True
  | event :: earlier =>
    Permitted email hashtype rpms event earlier ∧ Careful email hashtype rpms earlier

/-- Since some time nothing has happened but what is permitted, and something is known about it. -/
def Since (email hashtype : String) (rpms : List String) (old : List Event)
    (known : List Event → Prop) (s : Host) : Prop :=
  ∃ new, s.trace = new ++ old ∧ Careful email hashtype rpms new ∧ known new

/-- However a program ends, nothing has happened but what is permitted. -/
def keeping (email hashtype : String) (rpms : List String) (old : List Event) : Exits Host Exn :=
  ⟨fun _ => Since email hashtype rpms old fun _ => True,
    Since email hashtype rpms old fun _ => True⟩

section Calls

variable {env : Env} {email hashtype username projectname chroot dir rpm : String}
  {rpms : List String} {old : List Event} {known after : List Event → Prop} {command : Command}

/-- The events since the beginning may be described by less than is known of them. -/
theorem Since.imp {s : Host} (since : Since email hashtype rpms old known s)
    (more : ∀ new, known new → after new) : Since email hashtype rpms old after s := by
  obtain ⟨new, trace, careful, holds⟩ := since
  exact ⟨new, trace, careful, more new holds⟩

/-- A program that is permitted after what has happened is run, and is the newest event then. -/
theorem popen_since {exits : Exits Host Exn}
    (permitted : ∀ new outcome, known new →
      Permitted email hashtype rpms (.ran command outcome) new) :
    Meets (Since email hashtype rpms old known) (popen env command)
      (fun outcome => Since email hashtype rpms old fun new =>
        ∃ earlier, new = .ran command outcome :: earlier ∧ known earlier) exits := by
  rintro s ⟨new, trace, careful, holds⟩
  refine ⟨.ran command (env.popen s.clock command) :: new, ?_, ?_, new, rfl, holds⟩
  · change _ :: s.trace = _
    rw [trace, List.cons_append]
  · exact ⟨permitted new _ holds, careful⟩

/-- An attempt: the exit status is that of the program. -/
theorem invoke_since
    (permitted : ∀ new outcome, known new →
      Permitted email hashtype rpms (.ran command outcome) new) :
    Meets (Since email hashtype rpms old known) (invoke env command)
      (fun result => Since email hashtype rpms old fun new => ∃ outcome earlier,
        new = .ran command outcome :: earlier ∧ known earlier ∧
          (outcome.zero = true ↔ result.1 = 0))
      ⟨fun _ => Since email hashtype rpms old fun new => ∃ outcome earlier,
        new = .ran command outcome :: earlier ∧ known earlier ∧ outcome.zero = false,
      fun _ => False⟩ := by
  refine Meets.bind (popen_since permitted) fun outcome => ?_
  cases outcome with
  | exited returncode stdout stderr =>
    refine Meets.pure fun s since => since.imp ?_
    rintro new ⟨earlier, same, holds⟩
    exact ⟨_, earlier, same, holds, beq_iff_eq⟩
  | failed =>
    refine Meets.raise fun s since => since.imp ?_
    rintro new ⟨earlier, same, holds⟩
    exact ⟨_, earlier, same, holds, rfl⟩
  | other =>
    refine Meets.raise fun s since => since.imp ?_
    rintro new ⟨earlier, same, holds⟩
    exact ⟨_, earlier, same, holds, rfl⟩

/-- Attempts, with what is known while so many more are left. -/
theorem attempts_since {stage : Nat → List Event → Prop} {failed : List Event → Prop}
    (permitted : ∀ more new outcome, stage more new →
      Permitted email hashtype rpms (.ran command outcome) new)
    (again : ∀ more new outcome, stage (more + 1) new → outcome.zero = false →
      stage more (.ran command outcome :: new))
    (done : ∀ more new outcome, stage more new → outcome.zero = true →
      after (.ran command outcome :: new))
    (gaveUp : ∀ more new outcome, stage more new → outcome.zero = false →
      failed (.ran command outcome :: new)) (more : Nat) :
    Meets (Since email hashtype rpms old (stage more)) (attempts env command more)
      (fun result => Since email hashtype rpms old fun new =>
        if result.1 = 0 then after new else failed new)
      ⟨fun _ => Since email hashtype rpms old failed, fun _ => False⟩ := by
  have invoked : ∀ more, Meets (Since email hashtype rpms old (stage more)) (invoke env command)
      (fun result => Since email hashtype rpms old fun new => ∃ outcome earlier,
        new = .ran command outcome :: earlier ∧ stage more earlier ∧
          (outcome.zero = true ↔ result.1 = 0))
      ⟨fun _ => Since email hashtype rpms old failed, fun _ => False⟩ := by
    intro more
    refine Meets.weaken (invoke_since (permitted more)) (fun _ since => since)
      (fun _ _ since => since) (fun e s since => since.imp ?_) (fun _ no => no)
    rintro new ⟨outcome, earlier, rfl, holds, nonzero⟩
    exact gaveUp more earlier outcome holds nonzero
  have settled : ∀ more (result : Int × String × String) new, (∃ outcome earlier,
      new = .ran command outcome :: earlier ∧ stage more earlier ∧
        (outcome.zero = true ↔ result.1 = 0)) → if result.1 = 0 then after new else failed new := by
    rintro more result new ⟨outcome, earlier, rfl, holds, iff⟩
    split
    · next zero => exact done more earlier outcome holds (iff.mpr zero)
    · next nonzero =>
      have failing : outcome.zero = false := Bool.eq_false_iff.mpr fun yes => nonzero (iff.mp yes)
      exact gaveUp more earlier outcome holds failing
  induction more with
  | zero =>
    exact Meets.weaken (invoked 0) (fun _ since => since)
      (fun result s since => since.imp (settled 0 result)) (fun _ _ since => since)
      (fun _ no => no)
  | succ more ih =>
    refine Meets.bind (invoked (more + 1)) fun result =>
      Meets.ite (fun nonzero => ?_) fun zero => ?_
    · refine Meets.assume ih fun s since => since.imp ?_
      rintro new ⟨outcome, earlier, rfl, holds, iff⟩
      exact again more earlier outcome holds
        (Bool.eq_false_iff.mpr fun yes => nonzero (iff.mp yes))
    · exact Meets.pure fun s since => since.imp (settled (more + 1) result)

/-- Something that is known of the key stays known. -/
theorem KeyKnown.cons {events : List Event} {event : Event} (key : KeyKnown email events) :
    KeyKnown email (event :: events) := by
  rcases key with ⟨outcome, member, zero⟩ | ⟨nameReal, status, member, accepted⟩
  · exact Or.inl ⟨outcome, List.mem_cons_of_mem event member, zero⟩
  · exact Or.inr ⟨nameReal, status, List.mem_cons_of_mem event member, accepted⟩

/-- A package that was not tried was not signed. -/
theorem not_succeeded_of_untried {path : String} {events : List Event}
    (untried : tries path events = 0) : ¬ Succeeded path events := by
  rintro ⟨used, signer, outcome, member, zero⟩
  induction events with
  | nil => exact absurd member List.not_mem_nil
  | cons event earlier ih =>
    rcases List.mem_cons.mp member with rfl | before
    · rw [tries, if_pos rfl] at untried
      omega
    · refine ih ?_ before
      cases event with
      | generated nameReal nameEmail status => exact untried
      | ran command outcome =>
        cases command with
        | pubkey asked => exact untried
        | delsign path => exact untried
        | sign used signer signed =>
          rw [tries] at untried
          omega

/-- No package was tried so far. -/
def Fresh (events : List Event) : Prop := ∀ path, tries path events = 0

/-- The key is known, and no package was tried but those that have had their turn. -/
def Turns (email : String) (passed : List String) (events : List Event) : Prop :=
  KeyKnown email events ∧ ∀ path ∉ passed, tries path events = 0

/-- A package has its turn, with so many attempts left after the next one. -/
def Turn (email : String) (passed : List String) (rpm : String) (more : Nat)
    (events : List Event) : Prop :=
  KeyKnown email events ∧ tries rpm events + more < 3 ∧ ¬ Succeeded rpm events ∧
    ∀ path ∉ passed, path ≠ rpm → tries path events = 0

/-- After one more call the package of a turn has had its turn. -/
theorem Turn.passed {passed : List String} {more : Nat} {events : List Event} {outcome : Outcome}
    (turn : Turn email passed rpm more events) :
    Turns email (passed ++ [rpm]) (.ran (.sign hashtype email rpm) outcome :: events) := by
  refine ⟨turn.1.cons, fun path new => ?_⟩
  have other : path ≠ rpm := fun same => new (by simp [same])
  have before : path ∉ passed := fun member => new (List.mem_append_left [rpm] member)
  rw [tries, if_neg (Ne.symm other), Nat.zero_add]
  exact turn.2.2.2 path before other

/-- After a call that failed the package may be tried once more, with one attempt less. -/
theorem Turn.again {passed : List String} {more : Nat} {events : List Event} {outcome : Outcome}
    (turn : Turn email passed rpm (more + 1) events) (nonzero : outcome.zero = false) :
    Turn email passed rpm more (.ran (.sign hashtype email rpm) outcome :: events) := by
  refine ⟨turn.1.cons, ?_, ?_, fun path new other => ?_⟩
  · have few := turn.2.1
    rw [tries, if_pos rfl]
    omega
  · rintro ⟨used, signer, answer, member, zero⟩
    rcases List.mem_cons.mp member with same | before
    · obtain ⟨-, rfl⟩ := Event.ran.inj same
      exact absurd zero (by simp [nonzero])
    · exact turn.2.2.1 ⟨used, signer, answer, before, zero⟩
  · rw [tries, if_neg (Ne.symm other), Nat.zero_add]
    exact turn.2.2.2 path new other

/-- `_sign_one`, when it is the turn of its package. -/
theorem signOne_since {passed : List String} (member : rpm ∈ rpms) :
    Meets (Since email hashtype rpms old (Turn email passed rpm 2))
      (signOne env rpm email hashtype)
      (fun _ => Since email hashtype rpms old (Turns email (passed ++ [rpm])))
      ⟨fun _ => Since email hashtype rpms old (Turns email (passed ++ [rpm])),
        fun _ => False⟩ := by
  have called : Meets (Since email hashtype rpms old (Turn email passed rpm 2))
      (callSignBin env (.sign hashtype email rpm))
      (fun result => Since email hashtype rpms old fun new =>
        if result.1 = 0 then Turns email (passed ++ [rpm]) new
        else Turns email (passed ++ [rpm]) new)
      ⟨fun _ => Since email hashtype rpms old (Turns email (passed ++ [rpm])),
        fun _ => False⟩ := by
    refine attempts_since (fun more new outcome turn => ?_)
      (fun more new outcome turn nonzero => turn.again nonzero)
      (fun more new outcome turn zero => turn.passed)
      (fun more new outcome turn nonzero => turn.passed) 2
    have few : tries rpm new < 3 := Nat.lt_of_le_of_lt (Nat.le_add_right _ more) turn.2.1
    exact ⟨rfl, rfl, member, turn.1, few, turn.2.2.1⟩
  simp only [ite_self] at called
  refine Meets.bind called fun result => Meets.ite (fun failed => ?_) fun zero => ?_
  · exact Meets.raise fun s since => since
  · exact Meets.pure fun s since => since

/-- Before a package is tried, its turn begins. -/
theorem Turns.turn {passed : List String} {events : List Event} (turns : Turns email passed events)
    (new : rpm ∉ passed) : Turn email passed rpm 2 events := by
  have untried := turns.2 rpm new
  refine ⟨turns.1, by omega, not_succeeded_of_untried untried, fun path before _ => ?_⟩
  exact turns.2 path before

/-- The loop over the packages runs the signing program only as it is permitted. -/
theorem collect_since (nodup : rpms.Nodup) :
    Meets (Since email hashtype rpms old (Turns email []))
      (collect (fun rpm => signOne env rpm email hashtype) rpms)
      (fun _ => Since email hashtype rpms old fun _ => True)
      (keeping email hashtype rpms old) := by
  refine Meets.weaken (Meets.fold (fun passed (_ : List (String × Exn)) =>
    Since email hashtype rpms old (Turns email passed)) ?_ []) (fun _ since => since)
    (fun _ _ since => since.imp fun _ _ => trivial) (fun _ _ since => since) (fun _ since => since)
  intro passed rpm rest errors all
  have new : rpm ∉ passed := by
    rw [all] at nodup
    exact fun member => (List.nodup_append.mp nodup).2.2 rpm member rpm List.mem_cons_self rfl
  have member : rpm ∈ rpms := by
    rw [all]
    exact List.mem_append_right passed List.mem_cons_self
  have signed : Meets (Since email hashtype rpms old (Turns email passed))
      (signOne env rpm email hashtype)
      (fun _ => Since email hashtype rpms old (Turns email (passed ++ [rpm])))
      ⟨fun _ => Since email hashtype rpms old (Turns email (passed ++ [rpm])),
        fun _ => False⟩ :=
    Meets.assume (signOne_since member) fun s since => since.imp fun events turns => turns.turn new
  exact Meets.handle (fun _ => Since email hashtype rpms old (Turns email (passed ++ [rpm])))
    (Meets.bind (Meets.weaken signed (fun _ since => since) (fun _ _ since => since)
      (fun _ _ since => since) (fun _ no => no.elim)) fun _ => Meets.pure fun s since => since)
    fun e => Meets.ite (fun caught => Meets.pure fun s since => since)
      fun uncaught => Meets.raise fun s since => since.imp fun _ _ => trivial

/-! ## The key -/

/-- `get_pubkey`: after it has returned, the key is known. -/
theorem getPubkey_since (given : createGpgEmail username projectname env.signDomain = email) :
    Meets (Since email hashtype rpms old Fresh) (getPubkey env username projectname none)
      (fun _ => Since email hashtype rpms old (Turns email []))
      ⟨fun _ => Since email hashtype rpms old Fresh, fun _ => False⟩ := by
  have called : Meets (Since email hashtype rpms old Fresh) (callSignBin env (.pubkey email))
      (fun result => Since email hashtype rpms old fun new =>
        if result.1 = 0 then Turns email [] new else Fresh new)
      ⟨fun _ => Since email hashtype rpms old Fresh, fun _ => False⟩ := by
    have permitted : ∀ (more : Nat) new outcome, Fresh new →
        Permitted email hashtype rpms (.ran (.pubkey email) outcome) new := fun _ _ _ _ => rfl
    have still : ∀ (more : Nat) new outcome, Fresh new → outcome.zero = false →
        Fresh (.ran (.pubkey email) outcome :: new) := fun _ _ _ fresh _ => fresh
    refine attempts_since permitted still (fun more new outcome fresh zero => ?_) still 2
    exact ⟨Or.inl ⟨outcome, List.mem_cons_self, zero⟩, fun path _ => fresh path⟩
  unfold getPubkey
  rw [given]
  refine Meets.bind called fun result => Meets.ite (fun failed => ?_) fun zero => ?_
  · simp only [if_neg failed]
    exact Meets.ite (fun unknown => Meets.raise fun s since => since)
      fun another => Meets.raise fun s since => since
  · simp only [if_pos (not_not.mp zero)]
    exact Meets.through (fun _ => Since email hashtype rpms old (Turns email []))
      (Meets.pure fun s since => since) fun _ => Meets.pure fun s since => since

/-- `create_user_keys`: after it has returned, the key is known. -/
theorem createUserKeys_since (given : createGpgEmail username projectname env.signDomain = email)
    {tryIndefinitely : Bool} :
    Meets (Since email hashtype rpms old Fresh)
      (createUserKeys env username projectname tryIndefinitely)
      (fun _ => Since email hashtype rpms old (Turns email []))
      (keeping email hashtype rpms old) := by
  have requested : Meets (Since email hashtype rpms old Fresh) (requestKeys env tryIndefinitely)
      (fun _ => Since email hashtype rpms old Fresh) (keeping email hashtype rpms old) := by
    unfold requestKeys
    cases limit none tryIndefinitely with
    | none => exact Meets.raise fun s since => since.imp fun _ _ => trivial
    | some attempts =>
      refine Meets.within fun s since line same => ?_
      cases sendRequestRepeatedly env.replies attempts env.patience line with
      | mk ending t =>
        cases ending with
        | value status => exact since
        | raised e => exact since.imp fun _ _ => trivial
        | killed => exact since.imp fun _ _ => trivial
  refine Meets.bind requested fun status => ?_
  refine Meets.through (fun _ => Since email hashtype rpms old fun new => ∃ nameReal earlier,
    new = .generated nameReal email status :: earlier ∧ Fresh earlier) (Meets.change ?_) fun _ => ?_
  · rintro s ⟨new, trace, careful, fresh⟩
    refine ⟨.generated (username ++ "_" ++ projectname) email status :: new, ?_, ⟨rfl, careful⟩, _,
      new, rfl, fresh⟩
    change .generated _ (createGpgEmail username projectname env.signDomain) status :: s.trace = _
    rw [given, trace, List.cons_append]
  · refine Meets.ite (fun refused => Meets.raise fun s since => since.imp fun _ _ => trivial)
      fun accepted => Meets.pure fun s since => since.imp ?_
    rintro new ⟨nameReal, earlier, rfl, fresh⟩
    refine ⟨Or.inr ⟨nameReal, status, List.mem_cons_self, Nat.lt_of_not_ge accepted⟩, ?_⟩
    exact fun path _ => fresh path

/-- After the key was asked for, and created if there was none, it is known. -/
theorem ensureKey_since (given : createGpgEmail username projectname env.signDomain = email) :
    Meets (Since email hashtype rpms old Fresh) (ensureKey env username projectname)
      (fun _ => Since email hashtype rpms old (Turns email []))
      (keeping email hashtype rpms old) := by
  refine Meets.handle (fun _ => Since email hashtype rpms old Fresh)
    (Meets.bind (Meets.weaken (getPubkey_since given) (fun _ since => since)
      (fun _ _ since => since) (fun _ _ since => since) (fun _ no => no.elim))
      fun _ => Meets.pure fun s since => since) fun e => ?_
  cases e with
  | coprSignNoKeyError problem => exact createUserKeys_since given
  | coprSignError problem => exact Meets.raise fun s since => since.imp fun _ _ => trivial
  | coprKeygenRequestError => exact Meets.raise fun s since => since.imp fun _ _ => trivial
  | other => exact Meets.raise fun s since => since.imp fun _ _ => trivial

/-- No package is tried more than three times. -/
theorem tries_le {path : String} {events : List Event}
    (careful : Careful email hashtype rpms events) : tries path events ≤ 3 := by
  induction events with
  | nil => exact Nat.zero_le 3
  | cons event earlier ih =>
    have before := ih careful.2
    cases event with
    | generated nameReal nameEmail status => exact before
    | ran command outcome =>
      cases command with
      | pubkey asked => exact before
      | delsign removed => exact before
      | sign used signer signed =>
        have few := careful.1.2.2.2.2.1
        rw [tries]
        split
        · next same =>
          rw [same] at few
          omega
        · omega

/-- What is run by `sign_rpms_in_dir`. -/
def Ran (env : Env) (email chroot dir : String) (old : List Event) (s : Host) : Prop :=
  ∃ new, s.trace = new ++ old ∧ (new = [] ∨ ∃ hashtype,
    gpgHashtypeForChroot env chroot = some hashtype ∧
      Careful email hashtype (rpmsIn env dir) new ∧ ∀ path, tries path new ≤ 3)

/-- What has happened since some time was permitted. -/
theorem Since.ran {s : Host} (chosen : gpgHashtypeForChroot env chroot = some hashtype)
    (since : Since email hashtype (rpmsIn env dir) old known s) :
    Ran env email chroot dir old s := by
  obtain ⟨new, trace, careful, _⟩ := since
  exact ⟨new, trace, Or.inr ⟨hashtype, chosen, careful, fun path => tries_le careful⟩⟩

/-- `sign_rpms_in_dir` runs nothing but what is permitted, however it ends. -/
theorem signing_careful (env : Env) (username projectname dir chroot : String) (s : Host) :
    Ran env (createGpgEmail username projectname env.signDomain) chroot dir s.trace
      (signRpmsInDir env username projectname dir chroot s).2 := by
  let email := createGpgEmail username projectname env.signDomain
  let ends : Finish Exn Unit → Host → Prop := fun _ => Ran env email chroot dir s.trace
  have unchanged : ∀ t : Host, t.trace = s.trace → Ran env email chroot dir s.trace t :=
    fun t same => ⟨[], same, Or.inl rfl⟩
  have ran : Meets (fun t => t.trace = s.trace) (signRpmsInDir env username projectname dir chroot)
      (fun a => ends (.value a)) ⟨fun e => ends (.raised e), ends .killed⟩ := by
    refine Meets.bind (scan_meets unchanged) fun rpms => ?_
    refine Meets.given fun same => ?_
    subst same
    refine Meets.ite (fun none => Meets.pure unchanged) fun several => ?_
    refine Meets.bind (hashtypeFor_meets unchanged) fun hashtype => ?_
    refine Meets.given fun chosen => ?_
    have begun : ∀ t : Host, t.trace = s.trace →
        Since email hashtype (rpmsIn env dir) s.trace Fresh t :=
      fun t same => ⟨[], same, trivial, fun path => rfl⟩
    have left : ∀ e t, (keeping email hashtype (rpmsIn env dir) s.trace).raised e t →
        ends (.raised e) t := fun e t since => Since.ran chosen since
    have killed : ∀ t, (keeping email hashtype (rpmsIn env dir) s.trace).killed t →
        ends .killed t := fun t since => Since.ran chosen since
    refine Meets.bind (Meets.weaken (ensureKey_since rfl) begun (fun _ _ since => since) left
      killed) fun _ => ?_
    refine Meets.through (fun _ => Since email hashtype (rpmsIn env dir) s.trace fun _ => True)
      (Meets.weaken (collect_since rpmsIn_nodup) (fun _ since => since) (fun _ _ since => since)
        left killed) fun errors => ?_
    exact Meets.ite (fun none => Meets.pure fun t since => since.ran chosen)
      fun failed => Meets.raise fun t since => since.ran chosen
  exact Meets.ended ends ran rfl

end Calls

end Copr.Signing
