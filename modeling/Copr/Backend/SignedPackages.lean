import Copr.Backend.Signing
import Mathlib.Logic.Function.Basic

/-!
# The signatures after signing

Which signatures the packages of a directory have when `resign_rpms_in_dir` has ended, in whichever
way. Of the programs it is assumed that one that exits with a failure or is not started leaves its
package as it is, that `rpm --delsign` removes the signatures, and that `/bin/sign` signs a package
that has none. When the output of a program could not be read, it may have done its work or not.
-/

namespace Copr.Signing

open Programs SafeRequest Keygen

/-- The programs do what they are for. -/
structure Env.Faithful (env : Env) : Prop where
  /-- A package without signatures is signed. -/
  sign : ∀ n hashtype email path, (env.popen n (.sign hashtype email path)).zero = true →
    env.effect n (.sign hashtype email path) [] = [⟨email, hashtype⟩]
  /-- The signatures are removed. -/
  delsign : ∀ n path signatures, (env.popen n (.delsign path)).zero = true →
    env.effect n (.delsign path) signatures = []
  /-- A program that exits with a failure, or is not started, leaves its package as it is. -/
  failed : ∀ n command signatures, (env.popen n command).zero = false →
    env.popen n command ≠ .other → env.effect n command signatures = signatures
  /-- A package without signatures is signed or not when the output could not be read. -/
  unreadSign : ∀ n hashtype email path, env.popen n (.sign hashtype email path) = .other →
    env.effect n (.sign hashtype email path) [] = [] ∨
      env.effect n (.sign hashtype email path) [] = [⟨email, hashtype⟩]
  /-- The signatures are removed or not when the output could not be read. -/
  unreadDelsign : ∀ n path signatures, env.popen n (.delsign path) = .other →
    env.effect n (.delsign path) signatures = signatures ∨
      env.effect n (.delsign path) signatures = []

/-- The packages are so. -/
def Holding (packages : String → List Signature) (s : Host) : Prop := s.packages = packages

/-- Where the packages are so, whatever is raised. -/
def leaving (packages : String → List Signature) (possible : Exn → Prop) : Exits Host Exn :=
  ⟨fun e s => Holding packages s ∧ possible e, fun _ => False⟩

/-- Where the packages are so whatever is raised, or have become others before an exception that is
no error of the program. -/
def breaking (packages changed : String → List Signature) (possible : Exn → Prop) :
    Exits Host Exn :=
  ⟨fun e s => (Holding packages s ∨ (e = .other ∧ Holding changed s)) ∧ possible e, fun _ => False⟩

/-- What a program for one package raises. -/
def Expected (e : Exn) : Prop := e.isSignError = true ∨ e = .other

/-- A program that may raise some exceptions only may raise those and more. -/
theorem Breaks.more {α : Type} {before : Host → Prop} {x : Part α} {after : α → Host → Prop}
    {packages changed : String → List Signature} {possible more : Exn → Prop}
    (meets : Meets before x after (breaking packages changed possible))
    (so : ∀ e, possible e → more e) : Meets before x after (breaking packages changed more) :=
  Meets.weaken meets (fun _ known => known) (fun _ _ known => known)
    (fun e _ known => ⟨known.1, so e known.2⟩) (fun _ known => known)

/-- A program is run: with `zero` the packages become others, without it they stay, and when its
output could not be read either is possible. -/
def Runs (env : Env) (command : Command) (packages changed : String → List Signature) : Prop :=
  Meets (Holding packages) (popen env command)
    (fun outcome s => if outcome.zero = true then Holding changed s
      else Holding packages s ∨ (outcome = .other ∧ Holding changed s))
    (breaking packages changed fun _ => False)

section Programs

variable {env : Env} {packages changed : String → List Signature} {command : Command}
  {path rpm email hashtype : String}

/-- What is left of the packages when one of them has got these signatures. -/
theorem effect_eq {packages : String → List Signature} {n : Nat} {signatures : List Signature}
    (about : command.package = some rpm)
    (same : env.effect n command (packages rpm) = signatures) :
    (fun path => if command.package = some path then env.effect n command (packages path)
      else packages path) = Function.update packages rpm signatures := by
  funext path
  by_cases this : path = rpm
  · rw [this, about, if_pos rfl, Function.update_self]
    exact same
  · have another : command.package ≠ some path := by
      rw [about]
      exact fun equal => this (Option.some.inj equal).symm
    rw [if_neg another, Function.update_of_ne this]

/-- A program for a package does what it is for, or leaves the package as it is. -/
theorem runs_package {after : List Signature} (faithful : env.Faithful)
    (about : command.package = some rpm)
    (does : ∀ n, (env.popen n command).zero = true → env.effect n command (packages rpm) = after)
    (unread : ∀ n, env.popen n command = .other →
      env.effect n command (packages rpm) = packages rpm ∨
        env.effect n command (packages rpm) = after) :
    Runs env command packages (Function.update packages rpm after) := by
  intro s holding
  have becomes : ∀ signatures, env.effect s.clock command (packages rpm) = signatures →
      Holding (Function.update packages rpm signatures) (popen env command s).2 := by
    intro signatures same
    have before : s.packages = packages := holding
    change (fun path => if command.package = some path then
      env.effect s.clock command (s.packages path) else s.packages path) = _
    rw [before]
    exact effect_eq about same
  have stays : env.effect s.clock command (packages rpm) = packages rpm →
      Holding packages (popen env command s).2 := by
    intro same
    have kept := becomes _ same
    rwa [Function.update_eq_self] at kept
  change if (env.popen s.clock command).zero = true then _ else _
  split
  · next zero => exact becomes after (does s.clock zero)
  · next failed =>
    by_cases other : env.popen s.clock command = .other
    · rcases unread s.clock other with kept | changed
      · exact Or.inl (stays kept)
      · exact Or.inr ⟨other, becomes after changed⟩
    · exact Or.inl (stays (faithful.failed s.clock command (packages rpm)
        (Bool.eq_false_iff.mpr failed) other))

/-- A program without a package changes none. -/
theorem runs_other (none : command.package = none) : Runs env command packages packages := by
  intro s holding
  have same : Holding packages (popen env command s).2 := by
    change (fun path => if command.package = some path then
      env.effect s.clock command (s.packages path) else s.packages path) = _
    rw [none]
    exact holding
  change if (env.popen s.clock command).zero = true then _ else _
  split
  · exact same
  · exact Or.inl same

/-- One attempt: the packages have changed when the status is zero, and are as they were otherwise.
-/
theorem invoke_holding (runs : Runs env command packages changed) :
    Meets (Holding packages) (invoke env command)
      (fun result => Holding (if result.1 = 0 then changed else packages))
      (breaking packages changed fun e => e = .coprSignError (.invoke command) ∨ e = .other) := by
  refine Meets.bind (Breaks.more runs fun e no => no.elim) fun outcome => ?_
  cases outcome with
  | exited returncode stdout stderr =>
    refine Meets.pure fun s known => ?_
    by_cases zero : returncode = 0
    · simpa [Outcome.zero, zero] using known
    · simpa [Outcome.zero, zero] using known
  | failed =>
    refine Meets.raise fun s known => ⟨Or.inl ?_, Or.inl rfl⟩
    simpa [Outcome.zero] using known
  | other =>
    refine Meets.raise fun s known => ⟨?_, Or.inr rfl⟩
    simpa [Outcome.zero] using known

/-- Some attempts: after one that fails everything is as it was. -/
theorem attempts_holding (runs : Runs env command packages changed) (more : Nat) :
    Meets (Holding packages) (attempts env command more)
      (fun result => Holding (if result.1 = 0 then changed else packages))
      (breaking packages changed fun e => e = .coprSignError (.invoke command) ∨ e = .other) := by
  induction more with
  | zero => exact invoke_holding runs
  | succ more ih =>
    refine Meets.bind (invoke_holding runs) fun result =>
      Meets.ite (fun failed => ?_) fun zero => ?_
    · rw [if_neg failed]
      exact ih
    · exact Meets.pure fun s known => known

/-- `_sign_one` signs a package that has no signature, or leaves it so; unless an error is raised
that is no error of signing, it is known which. -/
theorem signOne_holding (faithful : env.Faithful) (unsigned : packages rpm = []) :
    Meets (Holding packages) (signOne env rpm email hashtype)
      (fun _ => Holding (Function.update packages rpm [⟨email, hashtype⟩]))
      (breaking packages (Function.update packages rpm [⟨email, hashtype⟩]) Expected) := by
  have runs : Runs env (.sign hashtype email rpm) packages
      (Function.update packages rpm [⟨email, hashtype⟩]) := by
    apply runs_package faithful rfl
    · intro n zero
      rw [unsigned]
      exact faithful.sign n hashtype email rpm zero
    · intro n unread
      rw [unsigned]
      exact faithful.unreadSign n hashtype email rpm unread
  have expected : ∀ e, e = .coprSignError (.invoke (.sign hashtype email rpm)) ∨ e = .other →
      Expected e := by
    rintro e (rfl | rfl)
    · exact Or.inl rfl
    · exact Or.inr rfl
  have called := Breaks.more (attempts_holding runs 2) expected
  refine Meets.bind called fun result => Meets.ite (fun failed => ?_) fun zero => ?_
  · rw [if_neg failed]
    exact Meets.raise fun s known => ⟨Or.inl known, Or.inl rfl⟩
  · rw [if_pos (not_not.mp zero)]
    exact Meets.pure fun s known => known

/-- `_unsign_one` removes the signatures of a package, or leaves it as it is; unless an error is
raised that is no error of signing, it is known which. -/
theorem unsignOne_holding (faithful : env.Faithful) :
    Meets (Holding packages) (unsignOne env rpm)
      (fun _ => Holding (Function.update packages rpm []))
      (breaking packages (Function.update packages rpm []) Expected) := by
  have runs : Runs env (.delsign rpm) packages (Function.update packages rpm []) :=
    runs_package faithful rfl (fun n zero => faithful.delsign n rpm (packages rpm) zero)
      fun n unread => faithful.unreadDelsign n rpm (packages rpm) unread
  refine Meets.bind (Breaks.more runs fun _ no => no.elim) fun outcome => ?_
  cases outcome with
  | exited returncode stdout stderr =>
    refine Meets.ite (fun failed => Meets.raise fun s known => ⟨Or.inl ?_, Or.inl rfl⟩)
      fun zero => Meets.pure fun s known => ?_
    · simpa [Outcome.zero, failed] using known
    · simpa [Outcome.zero, not_not.mp zero] using known
  | failed =>
    refine Meets.raise fun s known => ⟨Or.inl ?_, Or.inr rfl⟩
    simpa [Outcome.zero] using known
  | other =>
    refine Meets.raise fun s known => ⟨?_, Or.inr rfl⟩
    simpa [Outcome.zero] using known

end Programs

/-! ## A directory -/

/-- After some packages, except those that are affected, have become so. -/
structure Collected (before : String → List Signature) (after : List Signature)
    (passed affected : List String) (packages : String → List Signature) : Prop where
  /-- Those that are affected are among them, in their order. -/
  sublist : affected.Sublist passed
  /-- The signatures. -/
  signatures : ∀ path, packages path =
    if path ∈ passed ∧ path ∉ affected then after else before path

/-- A loop over packages ended early, with an exception that is no `CoprSignError`. -/
def stopping (before : String → List Signature) (after : List Signature) (rpms : List String) :
    Exits Host Exn :=
  ⟨fun e s => e = .other ∧ ∃ passed affected, passed <+: rpms ∧
    Collected before after passed affected s.packages, fun _ => False⟩

section Directory

variable {env : Env} {before : String → List Signature} {after : List Signature}
  {rpms passed : List String} {rpm : String}

/-- One more package either becomes so too, or is affected and stays as it was. -/
theorem Collected.one {affected : List String} {packages : String → List Signature}
    (collected : Collected before after passed affected packages) (new : rpm ∉ passed) :
    Collected before after (passed ++ [rpm]) affected (Function.update packages rpm after) ∧
      Collected before after (passed ++ [rpm]) (affected ++ [rpm]) packages := by
  have unaffected : rpm ∉ affected := fun member => new (collected.sublist.subset member)
  refine ⟨⟨collected.sublist.trans (List.sublist_append_left passed [rpm]), fun path => ?_⟩,
    ⟨collected.sublist.append_right [rpm], fun path => ?_⟩⟩
  · by_cases this : path = rpm
    · rw [this, Function.update_self]
      exact (if_pos ⟨by simp, unaffected⟩).symm
    · rw [Function.update_of_ne this, collected.signatures path]
      simp [this]
  · rw [collected.signatures path]
    by_cases this : path = rpm
    · simp [this, new]
    · simp [this]

/-- A loop over packages changes all of them but those that it returns, or is stopped behind some of
them. -/
theorem collect_holding {body : String → Part Unit} (nodup : rpms.Nodup)
    (one : ∀ packages, ∀ rpm ∈ rpms, packages rpm = before rpm →
      Meets (Holding packages) (body rpm) (fun _ => Holding (Function.update packages rpm after))
        (breaking packages (Function.update packages rpm after) Expected)) :
    Meets (Holding before) (collect body rpms)
      (fun errors s => Collected before after rpms (errors.map Prod.fst) s.packages)
      (stopping before after rpms) := by
  have step : ∀ passed rpm rest (errors : List (String × Exn)), rpms = passed ++ rpm :: rest →
      Meets (fun s => Collected before after passed (errors.map Prod.fst) s.packages)
        (Prog.handle (do body rpm; return errors) fun e =>
          if e.isSignError then return errors ++ [(rpm, e)] else Prog.raise e)
        (fun errors s => Collected before after (passed ++ [rpm]) (errors.map Prod.fst) s.packages)
        (stopping before after rpms) := by
    intro passed rpm rest errors all s collected
    have new : rpm ∉ passed := by
      rw [all] at nodup
      exact fun member => (List.nodup_append.mp nodup).2.2 rpm member rpm List.mem_cons_self rfl
    have untouched : s.packages rpm = before rpm := by
      rw [collected.signatures rpm, if_neg fun both => new both.1]
    have member : rpm ∈ rpms := by
      rw [all]
      exact List.mem_append_right passed List.mem_cons_self
    have progress := collected.one new
    have whole : Meets (Holding s.packages)
        (Prog.handle (do body rpm; return errors) fun e =>
          if e.isSignError then return errors ++ [(rpm, e)] else Prog.raise e)
        (fun errors t => Collected before after (passed ++ [rpm]) (errors.map Prod.fst) t.packages)
        (stopping before after rpms) := by
      have called := one s.packages rpm member untouched
      refine Meets.handle (fun e t => (Holding s.packages t ∨
          (e = .other ∧ Holding (Function.update s.packages rpm after) t)) ∧ Expected e) (Meets.bind
        (Meets.weaken called (fun _ known => known) (fun _ _ known => known)
          (fun _ _ known => known) (fun _ known => known)) fun _ => Meets.pure fun t changed => ?_)
        fun e => ?_
      · rw [show t.packages = _ from changed]
        exact progress.1
      · refine Meets.ite (fun caught => Meets.pure fun t known => ?_)
          fun uncaught => Meets.raise fun t known => ?_
        · have kept : Holding s.packages t := by
            refine known.1.resolve_right fun both => ?_
            rw [both.1] at caught
            contradiction
          rw [show t.packages = _ from kept, List.map_append]
          exact progress.2
        · have begun : passed <+: rpms := ⟨rpm :: rest, all.symm⟩
          have reached : passed ++ [rpm] <+: rpms := ⟨rest, by rw [all, List.append_assoc]; rfl⟩
          refine ⟨known.2.resolve_left uncaught, ?_⟩
          -- The output of the last program was not read, so the package may have changed.
          rcases known.1 with kept | ⟨-, changed⟩
          · refine ⟨passed, errors.map Prod.fst, begun, ?_⟩
            rw [show t.packages = s.packages from kept]
            exact collected
          · refine ⟨passed ++ [rpm], errors.map Prod.fst, reached, ?_⟩
            rw [show t.packages = _ from changed]
            exact progress.1
    exact whole s rfl
  have empty : ∀ s, Holding before s → Collected before after [] [] s.packages := by
    intro s holding
    refine ⟨List.Sublist.refl [], fun path => ?_⟩
    rw [show s.packages = before from holding]
    simp
  exact Meets.assume (Meets.fold (fun passed (errors : List (String × Exn)) (s : Host) =>
    Collected before after passed (errors.map Prod.fst) s.packages) step []) empty

end Directory

/-! ## Signing -/

/-- The error says which packages are affected. -/
def Exn.lists : Exn → Bool
  | coprSignError (.rpmSign _) => true
  | coprSignError (.rpmUnsign _) => true
  | _ => false

/-- The packages are so in any case, and no error says that one of them is affected. -/
def unsettled (packages : String → List Signature) : Exits Host Exn :=
  ⟨fun e s => Holding packages s ∧ e.lists = false, Holding packages⟩

section Signing

variable {env : Env} {packages : String → List Signature} {username projectname chroot dir : String}

/-- `get_pubkey` changes no package. -/
theorem getPubkey_holding {outfile : Option String} :
    Meets (Holding packages) (getPubkey env username projectname outfile)
      (fun _ => Holding packages) (leaving packages fun e => e.lists = false) := by
  have called : Meets (Holding packages)
      (callSignBin env (.pubkey (createGpgEmail username projectname env.signDomain)))
      (fun _ => Holding packages) (leaving packages fun e => e.lists = false) := by
    refine Meets.weaken (attempts_holding (runs_other rfl) 2) (fun _ known => known)
      (fun result s known => ?_) (fun e s known => ⟨known.1.elim id fun both => both.2, ?_⟩)
      (fun _ known => known)
    · rwa [ite_self] at known
    · rcases known.2 with rfl | rfl <;> rfl
  have writes : ∀ key, Meets (Holding packages) (writeKey env outfile key)
      (fun _ => Holding packages) (leaving packages fun e => e.lists = false) := by
    intro key
    cases outfile with
    | none => exact Meets.pure fun s known => known
    | some file =>
      exact Meets.ite (fun writes => Meets.change fun s known => known)
        fun fails => Meets.raise fun s known => ⟨known, rfl⟩
  refine Meets.bind called fun result => Meets.ite (fun failed => ?_) fun zero => ?_
  · exact Meets.ite (fun unknown => Meets.raise fun s known => ⟨known, rfl⟩)
      fun another => Meets.raise fun s known => ⟨known, rfl⟩
  · exact Meets.bind (writes result.2.1) fun _ => Meets.pure fun s known => known

/-- The request to the key generator changes no package. -/
theorem requestKeys_holding {tryIndefinitely : Bool} :
    Meets (Holding packages) (requestKeys env tryIndefinitely)
      (fun _ => Holding packages) (unsettled packages) := by
  unfold requestKeys
  cases limit none tryIndefinitely with
  | none => exact Meets.raise fun s known => ⟨known, rfl⟩
  | some attempts =>
    refine Meets.within fun s known line same => ?_
    cases sendRequestRepeatedly env.replies attempts env.patience line with
    | mk ending t =>
      cases ending with
      | value status => exact known
      | raised e => exact ⟨known, rfl⟩
      | killed => exact known

/-- `create_user_keys` changes no package. -/
theorem createUserKeys_holding {tryIndefinitely : Bool} :
    Meets (Holding packages) (createUserKeys env username projectname tryIndefinitely)
      (fun _ => Holding packages) (unsettled packages) := by
  refine Meets.bind requestKeys_holding fun status => ?_
  refine Meets.through (fun _ => Holding packages) (Meets.change fun s known => known) fun _ => ?_
  exact Meets.ite (fun refused => Meets.raise fun s known => ⟨known, rfl⟩)
    fun accepted => Meets.pure fun s known => known

/-- What is done about a key changes no package. -/
theorem ensureKey_holding :
    Meets (Holding packages) (ensureKey env username projectname)
      (fun _ => Holding packages) (unsettled packages) := by
  refine Meets.handle (fun e s => Holding packages s ∧ e.lists = false)
    (Meets.bind (Meets.weaken getPubkey_holding (fun _ known => known) (fun _ _ known => known)
      (fun _ _ known => known) (fun _ no => no.elim)) fun _ => Meets.pure fun s known => known)
    fun e => ?_
  cases e with
  | coprSignNoKeyError problem =>
    exact Meets.assume createUserKeys_holding fun _ known => known.1
  | coprSignError problem => exact Meets.raise fun s known => known
  | coprKeygenRequestError => exact Meets.raise fun s known => known
  | other => exact Meets.raise fun s known => known

/-- Where all packages but the affected ones have been signed. -/
def Signed (env : Env) (email chroot : String) (packages : String → List Signature)
    (rpms affected : List String) (s : Host) : Prop :=
  ∃ hashtype, gpgHashtypeForChroot env chroot = some hashtype ∧
    Collected packages [⟨email, hashtype⟩] rpms affected s.packages

/-- How `sign_rpms_in_dir` ends when it does not return. -/
def signing (env : Env) (email chroot : String) (packages : String → List Signature)
    (rpms : List String) : Exits Host Exn where
  raised
    | .coprSignError (.rpmSign affected), s =>
      affected ≠ [] ∧ Signed env email chroot packages rpms affected s
    | .other, s => Holding packages s ∨ ∃ passed affected, passed <+: rpms ∧
        Signed env email chroot packages passed affected s
    | e, s => Holding packages s ∧ e.lists = false
  killed := Holding packages

/-- How `unsign_rpms_in_dir` ends when it does not return. -/
def unsigning (packages : String → List Signature) (rpms : List String) : Exits Host Exn where
  raised
    | .coprSignError (.rpmUnsign affected), s =>
      affected ≠ [] ∧ Collected packages [] rpms affected s.packages
    | .other, s => Holding packages s ∨ ∃ passed affected, passed <+: rpms ∧
        Collected packages [] passed affected s.packages
    | _, _ => False
  killed _ := False

/-- An empty list of packages changes nothing. -/
theorem Collected.none (before : String → List Signature) (after : List Signature) :
    Collected before after [] [] before :=
  ⟨List.Sublist.refl [], fun path => by simp⟩

/-- The error that is raised when packages are affected. -/
theorem affected_raised {before : String → List Signature} {after : List Signature}
    {rpms : List String} {problem : List String → Problem} {exits : Exits Host Exn}
    (raised : ∀ affected s, affected ≠ [] → Collected before after rpms affected s.packages →
      exits.raised (.coprSignError (problem affected)) s) (errors : List (String × Exn)) :
    Meets (fun s => Collected before after rpms (errors.map Prod.fst) s.packages)
      (if errors.isEmpty then pure ()
        else Prog.raise (.coprSignError (problem (errors.map Prod.fst))) : Part Unit)
      (fun _ s => Collected before after rpms [] s.packages) exits := by
  refine Meets.ite (fun empty => Meets.pure fun s collected => ?_)
    fun some_errors => Meets.raise fun s collected => ?_
  · rw [List.isEmpty_iff.mp empty] at collected
    exact collected
  · refine raised (errors.map Prod.fst) s (fun none => some_errors ?_) collected
    exact List.isEmpty_iff.mpr (List.map_eq_nil_iff.mp none)

/-- `unsign_rpms_in_dir` removes the signatures of all packages, or says which it does not. -/
theorem unsignRpmsInDir_holding (faithful : env.Faithful) :
    Meets (Holding packages) (unsignRpmsInDir env dir)
      (fun _ s => Collected packages [] (rpmsIn env dir) [] s.packages)
      (unsigning packages (rpmsIn env dir)) := by
  refine Meets.bind (scan_meets fun s known => Or.inl known) fun rpms => ?_
  refine Meets.given fun same => ?_
  subst same
  refine Meets.ite (fun empty => Meets.pure fun s known => ?_) fun several => ?_
  · rw [List.isEmpty_iff.mp empty, show s.packages = packages from known]
    exact Collected.none packages []
  · have one : ∀ before, ∀ rpm ∈ rpmsIn env dir, before rpm = packages rpm →
        Meets (Holding before) (unsignOne env rpm)
          (fun _ => Holding (Function.update before rpm []))
          (breaking before (Function.update before rpm []) Expected) :=
      fun before rpm _ _ => unsignOne_holding faithful
    have collected := collect_holding rpmsIn_nodup one
    refine Meets.bind (Meets.weaken collected (fun _ known => known) (fun _ _ known => known)
      ?_ (fun _ known => known)) (affected_raised fun affected s some_affected known => ?_)
    · rintro e s ⟨rfl, early⟩
      exact Or.inr early
    · exact ⟨some_affected, known⟩

/-- Nothing has become of the packages, and no error lists any. -/
theorem unsettled_signing {email : String} {rpms : List String} {e : Exn} {s : Host}
    (known : (unsettled packages).raised e s) :
    (signing env email chroot packages rpms).raised e s := by
  cases e with
  | other => exact Or.inl known.1
  | coprKeygenRequestError => exact known
  | coprSignNoKeyError problem => exact known
  | coprSignError problem =>
    cases problem with
    | rpmSign affected => exact absurd known.2 (by simp [Exn.lists])
    | _ => exact known

/-- `sign_rpms_in_dir` signs all packages, says which it does not, or signs none. -/
theorem signRpmsInDir_holding (faithful : env.Faithful)
    (unsigned : ∀ rpm ∈ rpmsIn env dir, packages rpm = []) :
    Meets (Holding packages) (signRpmsInDir env username projectname dir chroot)
      (fun _ s => (rpmsIn env dir = [] ∧ Holding packages s) ∨ (rpmsIn env dir ≠ [] ∧
        Signed env (createGpgEmail username projectname env.signDomain) chroot packages
          (rpmsIn env dir) [] s))
      (signing env (createGpgEmail username projectname env.signDomain) chroot packages
        (rpmsIn env dir)) := by
  refine Meets.bind (scan_meets fun s known => Or.inl known) fun rpms => ?_
  refine Meets.given fun same => ?_
  subst same
  refine Meets.ite (fun empty => Meets.pure fun s known => ?_) fun several => ?_
  · exact Or.inl ⟨List.isEmpty_iff.mp empty, known⟩
  refine Meets.bind (hashtypeFor_meets fun s known => Or.inl known) fun hashtype => ?_
  refine Meets.given fun chosen => ?_
  have keyed : Meets (Holding packages) (ensureKey env username projectname)
      (fun _ => Holding packages)
      (signing env (createGpgEmail username projectname env.signDomain) chroot packages
        (rpmsIn env dir)) :=
    Meets.weaken ensureKey_holding (fun _ known => known) (fun _ _ known => known)
      (fun e s known => unsettled_signing known) (fun _ known => known)
  have one : ∀ before, ∀ rpm ∈ rpmsIn env dir, before rpm = packages rpm →
      Meets (Holding before)
        (signOne env rpm (createGpgEmail username projectname env.signDomain) hashtype)
        (fun _ => Holding (Function.update before rpm
          [⟨createGpgEmail username projectname env.signDomain, hashtype⟩]))
        (breaking before (Function.update before rpm
          [⟨createGpgEmail username projectname env.signDomain, hashtype⟩]) Expected) :=
    fun before rpm member same => signOne_holding faithful (same.trans (unsigned rpm member))
  refine Meets.bind keyed fun _ => ?_
  have some_rpm : rpmsIn env dir ≠ [] := fun none => several (List.isEmpty_iff.mpr none)
  have collected := collect_holding rpmsIn_nodup one
  refine Meets.bind (Meets.weaken collected (fun _ known => known) (fun _ _ known => known)
    ?_ (fun _ no => no.elim)) fun errors => ?_
  · rintro e s ⟨rfl, passed, affected, begun, early⟩
    exact Or.inr ⟨passed, affected, begun, hashtype, chosen, early⟩
  · refine Meets.weaken (affected_raised (fun affected s some_affected known => ?_) errors)
      (fun _ known => known) (fun _ s known => Or.inr ⟨some_rpm, hashtype, chosen, known⟩)
      (fun _ _ known => known) (fun _ known => known)
    exact ⟨some_affected, hashtype, chosen, known⟩

end Signing

/-! ## Signing anew -/

/-- The signatures when those of the packages are removed. -/
def bare (before : String → List Signature) (rpms : List String) (path : String) :
    List Signature :=
  if path ∈ rpms then [] else before path

/-- The signatures when all packages but the affected ones are signed with a key, and no other
signature is left. -/
def anew (before : String → List Signature) (rpms affected : List String) (signature : Signature)
    (path : String) : List Signature :=
  if path ∈ rpms ∧ path ∉ affected then [signature] else bare before rpms path

/-- How `resign_rpms_in_dir` ends. -/
def Resigned (env : Env) (email chroot : String) (rpms : List String)
    (before : String → List Signature) : Finish Exn Unit → (String → List Signature) → Prop
  | .value _, after =>
    if env.doSign = true ∧ rpms ≠ [] then
      ∃ hashtype, gpgHashtypeForChroot env chroot = some hashtype ∧
        after = anew before rpms [] ⟨email, hashtype⟩
    else after = bare before rpms
  | .raised (.coprSignError (.rpmUnsign affected)), after =>
    affected ≠ [] ∧ affected.Sublist rpms ∧
      ∀ path, after path = if path ∈ rpms ∧ path ∉ affected then [] else before path
  | .raised (.coprSignError (.rpmSign affected)), after =>
    affected ≠ [] ∧ affected.Sublist rpms ∧ ∃ hashtype,
      gpgHashtypeForChroot env chroot = some hashtype ∧
        after = anew before rpms affected ⟨email, hashtype⟩
  | .raised .other, after =>
    ∀ path, after path = before path ∨ (path ∈ rpms ∧ (after path = [] ∨ ∃ hashtype,
      gpgHashtypeForChroot env chroot = some hashtype ∧ after path = [⟨email, hashtype⟩]))
  | .raised _, after => after = bare before rpms
  | .killed, after => after = bare before rpms

section Anew

variable {env : Env} {before packages : String → List Signature} {email chroot dir : String}
  {rpms : List String} {s : Host}

/-- The signatures of all packages have been removed. -/
theorem bare_of_collected (collected : Collected before [] rpms [] packages) :
    packages = bare before rpms := by
  funext path
  rw [collected.signatures path]
  simp [bare]

/-- All packages but the affected ones have been signed. -/
theorem anew_of_collected {affected : List String} {signature : Signature}
    (collected : Collected (bare before rpms) [signature] rpms affected packages) :
    packages = anew before rpms affected signature :=
  funext collected.signatures

/-- How `resign_rpms_in_dir` ends when `unsign_rpms_in_dir` does not return. -/
theorem unsigning_resigned {e : Exn} (known : (unsigning before rpms).raised e s) :
    Resigned env email chroot rpms before (.raised e) s.packages := by
  cases e with
  | coprKeygenRequestError => exact known.elim
  | coprSignNoKeyError problem => exact known.elim
  | coprSignError problem =>
    cases problem with
    | rpmUnsign affected => exact ⟨known.1, known.2.sublist, known.2.signatures⟩
    | _ => exact known.elim
  | other =>
    intro path
    rcases known with same | ⟨passed, affected, begun, collected⟩
    · exact Or.inl (congrFun same path)
    · rw [collected.signatures path]
      split
      · next changed => exact Or.inr ⟨begun.subset changed.1, Or.inl rfl⟩
      · exact Or.inl rfl

/-- How `resign_rpms_in_dir` ends when `sign_rpms_in_dir` does not return. -/
theorem signing_resigned {e : Exn}
    (known : (signing env email chroot (bare before rpms) rpms).raised e s) :
    Resigned env email chroot rpms before (.raised e) s.packages := by
  have unsigned : ∀ path, bare before rpms path = before path ∨
      (path ∈ rpms ∧ bare before rpms path = []) := by
    intro path
    by_cases member : path ∈ rpms
    · exact Or.inr ⟨member, if_pos member⟩
    · exact Or.inl (if_neg member)
  cases e with
  | coprKeygenRequestError => exact known.1
  | coprSignNoKeyError problem => exact known.1
  | coprSignError problem =>
    cases problem with
    | rpmSign affected =>
      obtain ⟨some_affected, hashtype, chosen, collected⟩ := known
      exact ⟨some_affected, collected.sublist, hashtype, chosen, anew_of_collected collected⟩
    | rpmUnsign affected => exact absurd known.2 (by simp [Exn.lists])
    | _ => exact known.1
  | other =>
    intro path
    rcases known with same | ⟨passed, affected, begun, hashtype, chosen, collected⟩
    · rw [show s.packages = _ from same]
      rcases unsigned path with kept | ⟨member, removed⟩
      · exact Or.inl kept
      · exact Or.inr ⟨member, Or.inl removed⟩
    · rw [collected.signatures path]
      split
      · next changed => exact Or.inr ⟨begun.subset changed.1, Or.inr ⟨hashtype, chosen, rfl⟩⟩
      · rcases unsigned path with kept | ⟨member, removed⟩
        · exact Or.inl kept
        · exact Or.inr ⟨member, Or.inl removed⟩

/-- `resign_rpms_in_dir`: when it returns, each package has one signature, that of the project, and
when it raises an error that lists packages, then exactly these are not as they should be. -/
theorem packages_resigned (faithful : env.Faithful) (username projectname dir chroot : String)
    (s : Host) :
    Resigned env (createGpgEmail username projectname env.signDomain) chroot (rpmsIn env dir)
      s.packages (resignRpmsInDir env username projectname dir chroot s).1
      (resignRpmsInDir env username projectname dir chroot s).2.packages := by
  let ends : Finish Exn Unit → Host → Prop := fun ending t =>
    Resigned env (createGpgEmail username projectname env.signDomain) chroot (rpmsIn env dir)
      s.packages ending t.packages
  have resigned : Meets (Holding s.packages) (resignRpmsInDir env username projectname dir chroot)
      (fun a => ends (.value a)) ⟨fun e => ends (.raised e), ends .killed⟩ := by
    refine Meets.through (fun _ => Holding (bare s.packages (rpmsIn env dir)))
      (Meets.weaken (unsignRpmsInDir_holding faithful) (fun _ known => known)
        (fun _ t known => bare_of_collected known) (fun e t known => unsigning_resigned known)
        (fun _ no => no.elim)) fun _ => ?_
    have unsigned : ∀ rpm ∈ rpmsIn env dir, bare s.packages (rpmsIn env dir) rpm = [] :=
      fun rpm member => if_pos member
    refine Meets.ite (fun signs => ?_) fun unsigning => Meets.pure fun t known => ?_
    · refine Meets.weaken (signRpmsInDir_holding faithful unsigned) (fun _ known => known)
        (fun _ t known => ?_) (fun e t known => signing_resigned known) (fun _ known => known)
      rcases known with ⟨none, same⟩ | ⟨some_rpm, hashtype, chosen, collected⟩
      · dsimp only [ends]
        rw [Resigned, if_neg fun both => both.2 none]
        exact same
      · dsimp only [ends]
        rw [Resigned, if_pos ⟨signs, some_rpm⟩]
        exact ⟨hashtype, chosen, anew_of_collected collected⟩
    · dsimp only [ends]
      rw [Resigned, if_neg fun both => unsigning both.1]
      exact known
  exact Meets.ended ends resigned rfl

end Anew

namespace Sample

/-- A directory with two packages, of which the second one cannot be signed. -/
def env : Env where
  popen _
    | .sign _ _ path => if path = "/r/b.rpm" then .exited 1 "" "" else .exited 0 "" ""
    | _ => .exited 0 "" ""
  effect _
    | .pubkey _ => id
    | .sign hashtype email path => fun signatures =>
      if path = "/r/b.rpm" then signatures else ⟨email, hashtype⟩ :: signatures
    | .delsign _ => fun _ => []
  replies _ := .status 200
  patience := 1
  scandir _ := some ⟨["a.rpm", "b.rpm", "build.log"], by decide⟩
  writes _ := true
  compareVersions _ _ := none
  chars := .ascii
  int _ := some 40
  signDomain := "example"
  gentlyGpgSha256 := false
  doSign := true

/-- The packages come from a project with another key. -/
def host : Host where
  packages _ := [⟨"other#foo@copr.example", "sha256"⟩]

/-- The programs are those that are described. -/
theorem env_faithful : env.Faithful where
  sign n hashtype email path zero := by
    by_cases second : path = "/r/b.rpm"
    · simp [env, second, Outcome.zero] at zero
    · simp [env, second]
  delsign n path signatures zero := rfl
  failed n command signatures failed _ := by
    cases command with
    | pubkey email => rfl
    | delsign path => simp [env, Outcome.zero] at failed
    | sign hashtype email path =>
      by_cases second : path = "/r/b.rpm"
      · simp [env, second]
      · simp [env, second, Outcome.zero] at failed
  unreadSign n hashtype email path unread := by
    by_cases second : path = "/r/b.rpm"
    · simp [env, second] at unread
    · simp [env, second] at unread
  unreadDelsign n path signatures unread := by
    simp [env] at unread

end Sample

/-- One of two packages is signed anew. -/
theorem packages_resigned_but_one :
    (resignRpmsInDir Sample.env "me" "foo" "/r" "fedora-40-x86_64" Sample.host).1 =
      .raised (.coprSignError (.rpmSign ["/r/b.rpm"])) ∧
    Resigned Sample.env (createGpgEmail "me" "foo" "example") "fedora-40-x86_64"
      (rpmsIn Sample.env "/r") Sample.host.packages
      (resignRpmsInDir Sample.env "me" "foo" "/r" "fedora-40-x86_64" Sample.host).1
      (resignRpmsInDir Sample.env "me" "foo" "/r" "fedora-40-x86_64" Sample.host).2.packages :=
  ⟨by rfl, packages_resigned Sample.env_faithful "me" "foo" "/r" "fedora-40-x86_64" Sample.host⟩

end Copr.Signing
