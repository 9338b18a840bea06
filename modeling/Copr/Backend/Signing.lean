import Copr.Common.SafeRequest
import Copr.Keygen.GenKey
import Mathlib.Data.List.Nodup

/-!
# Signing packages

`sign_rpms_in_dir`, `unsign_rpms_in_dir` and `resign_rpms_in_dir` of `sign.py`. What the programs
that are run answer, and what they do to the signatures of a package, is a parameter, and so are the
answers of the key generator. What was run is written into a history, the newest event first.
-/

namespace Copr.Signing

open Programs SafeRequest Text Keygen

/-- A signature of a package. -/
structure Signature where
  /-- Whose key it was made with. -/
  email : String
  /-- The hash. -/
  hashtype : String
  deriving DecidableEq, Repr

/-- The programs that are run. -/
inductive Command
  /-- `/bin/sign -u email -p`: the public key. -/
  | pubkey (email : String)
  /-- `/bin/sign -4 -h hashtype -u email -r path`: a package is signed. -/
  | sign (hashtype email path : String)
  /-- `/usr/bin/rpm --delsign path`: the signatures of a package are removed. -/
  | delsign (path : String)
  deriving DecidableEq, Repr

namespace Command

/-- The package that it is run for. -/
def package : Command → Option String
  | pubkey _ => none
  | sign _ _ path => some path
  | delsign path => some path

end Command

/-- What becomes of `Popen` and `communicate`. -/
inductive Outcome
  /-- The program exits. -/
  | exited (returncode : Int) (stdout stderr : String)
  /-- `SubprocessError` or `OSError`. -/
  | failed
  /-- Any other exception. -/
  | other
  deriving DecidableEq, Repr

/-- The program exits with zero. -/
def Outcome.zero : Outcome → Bool
  | exited returncode _ _ => returncode == 0
  | _ => false

/-- What a `CoprSignError` is about. -/
inductive Problem
  /-- The program is not started. -/
  | invoke (command : Command)
  /-- There is no key. -/
  | noKeys (username : String)
  /-- The public key is not given. -/
  | pubkey (stdout stderr : String)
  /-- A package is not signed. -/
  | sign (path email : String)
  /-- A package is not unsigned. -/
  | unsign (path : String)
  /-- These packages are not signed. -/
  | rpmSign (affected : List String)
  /-- These packages are not unsigned. -/
  | rpmUnsign (affected : List String)
  deriving DecidableEq, Repr

/-- The exceptions. -/
inductive Exn
  /-- `CoprSignError`. -/
  | coprSignError (problem : Problem)
  /-- `CoprSignNoKeyError`, which is a `CoprSignError`. -/
  | coprSignNoKeyError (problem : Problem)
  /-- `CoprKeygenRequestError`. -/
  | coprKeygenRequestError
  /-- Any other exception. -/
  | other
  deriving DecidableEq, Repr

/-- What `except CoprSignError` catches. -/
def Exn.isSignError : Exn → Bool
  | coprSignError _ => true
  | coprSignNoKeyError _ => true
  | _ => false

/-- What happens. -/
inductive Event
  /-- A program was run. -/
  | ran (command : Command) (outcome : Outcome)
  /-- The key generator has answered a request for a key. -/
  | generated (nameReal nameEmail : String) (status : Nat)
  deriving DecidableEq, Repr

/-- The names in a directory. -/
structure Listing where
  /-- The names. -/
  names : List String
  /-- Each of them is there once. -/
  nodup : names.Nodup

/-- The answers from outside, by the number of what has happened before, and the configuration. -/
structure Env where
  /-- What becomes of a program. -/
  popen : Nat → Command → Outcome
  /-- What a program does to the signatures of its package. -/
  effect : Nat → Command → List Signature → List Signature
  /-- The answers of the key generator. -/
  replies : Nat → Reply
  /-- How often a request that is tried indefinitely is sent before the process ends. -/
  patience : Nat
  /-- `os.scandir`, nothing when it raises an exception. -/
  scandir : String → Option Listing
  /-- Whether a file can be written. -/
  writes : String → Bool
  /-- `version.parse` of both, compared; nothing when one of them is no version. -/
  compareVersions : String → String → Option Ordering
  /-- `str.isnumeric` and the rest. -/
  chars : CharClasses
  /-- `int`, nothing when it raises an exception. -/
  int : String → Option Nat
  /-- `opts.sign_domain`. -/
  signDomain : String
  /-- `opts.gently_gpg_sha256`. -/
  gentlyGpgSha256 : Bool
  /-- `opts.do_sign`. -/
  doSign : Bool

/-- The files of the backend. -/
structure Host where
  /-- The signatures of the packages, by path. -/
  packages : String → List Signature
  /-- The files with public keys. -/
  files : String → Option String := fun _ => none
  /-- The requests to the key generator so far. -/
  line : Line := {}
  /-- What has happened, the newest event first. -/
  trace : List Event := []

/-- How much has happened so far. -/
def Host.clock (s : Host) : Nat := s.trace.length

/-- A part of a program. -/
abbrev Part (α : Type) := Prog Host Exn α

section Programs

variable (env : Env)

/-- `Popen` and `communicate`. -/
def popen (command : Command) : Part Outcome := fun s =>
  let outcome := env.popen s.clock command
  (.value outcome, { s with
    packages := fun path =>
      if command.package = some path then env.effect s.clock command (s.packages path)
      else s.packages path
    trace := .ran command outcome :: s.trace })

/-- An attempt of `call_sign_bin`: the exit status and what was printed. -/
def invoke (command : Command) : Part (Int × String × String) := do
  match ← popen env command with
  | .exited returncode stdout stderr => pure (returncode, stdout, stderr)
  | .failed => Prog.raise (.coprSignError (.invoke command))
  | .other => Prog.raise .other

/-- The attempts of `call_sign_bin`, after the first so many more. -/
def attempts (command : Command) : Nat → Part (Int × String × String)
  | 0 => invoke env command
  | more + 1 => do
    let result ← invoke env command
    if result.1 ≠ 0 then attempts command more else pure result

/-- `call_sign_bin`. -/
def callSignBin (command : Command) : Part (Int × String × String) := attempts env command 2

/-- `"unknown key:" in stderr`. -/
def unknownKey (stderr : String) : Bool := contains stderr "unknown key:"

/-- The key is written into `outfile`. -/
def writeKey (outfile : Option String) (key : String) : Part Unit :=
  match outfile with
  | none => pure ()
  | some path =>
    if env.writes path then
      Prog.change fun s => { s with
        files := fun other => if other = path then some key else s.files other }
    else Prog.raise .other

/-- `get_pubkey`. -/
def getPubkey (username projectname : String) (outfile : Option String) : Part String := do
  let result ← callSignBin env (.pubkey (createGpgEmail username projectname env.signDomain))
  if result.1 ≠ 0 then
    if unknownKey result.2.2 then Prog.raise (.coprSignNoKeyError (.noKeys username))
    else Prog.raise (.coprSignError (.pubkey result.2.1 result.2.2))
  else do
    writeKey env outfile result.2.1
    pure result.2.1

/-- `_sign_one`. -/
def signOne (path email hashtype : String) : Part Unit := do
  let result ← callSignBin env (.sign hashtype email path)
  if result.1 ≠ 0 then Prog.raise (.coprSignError (.sign path email))

/-- `_unsign_one`. -/
def unsignOne (path : String) : Part Unit := do
  match ← popen env (.delsign path) with
  | .exited returncode _ _ =>
    if returncode ≠ 0 then Prog.raise (.coprSignError (.unsign path))
  | .failed => Prog.raise .other
  | .other => Prog.raise .other

/-- The request to the key generator: every exception becomes `CoprKeygenRequestError`. -/
def requestKeys (tryIndefinitely : Bool) : Part Nat :=
  match limit none tryIndefinitely with
  | none => Prog.raise .coprKeygenRequestError
  | some attempts =>
    Prog.within Host.line (fun line s => { s with line := line }) (fun _ => .coprKeygenRequestError)
      (sendRequestRepeatedly env.replies attempts env.patience)

/-- `create_user_keys`. -/
def createUserKeys (username projectname : String) (tryIndefinitely : Bool) : Part Unit := do
  let nameReal := username ++ "_" ++ projectname
  let nameEmail := createGpgEmail username projectname env.signDomain
  let status ← requestKeys env tryIndefinitely
  Prog.change fun s => { s with trace := .generated nameReal nameEmail status :: s.trace }
  if 400 ≤ status then Prog.raise .coprKeygenRequestError

/-- `el_chroots`. -/
def elChroots : List String := ["rhel", "epel", "centos", "oraclelinux"]

/-- `gpg_hashtype_for_chroot`, nothing when an exception is raised. -/
def gpgHashtypeForChroot (chroot : String) : Option String :=
  let parts := (split chroot '-').map String.ofList
  match parts, parts.reverse with
  | first :: second :: _, _ :: versionPart :: _ =>
    if env.gentlyGpgSha256 then
      if first ∈ elChroots then
        if versionPart = "rawhide" then some "sha256"
        else (env.compareVersions versionPart "7").map fun order =>
          if order = .gt then "sha256" else "sha1"
      else some "sha1"
    else if first ∈ elChroots then
      if versionPart = "rawhide" then some "sha256"
      else (env.compareVersions versionPart "4").map fun order =>
        if order = .gt then "sha256" else "sha1"
    else if first = "fedora" ∧ env.chars.numeric second.toList then
      (env.int second).map fun n => if n < 27 then "sha1" else "sha256"
    else some "sha256"
  | _, _ => none

/-- `os.path.join` with a name. -/
def join (path name : String) : String :=
  if path = "" ∨ path.toList.getLast? = some '/' then path ++ name else path ++ "/" ++ name

/-- The packages in a directory. -/
def rpmList (path : String) (listing : Listing) : List String :=
  (listing.names.filter fun name => ".rpm".toList.isSuffixOf name.toList).map (join path)

/-- `os.scandir` and what is taken from it. -/
def scan (path : String) : Part (List String) :=
  match env.scandir path with
  | none => Prog.raise .other
  | some listing => pure (rpmList path listing)

/-- A loop over packages, with those of which a `CoprSignError` was raised. -/
def collect (body : String → Part Unit) (rpms : List String) : Part (List (String × Exn)) :=
  Prog.fold (fun errors rpm => Prog.handle (do body rpm; return errors) fun e =>
    if e.isSignError then return errors ++ [(rpm, e)] else Prog.raise e) [] rpms

/-- `gpg_hashtype_for_chroot`, with its exceptions. -/
def hashtypeFor (chroot : String) : Part String :=
  match gpgHashtypeForChroot env chroot with
  | none => Prog.raise .other
  | some hashtype => pure hashtype

/-- The key is asked for, and created when there is none. -/
def ensureKey (username projectname : String) : Part Unit :=
  Prog.handle (do let _ ← getPubkey env username projectname none; pure ()) fun
    | .coprSignNoKeyError _ => createUserKeys env username projectname true
    | e => Prog.raise e

/-- `sign_rpms_in_dir`. -/
def signRpmsInDir (username projectname path chroot : String) : Part Unit := do
  let rpms ← scan env path
  if rpms.isEmpty then pure ()
  else do
    let hashtype ← hashtypeFor env chroot
    ensureKey env username projectname
    let errors ← collect (fun rpm =>
      signOne env rpm (createGpgEmail username projectname env.signDomain) hashtype) rpms
    if errors.isEmpty then pure ()
    else Prog.raise (.coprSignError (.rpmSign (errors.map Prod.fst)))

/-- `unsign_rpms_in_dir`. -/
def unsignRpmsInDir (path : String) : Part Unit := do
  let rpms ← scan env path
  if rpms.isEmpty then pure ()
  else do
    let errors ← collect (unsignOne env) rpms
    if errors.isEmpty then pure ()
    else Prog.raise (.coprSignError (.rpmUnsign (errors.map Prod.fst)))

/-- `resign_rpms_in_dir`. -/
def resignRpmsInDir (username projectname path chroot : String) : Part Unit := do
  unsignRpmsInDir env path
  if env.doSign then signRpmsInDir env username projectname path chroot

end Programs

/-! ## What is signed -/

section Packages

variable {env : Env} {dir chroot : String} {before : Host → Prop} {exits : Exits Host Exn}

/-- The packages in a directory, none when it cannot be read. -/
def rpmsIn (env : Env) (dir : String) : List String := (env.scandir dir).elim [] (rpmList dir)

/-- Different names are different paths. -/
theorem join_injective (dir : String) : Function.Injective (join dir) := by
  intro one other same
  unfold join at same
  split at same
  · exact (String.append_right_inj dir).mp same
  · exact (String.append_right_inj (dir ++ "/")).mp same

/-- Each package is there once. -/
theorem rpmsIn_nodup : (rpmsIn env dir).Nodup := by
  unfold rpmsIn
  cases env.scandir dir with
  | none => exact List.nodup_nil
  | some listing => exact List.Nodup.map (join_injective dir) (listing.nodup.filter _)

/-- `os.scandir` gives the packages, or raises an exception. -/
theorem scan_meets (fails : ∀ s, before s → exits.raised .other s) :
    Meets before (scan env dir) (fun rpms s => rpms = rpmsIn env dir ∧ before s) exits := by
  unfold scan rpmsIn
  cases env.scandir dir with
  | none => exact Meets.raise fails
  | some listing => exact Meets.pure fun s known => ⟨rfl, known⟩

/-- The hash, unless the name of the chroot is not understood. -/
theorem hashtypeFor_meets (fails : ∀ s, before s → exits.raised .other s) :
    Meets before (hashtypeFor env chroot)
      (fun hashtype s => gpgHashtypeForChroot env chroot = some hashtype ∧ before s) exits := by
  unfold hashtypeFor
  cases gpgHashtypeForChroot env chroot with
  | none => exact Meets.raise fails
  | some hashtype => exact Meets.pure fun s known => ⟨rfl, known⟩

end Packages

end Copr.Signing
