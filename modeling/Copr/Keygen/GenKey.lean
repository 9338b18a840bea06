import Copr.Lib.Text
import Mathlib.Data.List.Count

/-!
# The key generator

`gen_key` of `copr_keygen`, with `file_lock` of its `util.py` and `user_exists`, `create_new_key`
and `ensure_passphrase_exist` of its `logic.py`. Requests are served by processes of their own, so
their steps alternate in any order; a process may die at any point, and then the program that it
has called goes on without it. How `gpg` reads a parameter file and which keys it finds for an
address is given, and what becomes of a call of it is part of the event. The parameter file in the
directory for temporary files and the log are left out.
-/

namespace Copr.Keygen

open Text

/-! ## Addresses -/

section Addresses

variable (chars : CharClasses)

/-- `\w`. -/
def isWord (c : Char) : Bool := chars.isalnum c || c == '_'

/-- `^[...]+$`: a line end may follow. -/
def matchesLine (allowed : Char → Bool) (text : List Char) : Bool :=
  let line := if text.getLast? = some '\n' then text.dropLast else text
  !line.isEmpty && line.all allowed

/-- `[\w.-]`. -/
def isNameChar (c : Char) : Bool := isWord chars c || c == '.' || c == '-'

/-- `[-\w.@]`. -/
def isEmailChar (c : Char) : Bool := isNameChar chars c || c == '@'

/-- `validate_name_email`. -/
def validateNameEmail (nameEmail : String) : Bool :=
  if '#' ∈ nameEmail.toList then
    let stripped := nameEmail.toList.dropWhile (· == '@')
    let name := stripped.takeWhile (· != '#')
    let email := (stripped.dropWhile (· != '#')).drop 1
    matchesLine (isNameChar chars) name && matchesLine (isEmailChar chars) email &&
      email.count '@' == 1
  else false

/-- `create_gpg_email` of the backend. -/
def createGpgEmail (username projectname domain : String) : String :=
  username ++ "#" ++ projectname ++ "@copr." ++ domain

end Addresses

/-! ## Requests -/

/-- The fields of a request, as texts; a value that is false is the empty text. -/
structure Query where
  /-- `name_real`. -/
  nameReal : Option String := none
  /-- `name_email`. -/
  nameEmail : Option String := none
  /-- `name_comment`. -/
  nameComment : Option String := none
  /-- `key_length`. -/
  keyLength : Option String := none
  /-- `expire`. -/
  expire : Option String := none
  deriving DecidableEq, Repr

/-- A value, unless it is false. -/
def orElse (value default : String) : String := if value == "" then default else value

/-- `template`, filled in. -/
def template (keyLength nameReal comment nameEmail expire : String) : String :=
  "\n%no-protection\nKey-Type: RSA\nKey-Length: " ++ keyLength ++
    "\nName-Real: " ++ nameReal ++ "\nName-Comment: " ++ comment ++
    "\nName-Email: " ++ nameEmail ++ "\nExpire-Date: " ++ expire ++ "\n%commit\n"

/-- The parameter file that `create_new_key` writes. The defaults are those of the settings. -/
def parameters (nameReal nameEmail : String) (query : Query) : String :=
  template (orElse (query.keyLength.getD "2048") "2048") nameReal
    (query.nameComment.getD "None") nameEmail (orElse (query.expire.getD "5y") "0")

/-- Where a request is. -/
inductive Pc
  /-- It waits for the lock. -/
  | locking
  /-- `user_exists` asks for the key. -/
  | exporting
  /-- `create_new_key` runs `gpg --gen-key`. -/
  | generating
  /-- `create_new_key` asks for the key that it has created. -/
  | verifying
  /-- `ensure_passphrase_exist`, for a key that was created or was there before. -/
  | ensuring (created : Bool)
  /-- It was answered. -/
  | answered (status : Nat)
  /-- Its process has died while `gpg --gen-key` was running, which still runs. -/
  | abandoned
  /-- Its process has died, and whether `gpg --gen-key` was running then. -/
  | died (generating : Bool)
  deriving DecidableEq, Repr

/-- The lock is held. -/
def Pc.holds : Pc → Bool
  | .exporting | .generating | .verifying | .ensuring _ => true
  | _ => false

/-- A request that was accepted. -/
structure Request where
  /-- `name_email`. -/
  email : String
  /-- The parameter file. -/
  parameters : String
  /-- Where it is. -/
  pc : Pc
  deriving DecidableEq, Repr

/-- What `gen_key` does before it takes the lock: the request, or the status of the answer. A body
that is not JSON is nothing. -/
def accept (chars : CharClasses) : Option Query → Except Nat Request
  | none => .error 400
  | some query =>
    match query.nameReal, query.nameEmail with
    | none, _ => .error 400
    | some _, none => .error 400
    | some nameReal, some nameEmail =>
      if validateNameEmail chars nameEmail then
        .ok ⟨nameEmail, parameters nameReal nameEmail query, .locking⟩
      else .error 400

/-- `get_passphrase_location`, as a name in the directory. -/
def passphraseLocation (email : String) : String := email

/-- The file that is locked. -/
def lockFile (email : String) : String := passphraseLocation email ++ ".lock"

/-- What `gpg` makes of its arguments. -/
structure Gpg where
  /-- The addresses of the keys that `--gen-key` makes of a parameter file. -/
  addresses : String → List String
  /-- `--export` with an address finds a key with another address. -/
  finds : String → String → Bool
  /-- A key is found by its own address. -/
  finds_self : ∀ email, finds email email = true

/-- The host of the key generator. -/
structure Host where
  /-- The addresses of the keys, one for each key. -/
  keyring : List String := []
  /-- The files in the directory of the passphrases. -/
  files : String → Option String := fun _ => none
  /-- The requests. -/
  requests : List Request := []

/-- What happens on the host. -/
inductive Event
  /-- A request comes in. -/
  | post (body : Option Query)
  /-- A request takes the lock, unless the file cannot be opened. -/
  | lock (i : Nat) (opens : Bool)
  /-- `gpg --export` has ended, and whether its output was understood. -/
  | exported (i : Nat) (understood : Bool)
  /-- `gpg --gen-key` has ended: how many keys it has added, and whether it exits with zero. -/
  | generate (i : Nat) (added : Nat) (zero : Bool)
  /-- The passphrase is ensured, unless the file cannot be written, and the request answered. -/
  | ensure (i : Nat) (writable : Bool)
  /-- The process of a request dies. -/
  | die (i : Nat)
  deriving DecidableEq, Repr

namespace Host

variable (s : Host)

/-- Somebody holds the lock on a file. -/
def locked (file : String) : Bool :=
  s.requests.any fun r => r.pc.holds && lockFile r.email == file

/-- A request goes on. -/
def goto (i : Nat) (r : Request) (pc : Pc) : Host :=
  { s with requests := s.requests.set i { r with pc := pc } }

/-- A file is written. -/
def write (file content : String) : Host :=
  { s with files := Function.update s.files file (some content) }

/-- `file_lock` writes the file when it is not there. -/
def touch (file : String) : Host := if (s.files file).isNone then s.write file "1" else s

/-- There is no passphrase. -/
def lacksPassphrase (email : String) : Bool :=
  (s.files (passphraseLocation email)).getD "" == ""

/-- A step of a request. -/
def progress (gpg : Gpg) (i : Nat) (r : Request) : Event → Host
  | .lock _ opens =>
    if r.pc = .locking ∧ opens = false then s.goto i r (.answered 500)
    else if r.pc = .locking ∧ s.locked (lockFile r.email) = false then
      (s.touch (lockFile r.email)).goto i r .exporting
    else s
  | .exported _ understood =>
    let found := s.keyring.any (gpg.finds r.email)
    if r.pc = .exporting then
      if !understood then s.goto i r (.answered 500)
      else if found then s.goto i r (.ensuring false)
      else s.goto i r .generating
    else if r.pc = .verifying then
      if understood && found then s.goto i r (.ensuring true)
      else s.goto i r (.answered 500)
    else s
  | .generate _ added zero =>
    let t := { s with keyring := (gpg.addresses r.parameters).take added ++ s.keyring }
    if r.pc = .generating then t.goto i r (if zero then .verifying else .answered 500)
    else if r.pc = .abandoned then t.goto i r (.died true)
    else s
  | .ensure _ writable =>
    match r.pc with
    | .ensuring created =>
      let status := if created then 201 else 200
      if !s.lacksPassphrase r.email then s.goto i r (.answered status)
      else if writable then
        (s.write (passphraseLocation r.email) "1\n").goto i r (.answered status)
      else (s.write (passphraseLocation r.email) "").goto i r (.answered 500)
    | _ => s
  | .die _ =>
    match r.pc with
    | .answered _ | .abandoned | .died _ => s
    | .generating => s.goto i r .abandoned
    | _ => s.goto i r (.died false)
  | _ => s

/-- What an event does. An event that is not possible does nothing. -/
def step (chars : CharClasses) (gpg : Gpg) (s : Host) (e : Event) : Host :=
  match e with
  | .post body =>
    match accept chars body with
    | .ok r => { s with requests := s.requests ++ [r] }
    | .error _ => s
  | .lock i _ | .exported i _ | .generate i _ _ | .ensure i _ | .die i =>
    (s.requests[i]?).elim s fun r => s.progress gpg i r e

/-- A run of a host that starts without any key. -/
def run (chars : CharClasses) (gpg : Gpg) (events : List Event) : Host :=
  events.foldl (step chars gpg) {}

end Host

end Copr.Keygen
