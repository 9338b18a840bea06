import Copr.Lib.Histories
import Copr.Lib.Runs
import Copr.Lib.Tables
import Copr.Frontend.BuildsLogic

/-!
# Updates in concurrent transactions

`/update/` and `/starting_build/` of `coprs/views/backend_ns/backend_general.py` as what the
database does for many of them at a time. A session keeps the rows that it has loaded until
its next commit or rollback; what it has changed is in the tables from its commit on, and a
commit writes changed columns only. `update_state_from_dict` looks for a missing package,
checks once more in `PackagesLogic.add`, commits the package and goes on, and each of these is
a step between which other sessions take theirs. `Package` and `BuildChroot` have unique
constraints. Actions in an `/update/` are left out; they are committed before the builds.
-/

namespace Copr

open Histories Runs Tables

/-! ## What a session writes -/

/-- A column after a commit of a session that has loaded one value and has another one now. -/
def flushed {α : Type} [DecidableEq α] (loaded updated current : α) : α :=
  if updated = loaded then current else updated

/-- The row of a chroot after a commit. Results are rows of their own, which are added. -/
def BuildChroot.flush (loaded updated current : BuildChroot) : BuildChroot :=
  { current with
    status := flushed loaded.status updated.status current.status
    statusReason := flushed loaded.statusReason updated.statusReason current.statusReason
    gitHash := flushed loaded.gitHash updated.gitHash current.gitHash
    startedOn := flushed loaded.startedOn updated.startedOn current.startedOn
    endedOn := flushed loaded.endedOn updated.endedOn current.endedOn
    resultDir := flushed loaded.resultDir updated.resultDir current.resultDir
    results := current.results ++ updated.results.drop loaded.results.length }

/-- The chroot of a build with a name. -/
def Build.chrootNamed (b : Build) (name : String) : Option BuildChroot :=
  b.buildChroots.find? fun c => decide (c.name = name)

/-- A build that a session has changed for a message. -/
structure PendingWrite where
  /-- The message. -/
  upd : UpdDict
  /-- What was read besides. -/
  env : Surroundings
  /-- The row as it was loaded. -/
  loaded : Build
  /-- The row as it is in the session. -/
  updated : Build
  deriving DecidableEq, Repr

namespace PendingWrite

variable (write : PendingWrite)

/-- The chroots that the session has allocated. -/
def addedChroots : List BuildChroot :=
  write.updated.buildChroots.filter fun c => (write.loaded.chrootNamed c.name).isNone

/-- The row of a chroot after the commit. -/
def flushChroot (c : BuildChroot) : BuildChroot :=
  match write.loaded.chrootNamed c.name, write.updated.chrootNamed c.name with
  | some loaded, some updated => loaded.flush updated c
  | _, _ => c

/-- The row of the build after the commit, in the columns that a report may change. -/
def flush (b : Build) : Build :=
  { b with
    package := flushed write.loaded.package write.updated.package b.package
    builtPackages :=
      flushed write.loaded.builtPackages write.updated.builtPackages b.builtPackages
    srpmUrl := flushed write.loaded.srpmUrl write.updated.srpmUrl b.srpmUrl
    pkgVersion := flushed write.loaded.pkgVersion write.updated.pkgVersion b.pkgVersion
    resultDir := flushed write.loaded.resultDir write.updated.resultDir b.resultDir
    sourceStatus := flushed write.loaded.sourceStatus write.updated.sourceStatus b.sourceStatus
    failType := flushed write.loaded.failType write.updated.failType b.failType
    buildChroots := b.buildChroots.map write.flushChroot ++ write.addedChroots }

/-- A chroot that the session has allocated is there already. -/
def conflicts (b : Build) : Bool :=
  write.addedChroots.any fun c => (b.chrootNamed c.name).isSome

end PendingWrite

/-- The row of a build after a session has committed its changes. -/
def flushRow (writes : List PendingWrite) (b : Build) : Build :=
  match writes.find? fun write => decide (write.loaded.id = b.id) with
  | some write => write.flush b
  | none => b

/-- A session cannot commit its changes of a build. -/
def rowConflicts (writes : List PendingWrite) (b : Build) : Bool :=
  match writes.find? fun write => decide (write.loaded.id = b.id) with
  | some write => write.conflicts b
  | none => false

/-! ## The tables -/

/-- The tables that the two endpoints change. -/
structure BuildTables where
  /-- The builds. -/
  builds : Table Build.id
  /-- The `copr_id` of each build. -/
  coprId : Nat → Nat
  /-- `copr_id` and `name` of the packages, which are unique together. -/
  packages : Table fun key : Nat × String => key

namespace BuildTables

variable (tables : BuildTables)

/-- `PackagesLogic.get` in the project of a build: the name of the package. -/
def getPackage (buildId : Nat) (name : String) : Option String :=
  (tables.packages.find (tables.coprId buildId, name)).map Prod.snd

/-- The package of a build after it was assigned, if one was to be. -/
def assignedPackage (b : Build) : Option String → Option String
  | none => b.package
  | some name => tables.getPackage b.id name

/-- `PackagesLogic.exists`. -/
def packageExists (buildId : Nat) (name : String) : Bool :=
  (tables.packages.find (tables.coprId buildId, name)).isSome

/-- A row is inserted into `Package`. -/
def insertPackage (buildId : Nat) (name : String) : BuildTables :=
  { tables with packages := tables.packages.insert (tables.coprId buildId, name) }

/-- The changes of a session, unless a unique constraint refuses a new chroot. -/
def flush (writes : List PendingWrite) : Option BuildTables :=
  if tables.builds.rows.any (rowConflicts writes) then none
  else
    some { tables with
      builds := tables.builds.update (fun _ => true) (flushRow writes) fun b => by
        unfold flushRow
        split <;> rfl }

end BuildTables

/-! ## Requests and sessions -/

/-- A request of a worker. -/
inductive BackendRequest
  /-- `/update/` with messages for builds. -/
  | update (builds : List (Nat × UpdDict))
  /-- `/starting_build/`. -/
  | startingBuild (buildId : Nat) (upd : UpdDict)
  deriving DecidableEq, Repr

/-- The message of a request for a build. In `to_update` the last one for a build counts. -/
def BackendRequest.message (request : BackendRequest) (buildId : Nat) : Option UpdDict :=
  match request with
  | .update builds => builds.reverse.lookup buildId
  | .startingBuild id upd => if id = buildId then some upd else none

/-- What a request is answered with. -/
inductive RequestAnswer
  /-- `updated_builds_ids` and `non_existing_builds_ids`. -/
  | updated (updatedBuildsIds nonExistingBuildsIds : List Nat)
  /-- `can_start`. -/
  | canStart (canStart : Bool)
  /-- An error. -/
  | failed
  deriving DecidableEq, Repr

/-- Where `update_state_from_dict` is with a message. -/
inductive UpdateStage
  /-- It begins. -/
  | entered
  /-- The package of this name was not found, and `PackagesLogic.add` is called. -/
  | missing (name : String)
  /-- `PackagesLogic.add` has not found the package either, and the commit is next. -/
  | added (name : String)
  /-- The package is to be assigned, if one was named, and the rest follows. -/
  | settled (name : Option String)
  deriving DecidableEq, Repr

/-- The session of a request. -/
structure Session where
  /-- The request. -/
  request : BackendRequest
  /-- The number of commits before the request came. -/
  since : Nat
  /-- The ids of the builds that exist. -/
  existing : List Nat := []
  /-- The messages that are not done, the current one first. -/
  todo : List (Nat × UpdDict) := []
  /-- How far the current message is. -/
  stage : UpdateStage := .entered
  /-- The rows that were loaded in this transaction. -/
  loaded : List Build := []
  /-- The changes in this transaction. -/
  written : List PendingWrite := []
  /-- The answer. -/
  answer : Option RequestAnswer := none
  deriving DecidableEq, Repr

namespace Session

/-- A request is received. `/update/` loads the builds that exist; `starting_build` refuses a
build that does not exist or is canceled. -/
def receive (tables : BuildTables) (since : Nat) (request : BackendRequest) : Session :=
  match request with
  | .update _ =>
    let existing := tables.builds.rows.filter fun b => (request.message b.id).isSome
    { request := request
      since := since
      existing := existing.map Build.id
      todo := existing.filterMap fun b => (request.message b.id).map fun upd => (b.id, upd)
      loaded := existing }
  | .startingBuild buildId upd =>
    match tables.builds.find buildId with
    | none => { request := request, since := since, answer := some (.canStart false) }
    | some b =>
      if b.canceled then { request := request, since := since, answer := some (.canStart false) }
      else
        { request := request
          since := since
          existing := [buildId]
          todo := [(buildId, upd)]
          loaded := [b] }

variable (s : Session)

/-- A build as the session sees it: a row is loaded unless it is there. -/
def row (tables : BuildTables) (buildId : Nat) : Option Build :=
  (s.loaded.find? fun b => decide (b.id = buildId)).or (tables.builds.find buildId)

/-- The session after `rollback` in `update_state_from_dict`, which returns. -/
def rollback : Session :=
  { s with todo := s.todo.tail, stage := .entered, loaded := [], written := [] }

/-- The session after a commit: all rows are loaded again. -/
def committed : Session := { s with loaded := [], written := [] }

/-- The answer after the last commit. -/
def reply : RequestAnswer :=
  match s.request with
  | .update builds =>
    .updated s.existing ((builds.map Prod.fst).dedup.filter fun id => !s.existing.contains id)
  | .startingBuild _ _ => .canStart true

end Session

/-! ## Steps -/

/-- The frontend with its sessions. -/
structure ConcurrentFrontend where
  /-- The committed tables, and all commits. -/
  history : History BuildTables (List PendingWrite)
  /-- The sessions. -/
  sessions : Nat → Option Session

/-- A step of a session. -/
inductive SessionEvent
  /-- A request comes. -/
  | receive (request : BackendRequest)
  /-- `update_state_from_dict` begins and looks for the package, if it needs one. -/
  | lookUp
  /-- `PackagesLogic.add`. -/
  | add
  /-- The package is committed. -/
  | createPackage
  /-- The rest of `update_state_from_dict`. -/
  | update (env : Surroundings)
  /-- The last commit, and the answer. -/
  | respond
  /-- An exception ends the request. -/
  | fail
  deriving DecidableEq, Repr

namespace ConcurrentFrontend

variable (w : ConcurrentFrontend) (sid : Nat) (s : Session)

/-- The committed tables. -/
def tables : BuildTables := w.history.now

/-- A session goes on. -/
def resume (next : Session) : ConcurrentFrontend :=
  { w with sessions := Function.update w.sessions sid (some next) }

/-- A session commits its changes and goes on. -/
def commit (next : Session) (tables : BuildTables) : ConcurrentFrontend :=
  { history := w.history.commit s.written tables
    sessions := Function.update w.sessions sid (some next) }

/-- `update_state_from_dict` until it knows whether the package is there. -/
def lookUp (buildId : Nat) (upd : UpdDict) : Option ConcurrentFrontend :=
  (s.row w.tables buildId).map fun b =>
    let stage : UpdateStage :=
      match b.package, truthyText upd.pkgName with
      | none, some name =>
        if w.tables.packageExists buildId name then .settled (some name) else .missing name
      | _, _ => .settled none
    w.resume sid { s with loaded := b :: s.loaded, stage := stage }

/-- `PackagesLogic.add`; a `DuplicateException` is answered by a rollback. -/
def add (buildId : Nat) (name : String) : ConcurrentFrontend :=
  if w.tables.packageExists buildId name then w.resume sid s.rollback
  else w.resume sid { s with stage := .added name }

/-- The commit of the package, with all that is pending; an `IntegrityError` is answered by a
rollback. -/
def createPackage (buildId : Nat) (name : String) : Option ConcurrentFrontend :=
  if w.tables.packageExists buildId name then some (w.resume sid s.rollback)
  else
    (w.tables.flush s.written).map fun tables =>
      w.commit sid s { s.committed with stage := .settled (some name) }
        (tables.insertPackage buildId name)

/-- The rest of `update_state_from_dict`. The chroots are loaded when they are needed. -/
def update (env : Surroundings) (buildId : Nat) (upd : UpdDict) (assign : Option String) :
    Option ConcurrentFrontend := do
  let b ← s.row w.tables buildId
  let current ← w.tables.builds.find buildId
  let loaded := { b with buildChroots := current.buildChroots }
  let package := w.tables.assignedPackage b assign
  let updated ← BuildsLogic.updateAssigned env { loaded with package := package } upd
  let written := s.written ++ [⟨upd, env, loaded, updated⟩]
  return w.resume sid { s with
    todo := s.todo.tail, stage := .entered, loaded := b :: s.loaded, written := written }

/-- The last commit, and the answer. -/
def respond : Option ConcurrentFrontend :=
  (w.tables.flush s.written).map fun tables =>
    w.commit sid s { s.committed with answer := some s.reply } tables

/-- A step of a session that has no answer. -/
def advance : SessionEvent → Option ConcurrentFrontend
  | .receive _ => none
  | .lookUp =>
    match s.stage, s.todo with
    | .entered, (buildId, upd) :: _ => w.lookUp sid s buildId upd
    | _, _ => none
  | .add =>
    match s.stage, s.todo with
    | .missing name, (buildId, _) :: _ => some (w.add sid s buildId name)
    | _, _ => none
  | .createPackage =>
    match s.stage, s.todo with
    | .added name, (buildId, _) :: _ => w.createPackage sid s buildId name
    | _, _ => none
  | .update env =>
    match s.stage, s.todo with
    | .settled assign, (buildId, upd) :: _ => w.update sid s env buildId upd assign
    | _, _ => none
  | .respond =>
    match s.todo with
    | [] => w.respond sid s
    | _ :: _ => none
  | .fail => some (w.resume sid { s with answer := some .failed })

/-- A step of the session with a number. -/
def step (w : ConcurrentFrontend) (event : Nat × SessionEvent) : Option ConcurrentFrontend :=
  match w.sessions event.1, event.2 with
  | none, .receive request =>
    some (w.resume event.1 (Session.receive w.tables w.history.length request))
  | none, _ => none
  | some s, e => if s.answer.isSome then none else w.advance event.1 s e

/-- Tables without a request. -/
def start (tables : BuildTables) : ConcurrentFrontend := ⟨⟨tables, []⟩, fun _ => none⟩

/-- The session is about to create a package that another one has created meanwhile. -/
def losesRace (w : ConcurrentFrontend) (sid : Nat) : Bool :=
  match w.sessions sid with
  | none => false
  | some s =>
    match s.stage, s.todo with
    | .missing name, (buildId, _) :: _ => w.tables.packageExists buildId name
    | .added name, (buildId, _) :: _ => w.tables.packageExists buildId name
    | _, _ => false

end ConcurrentFrontend

end Copr
