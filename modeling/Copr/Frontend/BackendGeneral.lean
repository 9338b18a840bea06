import Copr.Lib.Runs
import Copr.Frontend.BuildsLogic

/-!
# The messages that change builds

The endpoints of `coprs/views/backend_ns/backend_general.py` that a worker, the dispatcher or
dist-git call, together with the cancelations by a user or by the end of a chroot's life. A
message is one request in one transaction: it changes the rows it is about, or, when it
raises or is refused, nothing. The operations that create and remove builds follow.
-/

namespace Copr

open Runs

/-- A request that changes existing builds. -/
inductive Message
  /-- `/update/` for one build. -/
  | update (env : Surroundings) (buildId : Nat) (upd : UpdDict)
  /-- `/starting_build/`. -/
  | startingBuild (env : Surroundings) (buildId : Nat) (upd : UpdDict)
  /-- `/reschedule_build_chroot/`. -/
  | rescheduleBuildChroot (env : Surroundings) (buildId : Nat) (taskId : String)
    (chroot : Option String)
  /-- `/import-completed/` with the commit of each branch. -/
  | importCompleted (buildId : Nat) (branchCommits : List (String × String))
  /-- `/build-tasks/canceled/<task_id>/`. -/
  | buildTaskCanceled (taskId : String)
  /-- A user who may do so cancels a build. -/
  | cancelBuild (buildId : Nat)
  /-- A mock chroot reaches the end of its life. -/
  | cancelBuildChrootsByMock (mockChroot : MockChroot)
  deriving DecidableEq, Repr

namespace Build

open BuildsLogic

/-- `starting_build`: the answer `can_start` and the build afterwards. -/
def startingBuild (env : Surroundings) (b : Build) (upd : UpdDict) : Option (Bool × Build) :=
  if b.canceled then some (false, b)
  else (updateStateFromDict env b upd).map fun updated => (true, updated)

/-- `reschedule_build_chroot`. -/
def rescheduleBuildChroot (env : Surroundings) (b : Build) (taskId : String)
    (chroot : Option String) : Option Build :=
  if b.canceled then some b
  else if taskId = b.taskId then
    if b.sourceStatus ∈ StatusEnum.runStatuses then
      updateStateFromDict env b { taskId := taskId, status := .pending }
    else some b
  else if b.buildChroots.any fun c =>
      decide (some c.name = chroot) && decide (c.status ∈ StatusEnum.runStatuses) then
    updateStateFromDict env b { taskId := taskId, chroot := chroot, status := .pending }
  else some b

/-- The chroot is on a branch with a commit. -/
def collected (branchCommits : List (String × String)) (c : BuildChroot) : Bool :=
  (branchCommits.lookup c.mockChroot.distgitBranchName).isSome

/-- `dist_git_upload_completed` on one chroot. -/
def importChroot (branchCommits : List (String × String)) (c : BuildChroot) : BuildChroot :=
  match branchCommits.lookup c.mockChroot.distgitBranchName with
  | some gitHash =>
    if c.status = .skipped then c else { c with status := .pending, gitHash := some gitHash }
  | none => { c with status := .failed }

/-- `dist_git_upload_completed`. Enqueueing a chroot asks for the name of the package. -/
def distGitUploadCompleted (b : Build) (branchCommits : List (String × String)) : Option Build :=
  let chroots := b.buildChroots.map (importChroot branchCommits)
  if b.buildChroots.all (collected branchCommits) then
    if b.package.isNone && !b.buildChroots.isEmpty then none
    else some { b with buildChroots := chroots, sourceStatus := .succeeded }
  else
    some { b with
      buildChroots := chroots
      sourceStatus := .failed
      failType := .srpmImportFailed }

/-- `build_task_canceled`: a task id with a dash names a chroot. -/
def buildTaskCanceled (b : Build) (taskId : String) : Build :=
  if '-' ∈ taskId.toList then
    { b with
      buildChroots := b.buildChroots.map fun c =>
        if b.chrootTaskId c = taskId ∧ ¬ c.status.Finished then { c with status := .canceled }
        else c }
  else if taskId = b.taskId ∧ ¬ b.sourceStatus.Finished then { b with sourceStatus := .canceled }
  else b

/-- The handler of a message that names a build by its id; `none` is an error response. -/
def handle (b : Build) : Message → Option Build
  | .update env _ upd => updateStateFromDict env b upd
  | .startingBuild env _ upd => (b.startingBuild env upd).map Prod.snd
  | .rescheduleBuildChroot env _ taskId chroot => b.rescheduleBuildChroot env taskId chroot
  | .importCompleted _ branchCommits => b.distGitUploadCompleted branchCommits
  | .buildTaskCanceled taskId => some (b.buildTaskCanceled taskId)
  | .cancelBuild _ => BuildsLogic.cancelBuild b
  | .cancelBuildChrootsByMock mockChroot => some (BuildsLogic.cancelBuildChrootsByMock mockChroot b)

/-- The message is about the build; two kinds look at all builds. -/
def addressed (b : Build) : Message → Bool
  | .update _ buildId _ => decide (b.id = buildId)
  | .startingBuild _ buildId _ => decide (b.id = buildId)
  | .rescheduleBuildChroot _ buildId _ _ => decide (b.id = buildId)
  | .importCompleted buildId _ => decide (b.id = buildId)
  | .buildTaskCanceled _ => true
  | .cancelBuild buildId => decide (b.id = buildId)
  | .cancelBuildChrootsByMock _ => true

/-- The row after a message. -/
def receive (b : Build) (m : Message) : Build :=
  if b.addressed m then (b.handle m).getD b else b

/-- The cancel requests that a message adds for the build. -/
def addedRequests (b : Build) : Message → List String
  | .cancelBuild buildId => if b.id = buildId then cancelBuildRequests b else []
  | .cancelBuildChrootsByMock mockChroot => cancelByMockRequests mockChroot b
  | _ => []

end Build

namespace Database

/-- The database after a message. -/
def receive (db : Database) (m : Message) : Database :=
  { db with
    builds := db.builds.map fun b => b.receive m
    cancelRequests :=
      (match m with
        | .buildTaskCanceled taskId => db.cancelRequests.filter fun what => decide (what ≠ taskId)
        | _ => db.cancelRequests) ++ db.builds.flatMap fun b => b.addedRequests m }

/-- Messages as steps; every message is answered somehow. -/
def deliver (db : Database) (m : Message) : Option Database := some (db.receive m)

end Database

/-! ## The queue for the backend -/

/-- The part of a record of `/pending-jobs/` that the dispatcher looks at. -/
structure JobRecord where
  /-- `task_id`. -/
  taskId : String
  /-- `build_id`. -/
  buildId : Nat
  /-- `chroot`; missing for a source build. -/
  chroot : Option String
  /-- `background`. -/
  background : Bool
  deriving DecidableEq, Repr

/-- `get_srpm_build_record`. -/
def getSrpmBuildRecord (b : Build) : JobRecord := ⟨b.taskId, b.id, none, b.isBackground⟩

/-- `get_build_record`. -/
def getBuildRecord (task : Build × BuildChroot) : JobRecord :=
  ⟨task.1.chrootTaskId task.2, task.1.id, some task.2.name, task.1.isBackground⟩

/-- `pending_jobs`, in the order of the rows. -/
def Database.pendingJobs (db : Database) (cached : Nat → Bool) : List JobRecord :=
  ((BuildsLogic.getPendingSrpmBuildTasks db).filter fun b => !db.blocked cached b).map
    getSrpmBuildRecord ++
  ((BuildsLogic.getPendingBuildTasks db).filter fun task => !db.blocked cached task.1).map
    getBuildRecord

/-! ## Builds come and go -/

/-- `after_build_id` and `with_build_id` of a submission. -/
inductive Batching
  /-- Into the batch of this build. `allowed` says whether the user may add builds to it, or may
  build in the project when the build is not in a batch yet. -/
  | withBuild (buildId : Nat) (allowed : Bool)
  /-- Into a new batch behind the one of this build. -/
  | afterBuild (buildId : Nat) (allowed : Bool)
  deriving DecidableEq, Repr

/-- A submission, as `BuildsLogic.add` gets it. -/
structure Submission where
  /-- The name of the package, where it is known. -/
  package : Option String
  /-- The chroots that `_chroots_to_add` finds. -/
  chroots : ChrootSet
  /-- `git_hashes`. -/
  gitHashes : List (String × String)
  /-- `skip_import`, with an SRPM. -/
  skipImport : Bool
  /-- Names of the chroots that `create_new_from_other_build` marks as skipped. -/
  skipped : List String
  /-- `background`. -/
  background : Bool
  /-- The batch options. -/
  batching : Option Batching
  deriving DecidableEq, Repr

/-- An operation on the database. -/
inductive Operation
  /-- A message arrives. -/
  | message (m : Message)
  /-- A build is submitted; `cached` answers about batches. -/
  | add (cached : Nat → Bool) (submission : Submission)
  /-- `fork_build` of some chroots of a build, named here. -/
  | fork (buildId : Nat) (chroots : List String)
  /-- `rawhide_to_release` adds a forked chroot next to a succeeded one. -/
  | rawhideToRelease (buildId : Nat) (rawhide dest : MockChroot)
  /-- `mark_as_failed`. -/
  | markAsFailed (buildId : Nat)
  /-- `delete_build`. -/
  | deleteBuild (buildId : Nat)

namespace Database

/-- A new batch. -/
def newBatch (db : Database) (blockedById : Option Nat) : Nat × Database :=
  (db.batches.length + 1,
    { db with batches := db.batches ++ [⟨db.batches.length + 1, blockedById⟩] })

/-- `batching_user_error`, where `allowed` is the answer of `can_assign_builds` or `can_build_in`.
Anybody may wait for a batch, but a finished one takes no builds, and a finished build gets no new
batch. -/
def batchingUserError (db : Database) (cached : Nat → Bool) (b : Build) (modify allowed : Bool) :
    Bool :=
  match b.batchId with
  | some batchId => modify && (db.batchFinished cached batchId || !allowed)
  | none => !allowed || b.finished

/-- `get_batch_or_create`. -/
def getBatchOrCreate (db : Database) (cached : Nat → Bool) (buildId : Nat)
    (modify allowed : Bool) : Option (Nat × Database) :=
  match db.builds.find? (·.id = buildId) with
  | none => none
  | some b =>
    if db.batchingUserError cached b modify allowed then none
    else
      match b.batchId with
      | some batchId => some (batchId, db)
      | none =>
        let (batchId, grown) := db.newBatch none
        some (batchId, { grown with
          builds := grown.builds.map fun other =>
            if other.id = buildId then { other with batchId := some batchId } else other })

/-- `setup_batch`. -/
def setupBatch (db : Database) (cached : Nat → Bool) :
    Option Batching → Option (Option Nat × Database)
  | none => some (none, db)
  | some (.withBuild buildId allowed) =>
    (db.getBatchOrCreate cached buildId true allowed).map fun (batchId, grown) =>
      (some batchId, grown)
  | some (.afterBuild buildId allowed) =>
    (db.getBatchOrCreate cached buildId false allowed).map fun (batchId, grown) =>
      let (after, larger) := grown.newBatch (some batchId)
      (some after, larger)

/-- The build that `add` creates, before `create_new_from_other_build` skips chroots. -/
def addedBuild (id : Nat) (batchId : Option Nat) (s : Submission) : Build :=
  { id := id
    sourceStatus := if s.skipImport then .succeeded else .pending
    package := s.package
    isBackground := s.background
    batchId := batchId
    buildChroots := s.chroots.chroots.map fun m =>
      { mockChroot := m
        status := if s.skipImport then .pending else .waiting
        gitHash := s.gitHashes.lookup m.name } }

/-- `create_new_from_other_build` behind `add`. -/
def skipPreviouslySkipped (names : List String) (b : Build) : Build :=
  { b with
    buildChroots := b.buildChroots.map fun c =>
      if c.name ∈ names then { c with status := .skipped } else c }

/-- `add`; a build of a known package needs chroots, and enqueueing needs a package. -/
def add (db : Database) (cached : Nat → Bool) (s : Submission) : Option Database :=
  if s.package.isSome ∧ s.chroots.chroots = [] then none
  else if s.skipImport = true ∧ s.package = none ∧ s.chroots.chroots ≠ [] then none
  else
    (db.setupBatch cached s.batching).map fun (batchId, grown) =>
      { grown with
        builds := grown.builds ++
          [skipPreviouslySkipped s.skipped (addedBuild grown.nextBuildId batchId s)]
        nextBuildId := grown.nextBuildId + 1 }

/-- `'{:08}'.format(id)`. -/
def eightDigits (id : Nat) : String := String.ofList ((toString id).toList.leftpad 8 '0')

/-- `fork_build`: columns are copied, apart from those that name rows or directories. -/
def forkBuild (id : Nat) (b : Build) (chroots : List String) : Build :=
  { b with
    id := id
    sourceStatus := .forked
    resultDir := eightDigits id
    buildChroots := (b.buildChroots.filter fun c => decide (c.name ∈ chroots)).map fun c =>
      { c with
        status := .forked
        resultDir := eightDigits id ++ "-" ++ b.package.getD ""
        results := [] } }

/-- `rawhide_to_release` for one build: a succeeded rawhide chroot is copied, unless the build
has the new chroot. -/
def forkRawhideChroot (rawhide dest : MockChroot) (b : Build) : Build :=
  match b.buildChroots.find? fun c => decide (c.name = rawhide.name) with
  | none => b
  | some c =>
    if c.status = .succeeded ∧ ∀ other ∈ b.buildChroots, other.name ≠ dest.name then
      { b with
        buildChroots := b.buildChroots ++
          [{ c with mockChroot := dest, status := .forked, results := [] }] }
    else b

/-- One operation; `none` is an error response. -/
def operate (db : Database) : Operation → Option Database
  | .message m => some (db.receive m)
  | .add cached submission => db.add cached submission
  | .fork buildId chroots =>
    (db.builds.find? (·.id = buildId)).map fun b =>
      { db with
        builds := db.builds ++ [forkBuild db.nextBuildId b chroots]
        nextBuildId := db.nextBuildId + 1 }
  | .rawhideToRelease buildId rawhide dest =>
    some { db with
      builds := db.builds.map fun b =>
        if b.id = buildId then forkRawhideChroot rawhide dest b else b }
  | .markAsFailed buildId =>
    some { db with
      builds := db.builds.map fun b => if b.id = buildId then BuildsLogic.markAsFailed b else b }
  | .deleteBuild buildId =>
    if (db.builds.all fun b => !decide (b.id = buildId) || b.finished) = true then
      some { db with builds := db.builds.filter fun b => decide (b.id ≠ buildId) }
    else none

end Database

/-! ## Concrete rows -/

namespace Sample

/-- A mock chroot. -/
def fedora : MockChroot := ⟨"fedora", "39", "x86_64", "f39"⟩

/-- A mock chroot on another branch. -/
def epel : MockChroot := ⟨"epel", "9", "x86_64", "epel9"⟩

/-- A project with two chroots, at some time. -/
def project : Surroundings := ⟨1000, .present, ⟨[fedora, epel], by decide⟩⟩

/-- A submission for two chroots, without options. -/
def submission : Submission where
  package := none
  chroots := ⟨[fedora, epel], by decide⟩
  gitHashes := []
  skipImport := false
  skipped := []
  background := false
  batching := none

/-- The database after the submission. -/
def submitted : Operation := .add (fun _ => false) submission

/-- A report about the source build of build 1. -/
def sourceReport (status : StatusEnum) : Message :=
  .update project 1
    { taskId := "1", chroot := some "srpm-builds", status := status, pkgName := some "hello" }

/-- What a worker reports about the first chroot of build 1, with a built package. -/
def chrootUpd (status : StatusEnum) : UpdDict where
  taskId := "1-fedora-39-x86_64"
  chroot := some "fedora-39-x86_64"
  status := status
  results := some { packages := some [⟨"hello", 0, "2.8", "1", "x86_64"⟩] }

/-- A report about the first chroot of build 1. -/
def chrootReport (status : StatusEnum) : Message := .update project 1 (chrootUpd status)

/-- The import of build 1 into the branches of both chroots. -/
def imported : Message := .importCompleted 1 [("f39", "c0ffee"), ("epel9", "c0ffee")]

end Sample

end Copr
