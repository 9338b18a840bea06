import Mathlib.Data.List.Forall2
import Mathlib.Data.List.Nodup

/-!
# Builds in the frontend database

`StatusEnum` of `copr_common/enums.py` and the tables `Build`, `BuildChroot`,
`BuildChrootResult`, `Batch` and `CancelRequest` of `coprs/models.py`, with the columns that
the build logic reads or writes, and their derived properties. A row refers to its mock
chroot by holding it. Projects and users are left out, and so is who may do what.
-/

namespace Copr

/-- `StatusEnum`. -/
inductive StatusEnum
  /-- Build failed. -/
  | failed
  /-- Build succeeded. -/
  | succeeded
  /-- Build was canceled. -/
  | canceled
  /-- SRPM or RPM build is running. -/
  | running
  /-- Build or chroot is waiting to be picked. -/
  | pending
  /-- The chroot is not built. -/
  | skipped
  /-- Picked by a worker without a builder yet. -/
  | starting
  /-- SRPM is being imported into dist-git. -/
  | importing
  /-- Build or chroot was forked. -/
  | forked
  /-- Waiting for something else to finish. -/
  | waiting
  /-- Undefined. -/
  | unknown
  deriving DecidableEq, Repr

namespace StatusEnum

/-- `FINISHED_STATUSES`. -/
def finishedStatuses : List StatusEnum := [.succeeded, .forked, .canceled, .skipped, .failed]

/-- `BuildsLogic.terminal_states`. -/
def terminalStates : List StatusEnum := [.failed, .succeeded, .canceled]

/-- `_todo_states("for_backend")`. -/
def todoStates : List StatusEnum := [.pending, .starting, .running]

/-- `run_statuses` of `reschedule_build_chroot`. -/
def runStatuses : List StatusEnum := [.starting, .running]

/-- A status of `FINISHED_STATUSES`. -/
abbrev Finished (s : StatusEnum) : Prop := s ∈ finishedStatuses

/-- A status of `terminal_states`. -/
abbrev Terminal (s : StatusEnum) : Prop := s ∈ terminalStates

/-- A status in which a task is handed to the backend. -/
abbrev Todo (s : StatusEnum) : Prop := s ∈ todoStates

/-- Terminal states are finished ones. -/
theorem Terminal.finished {s : StatusEnum} (terminal : s.Terminal) : s.Finished := by
  cases s <;> revert terminal <;> decide

/-- A finished status is no reason to hand out a task. -/
theorem Finished.not_todo {s : StatusEnum} (finished : s.Finished) : ¬ s.Todo := by
  cases s <;> revert finished <;> decide

/-- The finished statuses that are not terminal. -/
theorem finished_iff (s : StatusEnum) :
    s.Finished ↔ s.Terminal ∨ s = .skipped ∨ s = .forked := by
  cases s <;> decide

/-- Rescheduling concerns tasks handed out. -/
theorem todo_of_run {s : StatusEnum} (running : s ∈ runStatuses) : s.Todo := by
  cases s <;> revert running <;> decide

end StatusEnum

/-- The values of `FailTypeEnum` that the build logic sets. -/
inductive FailTypeEnum
  /-- The default. -/
  | unset
  /-- The source build failed. -/
  | srpmBuildError
  /-- The import into dist-git failed. -/
  | srpmImportFailed
  deriving DecidableEq, Repr

/-- `MockChroot`; a unique constraint makes its name a key. -/
structure MockChroot where
  /-- `os_release`. -/
  osRelease : String
  /-- `os_version`. -/
  osVersion : String
  /-- `arch`. -/
  arch : String
  /-- `distgit_branch_name`. -/
  distgitBranchName : String
  deriving DecidableEq, Repr

namespace MockChroot

/-- `name`. -/
def name (m : MockChroot) : String := m.osRelease ++ "-" ++ m.osVersion ++ "-" ++ m.arch

/-- `name_release`. -/
def nameRelease (m : MockChroot) : String := m.osRelease ++ "-" ++ m.osVersion

end MockChroot

/-- Different mock chroots, such as those enabled in a project. -/
structure ChrootSet where
  /-- The mock chroots. -/
  chroots : List MockChroot
  /-- No name occurs twice. -/
  distinct : (chroots.map MockChroot.name).Nodup
  deriving DecidableEq, Repr

/-- `BuildChrootResult`: a package built in a chroot. -/
structure BuildChrootResult where
  /-- `name`. -/
  name : String
  /-- `epoch`. -/
  epoch : Int
  /-- `version`. -/
  version : String
  /-- `release`. -/
  release : String
  /-- `arch`. -/
  arch : String
  deriving DecidableEq, Repr

/-- `BuildChroot`. -/
structure BuildChroot where
  /-- `mock_chroot`. -/
  mockChroot : MockChroot
  /-- `status`. -/
  status : StatusEnum := .waiting
  /-- `status_reason`. -/
  statusReason : Option String := none
  /-- `git_hash`. -/
  gitHash : Option String := none
  /-- `started_on`. -/
  startedOn : Option Int := none
  /-- `ended_on`. -/
  endedOn : Option Int := none
  /-- `result_dir`. -/
  resultDir : String := ""
  /-- `results`. -/
  results : List BuildChrootResult := []
  deriving DecidableEq, Repr

/-- `name` of a build chroot. -/
def BuildChroot.name (c : BuildChroot) : String := c.mockChroot.name

/-- `Build`. -/
structure Build where
  /-- Primary key. -/
  id : Nat
  /-- `canceled`. -/
  canceled : Bool := false
  /-- `source_status`. -/
  sourceStatus : StatusEnum
  /-- `fail_type`. -/
  failType : FailTypeEnum := .unset
  /-- The name of `package`. -/
  package : Option String := none
  /-- `built_packages`. -/
  builtPackages : Option String := none
  /-- `srpm_url`. -/
  srpmUrl : Option String := none
  /-- `pkg_version`. -/
  pkgVersion : Option String := none
  /-- `result_dir`. -/
  resultDir : String := ""
  /-- `is_background`. -/
  isBackground : Bool := false
  /-- `batch_id`. -/
  batchId : Option Nat := none
  /-- `build_chroots`. -/
  buildChroots : List BuildChroot
  deriving DecidableEq, Repr

namespace Build

/-- `task_id` of the source build. -/
def taskId (b : Build) : String := toString b.id

/-- `task_id` of a build chroot. -/
def chrootTaskId (b : Build) (c : BuildChroot) : String := toString b.id ++ "-" ++ c.name

/-- The unique constraint on the chroots of a build. -/
def Distinct (b : Build) : Prop := (b.buildChroots.map BuildChroot.name).Nodup

/-- `finished_early`. -/
def finishedEarly (b : Build) : Bool :=
  b.canceled || decide (b.sourceStatus = .failed ∨ b.sourceStatus = .canceled)

/-- `finished`. -/
def finished (b : Build) : Bool :=
  if b.finishedEarly then true
  else if b.buildChroots.isEmpty then decide b.sourceStatus.Finished
  else b.buildChroots.all fun c => decide c.status.Finished

/-- `cancelable`. -/
def cancelable (b : Build) : Bool := !b.finished

end Build

/-- `Batch`. -/
structure Batch where
  /-- Primary key. -/
  id : Nat
  /-- `blocked_by_id`. -/
  blockedById : Option Nat
  deriving DecidableEq, Repr

/-- The tables, and the sequence of build ids. -/
structure Database where
  /-- All builds. -/
  builds : List Build
  /-- All batches. -/
  batches : List Batch
  /-- `what` of all cancel requests. -/
  cancelRequests : List String
  /-- The id of the next build. -/
  nextBuildId : Nat
  deriving DecidableEq, Repr

namespace Database

/-- The empty database. -/
def empty : Database := ⟨[], [], [], 1⟩

/-- `builds` of a batch. -/
def batchBuilds (db : Database) (batchId : Nat) : List Build :=
  db.builds.filter fun b => b.batchId = some batchId

/-- `Batch.finished`; `cached` says for which batches the Redis cache answers. -/
def batchFinished (db : Database) (cached : Nat → Bool) (batchId : Nat) : Bool :=
  cached batchId ||
    (!(db.batchBuilds batchId).isEmpty && (db.batchBuilds batchId).all Build.finished)

/-- `Batch.blocked`, where `finished` answers about batches. The fuel bounds the chain of
batches; a chain that does not end counts as blocked. -/
def chainBlocked (batches : List Batch) (finished : Nat → Bool) : Nat → Nat → Bool
  | 0, _ => true
  | fuel + 1, batchId =>
    match batches.find? (·.id = batchId) with
    | none => false
    | some batch =>
      match batch.blockedById with
      | none => false
      | some parent => chainBlocked batches finished fuel parent || !finished parent

/-- `Batch.blocked`. A chain that ends is not longer than there are batches. -/
def batchBlocked (db : Database) (cached : Nat → Bool) (batchId : Nat) : Bool :=
  chainBlocked db.batches (db.batchFinished cached) (db.batches.length + 1) batchId

/-- `Build.blocked`. -/
def blocked (db : Database) (cached : Nat → Bool) (b : Build) : Bool :=
  match b.batchId with
  | none => false
  | some batchId => db.batchBlocked cached batchId

end Database

end Copr
