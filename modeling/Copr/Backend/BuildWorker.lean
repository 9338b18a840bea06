import Copr.Frontend.Models
import Copr.Lib.Programs

/-!
# The worker that builds

`BuildBackgroundWorker` of `background_worker_build.py`: it fetches a task, asks the frontend for
permission, takes a machine from the resalloc server, builds on it, publishes what it downloaded,
and tells the frontend how it ended. Every call of other code is answered by the environment, which
may also raise what that code raises or end the process. The steps of the build, the tickets and
the reports to the frontend and the manager are written into a history, the newest event first. The
flag `canceling`, the command that cancels a build on its machine, the messages on the bus and the
log files are calls that leave no event.
-/

namespace Copr.BuildBackgroundWorker

open Programs

/-- What other code raises. -/
inductive Failure
  /-- `CoprBackendError`. -/
  | coprBackendError
  /-- `CoprSignError`. -/
  | coprSignError
  /-- Any other exception. -/
  | other
  deriving DecidableEq, Repr

/-- What a call over ssh raises. -/
inductive SshFailure
  /-- `SSHConnectionError`. -/
  | connection
  /-- Any other exception. -/
  | other
  deriving DecidableEq, Repr

/-- The exceptions inside the worker. -/
inductive Exn
  /-- `BuildRetry`. -/
  | buildRetry
  /-- `BuildCanceled`. -/
  | buildCanceled
  /-- `BackendError`. -/
  | backendError
  /-- `SSHConnectionError`. -/
  | sshConnectionError
  /-- What other code raised. -/
  | failure (f : Failure)
  deriving DecidableEq, Repr

/-- What a call over ssh raises, inside the worker. -/
def SshFailure.exn : SshFailure → Exn
  | .connection => .sshConnectionError
  | .other => .failure .other

/-- `MAX_HOST_ATTEMPTS`. -/
def maxHostAttempts : Nat := 3

/-- The task as the frontend describes it. -/
structure Task where
  /-- `chroot`. -/
  chroot : String
  /-- `ssh_public_keys`, whether there are any. -/
  sshPublicKeys : Bool
  /-- The ids in `repos`. -/
  repos : List String
  /-- `storage`, whether it is Pulp. -/
  pulp : Bool
  deriving DecidableEq, Repr

/-- A source build. -/
def Task.isSource (task : Task) : Bool := task.chroot == "srpm-builds"

/-- `BuildJob`. -/
structure Job where
  /-- What was fetched. -/
  task : Task
  /-- `status`. -/
  status : Option StatusEnum
  deriving DecidableEq, Repr

/-- `ResallocHost`. -/
structure Host where
  /-- `ticket`. -/
  ticket : Nat
  /-- `hostname`, once the ticket is ready. -/
  hostname : Option String
  deriving DecidableEq, Repr

/-- The parts of a build that are behind the remote one. -/
inductive Progress
  /-- The results have been downloaded. -/
  | downloaded
  /-- There is a file `success`. -/
  | successFile
  /-- The packages are signed. -/
  | signed
  /-- The packages are in the storage. -/
  | uploaded
  /-- The repository is published. -/
  | createrepo
  /-- `results.json` has been read. -/
  | parsed
  /-- The details of the build are known. -/
  | details
  /-- The job is valid. -/
  | validated
  /-- The public key is in place. -/
  | pubkey
  /-- Temporary files are removed. -/
  | cleaned
  deriving DecidableEq, Repr

/-- What is seen of a worker. -/
inductive Event
  /-- The task was fetched. -/
  | fetched (task : Task)
  /-- The frontend is asked whether the task may start. -/
  | starting
  /-- `build` is called. -/
  | attempt (n : Nat)
  /-- The flag for a cancel request was read. -/
  | checked (requested : Bool)
  /-- A ticket was taken. -/
  | tookTicket (ticket : Nat)
  /-- The machine of the ticket is ready. -/
  | allocated (ticket : Nat) (hostname : String)
  /-- The wait for the ticket ended without a machine. -/
  | waitEnded (ticket : Nat)
  /-- The frontend is told that the build runs. -/
  | running
  /-- The build is started on the machine. -/
  | remoteBuild
  /-- One part was done. -/
  | progress (part : Progress)
  /-- The build ended, and whether it failed. -/
  | built (failed : Bool)
  /-- The build will be tried again. -/
  | retry (hostname : Option String)
  /-- The ticket was closed. -/
  | released (ticket : Nat)
  /-- The frontend is told how the build ended. -/
  | finished (status : StatusEnum)
  /-- The manager is told that the worker is done. -/
  | done
  deriving DecidableEq, Repr

/-- The attributes of a worker, the tickets that were taken so far, and the history. -/
structure Worker where
  /-- Calls so far. -/
  clock : Nat := 0
  /-- Tickets so far. -/
  tickets : Nat := 0
  /-- `job`. -/
  job : Option Job := none
  /-- `host`. -/
  host : Option Host := none
  /-- `canceled`. -/
  canceled : Bool := false
  /-- What has happened, the newest event first. -/
  trace : List Event := []
  deriving DecidableEq, Repr

/-- The answers to the calls, by their number, and the configuration. -/
structure Env where
  /-- `opts.do_sign`. -/
  doSign : Bool
  /-- The request for the task; nothing when the frontend client raises its exception. -/
  fetchTask : Nat → Finish Failure (Option Task)
  /-- `starting_build`. -/
  startingBuild : Nat → Finish Failure Bool
  /-- A call that returns nothing that matters. -/
  touch : Nat → Finish Failure Unit
  /-- The flag `cancel_request`. -/
  cancelRequest : Nat → Finish Failure Bool
  /-- `newTicket`. -/
  newTicket : Nat → Finish Failure Unit
  /-- Whether the thread has ended after another period. -/
  threadEnded : Nat → Finish Failure Bool
  /-- `wait_ready`: the name of the machine, nothing without success. -/
  waitReady : Nat → Finish Failure (Option String)
  /-- `release`. -/
  release : Nat → Finish Failure Unit
  /-- `rpm -q copr-rpmbuild`: nothing when it fails, else whether the version is high enough. -/
  rpmQuery : Nat → Finish SshFailure (Option Bool)
  /-- A command over ssh, whether it exits with zero. -/
  ssh : Nat → Finish SshFailure Bool
  /-- `_transfer_log_file`: nothing, or the reason of a failure. -/
  transferLogFile : Nat → Finish Failure (Option String)
  /-- The liveness probe of the ticket. -/
  probe : Nat → Finish Failure Bool
  /-- `_build_timeouted`. -/
  timeouted : Nat → Finish Failure Bool
  /-- `ticket.failed`. -/
  ticketFailed : Nat → Finish Failure Bool
  /-- The thread that keeps the machine for its user. -/
  keepAlive : Nat → Finish Failure (Option Unit)
  /-- `rsync_download`. -/
  download : Nat → Finish SshFailure Unit
  /-- Whether a file exists. -/
  exists? : Nat → Finish Failure Bool
  /-- `upload_build_results` and `create_repository_version`: whether the latter succeeds, nothing
  when it is not called. -/
  upload : Nat → Finish Failure (Option Bool)
  /-- `publish_repository`. -/
  publish : Nat → Finish Failure Bool

/-- A part of the worker. -/
abbrev Part (α : Type) := Prog Worker Exn α

/-- A call of other code. -/
def ask {φ α : Type} (exn : φ → Exn) (answers : Nat → Finish φ α) : Part α := fun s =>
  let t := { s with clock := s.clock + 1 }
  match answers s.clock with
  | .value a => (.value a, t)
  | .raised f => (.raised (exn f), t)
  | .killed => (.killed, t)

/-- A call that is not made over ssh. -/
def call {α : Type} (answers : Nat → Finish Failure α) : Part α := ask .failure answers

/-- A call that is made over ssh. -/
def callSsh {α : Type} (answers : Nat → Finish SshFailure α) : Part α := ask SshFailure.exn answers

/-- Something happens that changes no attribute. -/
def note (event : Event) : Part Unit := Prog.change fun s => { s with trace := event :: s.trace }

/-- `self.job.status = status`. -/
def Worker.setStatus (s : Worker) (status : StatusEnum) : Worker :=
  { s with job := s.job.map fun job => { job with status := some status } }

/-- An exception is raised when something is so. -/
def raiseIf (so : Bool) (e : Exn) : Part Unit := if so then Prog.raise e else pure ()

variable (env : Env)

/-! ## Tickets and cancel requests -/

/-- `_drop_host`. -/
def dropHost : Part Unit := do
  match ← Prog.read Worker.host with
  | none => pure ()
  | some host =>
    call env.release
    Prog.change fun s => { s with host := none, trace := .released host.ticket :: s.trace }

/-- `_cancel_task_check_request`. -/
def cancelTaskCheckRequest : Part Bool := do
  let requested ← call env.cancelRequest
  Prog.change fun s => { s with canceled := requested, trace := .checked requested :: s.trace }
  return requested

/-- `_cancel_if_requested`. -/
def cancelIfRequested : Part Unit := do
  if ← cancelTaskCheckRequest env then
    dropHost env
    Prog.raise .buildCanceled

/-- `_cancel_vm_allocation`. -/
def cancelVmAllocation : Part Unit := do
  call env.touch
  dropHost env

/-- `CancellableThreadTask.run`: the thread is awaited period by period, and after each period that
it outlives the check is made. What the method returned, nothing when it raised an exception. -/
def cancellableRun {α : Type} (method : Nat → Finish Failure (Option α)) (check : Part Bool)
    (cancel : Part Unit) (rounds : Nat) : Part (Option α) := do
  Prog.forever (fun _ => do
    if ← call env.threadEnded then
      return .inr ()
    if ← check then
      cancel.handle fun _ => pure ()
      return .inr ()
    return .inl ()) rounds ()
  (call method).handle fun _ => pure none

/-- The ticket of a new host. -/
def takeTicket : Part Unit := do
  call env.newTicket
  Prog.change fun s => { s with
    host := some ⟨s.tickets, none⟩
    tickets := s.tickets + 1
    trace := .tookTicket s.tickets :: s.trace }

/-- What the answer to `wait_ready` says about the host. -/
def Worker.waited (s : Worker) (host : Host) : Option String → Worker
  | some name => { s with
      host := some { host with hostname := some name }
      trace := .allocated host.ticket name :: s.trace }
  | none => { s with trace := .waitEnded host.ticket :: s.trace }

/-- `_alloc_host`. -/
def allocHost (rounds : Nat) : Part Unit :=
  Prog.forever (fun _ => do
    takeTicket env
    let success ← cancellableRun env env.waitReady (cancelTaskCheckRequest env)
      (cancelVmAllocation env) rounds
    raiseIf (← Prog.read Worker.canceled) .buildCanceled
    Prog.change fun s => s.host.elim s fun host => s.waited host success
    return if success.isSome then .inr () else .inl ()) rounds ()

/-! ## The remote build -/

/-- `_check_copr_builder`. -/
def checkCoprBuilder : Part Unit := do
  raiseIf ((← callSsh env.rpmQuery) != some true) .buildRetry

/-- `_check_vm`. -/
def checkVm : Part Unit := do
  checkCoprBuilder env
  raiseIf (!(← callSsh env.ssh)) .buildRetry

/-- `_fill_build_info_file`. -/
def fillBuildInfoFile : Part Unit := (call env.touch).handle fun _ => Prog.raise .backendError

/-- `_wait_for_repos`: `wait_for_repo` for the repositories of the project. -/
def waitForRepos (task : Task) : Part Unit :=
  if task.isSource then pure ()
  else Prog.each (fun _ => call env.touch)
    (task.repos.filter fun id => id == "copr_base" || id == "copr_coprdir")

/-- `_mark_running`: the frontend is told in the first attempt. -/
def markRunning (attempt : Nat) : Part Unit := do
  Prog.change fun s => s.setStatus .running
  if attempt = 0 then
    note .running
    call env.touch
    call env.touch
    call env.touch

/-- `_setup_for_user_ssh`: the expiration is set and the key deployed; an exit status that is not
zero is only logged. -/
def setupForUserSsh (task : Task) : Part Unit :=
  if task.isSource || !task.sshPublicKeys then pure ()
  else do
    let _ ← callSsh env.ssh
    let _ ← callSsh env.ssh

/-- `_start_remote_build`. -/
def startRemoteBuild : Part Unit := do
  note .remoteBuild
  raiseIf (!(← callSsh env.ssh)) .backendError

/-- `_check_build_interrupted`. -/
def checkBuildInterrupted : Part Bool := do
  if ← call env.probe then
    return true
  if ← cancelTaskCheckRequest env then
    return true
  call env.timeouted

/-- `_discard_running_worker`. -/
def discardRunningWorker : Part Unit := do
  call env.touch
  let _ ← (callSsh env.ssh).handle fun e =>
    if e = .sshConnectionError then pure false else Prog.raise e

/-- The build on the machine, until its log file has ended. -/
def followRemoteBuild (rounds : Nat) : Part Unit := do
  let transferFailure ← cancellableRun env env.transferLogFile (checkBuildInterrupted env)
    (discardRunningWorker env) rounds
  raiseIf (← Prog.read Worker.canceled) .buildCanceled
  raiseIf (← call env.timeouted) .backendError
  raiseIf ((← call env.ticketFailed) || transferFailure.getD "" != "") .buildRetry

/-- `_keep_alive_for_user_ssh`. -/
def keepAliveForUserSsh (task : Task) (rounds : Nat) : Part Unit :=
  if task.sshPublicKeys then do
    let _ ← cancellableRun env env.keepAlive (cancelTaskCheckRequest env)
      (discardRunningWorker env) rounds
    raiseIf (← Prog.read Worker.canceled) .buildCanceled
  else pure ()

/-- `_download_results`. -/
def downloadResults : Part Unit := do
  callSsh env.download
  note (.progress .downloaded)

/-! ## What is done with the results -/

/-- `_check_build_success`. -/
def checkBuildSuccess : Part Unit := do
  raiseIf (!(← call env.exists?)) .backendError
  note (.progress .successFile)

/-- `_sign_built_packages`. -/
def signBuiltPackages (task : Task) : Part Unit :=
  if task.isSource then pure ()
  else do
    call env.touch
    note (.progress .signed)

/-- `_upload_results_to_storage`. -/
def uploadResultsToStorage : Part Unit := do
  raiseIf ((← call env.upload) == some false) .backendError
  note (.progress .uploaded)

/-- `_do_createrepo`. -/
def doCreaterepo (task : Task) : Part Unit :=
  if task.isSource then pure ()
  else do
    raiseIf (!(← call env.publish)) .backendError
    note (.progress .createrepo)

/-- `_parse_results`. -/
def parseResults (task : Task) : Part Unit :=
  if task.sshPublicKeys then pure ()
  else do
    raiseIf (!(← call env.exists?)) .backendError
    call env.touch
    note (.progress .parsed)

/-- `_get_build_details`, and the update of the job. -/
def getBuildDetails : Part Unit := do
  (call env.touch).handle fun _ => Prog.raise .backendError
  note (.progress .details)

/-- `validate`. -/
def validate : Part Unit := do
  call env.touch
  note (.progress .validated)

/-- `_add_pubkey`. -/
def addPubkey (task : Task) : Part Unit :=
  if task.isSource || !env.doSign then pure ()
  else do
    call env.touch
    note (.progress .pubkey)

/-- `_cleanup`. -/
def cleanup (task : Task) : Part Unit := do
  (if task.pulp then call env.touch else pure () : Part Unit)
  note (.progress .cleaned)

/-- What is done when the builder claims success. -/
def publishResults (task : Task) : Part Unit := do
  checkBuildSuccess env
  (if env.doSign then signBuiltPackages env task else pure () : Part Unit)
  uploadResultsToStorage env
  doCreaterepo env task
  parseResults env task
  getBuildDetails env
  validate env
  addPubkey env task
  cleanup env task

/-- The last part of `build`: its exception, if any, is raised again after the status is set and
the result registered. -/
def concludeBuild (task : Task) : Part Unit := do
  let failed ← (do publishResults env task; return none).handle fun e => pure (some e)
  Prog.change fun s =>
    let status : StatusEnum := if failed.isSome then .failed else .succeeded
    { s.setStatus status with trace := .built failed.isSome :: s.trace }
  call env.touch
  match failed with
  | some e => Prog.raise e
  | none => pure ()

/-- `build`. -/
def build (task : Task) (rounds attempt : Nat) : Part Unit := do
  note (.attempt attempt)
  waitForRepos env task
  cancelIfRequested env
  call env.touch
  allocHost env rounds
  checkVm env
  fillBuildInfoFile env
  cancelIfRequested env
  markRunning env attempt
  setupForUserSsh env task
  startRemoteBuild env
  followRemoteBuild env rounds
  keepAliveForUserSsh env task rounds
  downloadResults env
  dropHost env
  concludeBuild env task

/-! ## The task -/

/-- What `retry_the_build` does about an exception for which it tries again. -/
def retried (seenHosts : List (Option String)) : Part (List (Option String)) := do
  match ← Prog.read Worker.host with
  | none => Prog.raise (.failure .other)
  | some host =>
    note (.retry host.hostname)
    dropHost env
    let seen := seenHosts.insert host.hostname
    raiseIf (maxHostAttempts ≤ seen.length) .backendError
    return seen

/-- The exceptions for which a build is tried again. -/
def Exn.retries (e : Exn) : Bool := e = .buildRetry ∨ e = .sshConnectionError

/-- `retry_the_build`. -/
def retryTheBuild (task : Task) (rounds : Nat) : Part Unit :=
  Prog.forever (fun (attempt, seenHosts) => do
    let again ← (do build env task rounds attempt; return false).handle fun e =>
      if e.retries then pure true else Prog.raise e
    if again then
      return .inl (attempt + 1, ← retried env seenHosts)
    return .inr ()) rounds (0, [])

/-- `_get_build_job`. -/
def getBuildJob : Part Task := do
  match ← call env.fetchTask with
  | none => Prog.raise .backendError
  | some task =>
    Prog.change fun s => { s with job := some ⟨task, none⟩, trace := .fetched task :: s.trace }
    raiseIf (task.chroot = "") .backendError
    call env.touch
    return task

/-- `_mark_starting`. -/
def markStarting : Part Unit := do
  Prog.change fun s => { s.setStatus .starting with trace := .starting :: s.trace }
  raiseIf (!(← call env.startingBuild)) .backendError

/-- `handle_build`. -/
def handleBuild (rounds : Nat) : Part Unit := do
  call env.touch
  let task ← getBuildJob env
  call env.touch
  markStarting env
  retryTheBuild env task rounds

/-- The status that is reported at the end. -/
def Job.lastStatus (job : Job) : StatusEnum :=
  if job.status = some .succeeded then .succeeded else .failed

/-- `_mark_finished`. -/
def markFinished (job : Job) : Part Unit := do
  Prog.change fun s =>
    { s.setStatus job.lastStatus with trace := .finished job.lastStatus :: s.trace }
  call env.touch
  call env.touch

/-- What is done about a job in the end: `_mark_finished` and `_compress_logs`. -/
def concludeJob : Option Job → Part Unit
  | some job => do
    markFinished env job
    call env.touch
  | none => pure ()

/-- `handle_task`. Every exception is only logged. -/
def handleTask (rounds : Nat) : Part Unit :=
  ((handleBuild env rounds).handle fun _ => pure ()).always do
    dropHost env
    concludeJob env (← Prog.read Worker.job)
    call env.touch
    note .done

end Copr.BuildBackgroundWorker
