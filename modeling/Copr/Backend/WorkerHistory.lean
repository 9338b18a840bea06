import Copr.Backend.BuildWorker

/-!
# What a worker may do

The history of a worker as a machine: what is known of the worker after its history, and which
event may come next. Every run of `handle_task`, whatever other code answers or raises and
wherever the process ends, is a run of this machine.
-/

namespace Copr.BuildBackgroundWorker

open Programs

/-- The parts of a build that come after the download, in their order. -/
def published (doSign : Bool) (task : Task) : List Progress :=
  .successFile ::
    ((if doSign && !task.isSource then [.signed] else []) ++ .uploaded ::
      ((if !task.isSource then [.createrepo] else []) ++
        ((if !task.sshPublicKeys then [.parsed] else []) ++ .details :: .validated ::
          ((if doSign && !task.isSource then [.pubkey] else []) ++ [.cleaned]))))

/-- The parts of a build that make it a success, in their order. -/
def required (doSign : Bool) (task : Task) : List Progress :=
  .downloaded :: published doSign task

/-- What is known of a worker after its history. -/
structure View where
  /-- The task, once it was fetched. -/
  task : Option Task := none
  /-- The host. -/
  host : Option Host := none
  /-- The ticket of the host is awaited. -/
  waiting : Bool := false
  /-- A ticket was closed that had no machine. -/
  vain : Bool := false
  /-- A cancel request was seen. -/
  canceled : Bool := false
  /-- Tickets so far. -/
  tickets : Nat := 0
  /-- Attempts so far. -/
  attempts : Nat := 0
  /-- The parts that are done in this attempt. -/
  chain : List Progress := []
  /-- The machines on which a build failed so that it was tried again. -/
  seen : List (Option String) := []
  /-- The frontend was told that the build runs. -/
  announced : Bool := false
  /-- The build succeeded. -/
  succeeded : Bool := false
  /-- The frontend was told how the build ended. -/
  reported : Bool := false
  deriving DecidableEq, Repr

/-- The event changes no attribute of the worker. -/
def Event.inner : Event → Bool
  | .starting | .attempt _ | .running | .remoteBuild | .progress _ | .retry _ | .done => true
  | _ => false

namespace View

/-- What is known after another event. -/
def after (v : View) : Event → View
  | .fetched task => { v with task := some task }
  | .starting => v
  | .attempt _ => { v with attempts := v.attempts + 1, chain := [] }
  | .checked requested => { v with canceled := requested }
  | .tookTicket ticket =>
    { v with host := some ⟨ticket, none⟩, waiting := true, tickets := v.tickets + 1 }
  | .allocated ticket name => { v with host := some ⟨ticket, some name⟩, waiting := false }
  | .waitEnded _ => { v with waiting := false }
  | .running => { v with announced := true }
  | .remoteBuild => v
  | .progress part => { v with chain := v.chain ++ [part] }
  | .built failed => { v with succeeded := !failed }
  | .retry hostname => { v with seen := v.seen.insert hostname }
  | .released _ => { v with
      host := none
      waiting := false
      vain := v.vain || v.host.any fun host => host.hostname.isNone }
  | .finished _ => { v with reported := true }
  | .done => v

/-- The machine is ready. -/
def Allocated (v : View) : Prop := ∃ ticket name, v.host = some ⟨ticket, some name⟩

/-- There is no machine, and no ticket is held. -/
def Free (v : View) : Prop := v.host = none ∧ v.waiting = false

/-- The status that the worker has reached agrees with what it has done. -/
def Settled (doSign : Bool) (v : View) : Prop :=
  ∀ task, v.task = some task → (v.succeeded = true ↔ v.chain = required doSign task)

/-- The next event may be this one. -/
def Allows (doSign : Bool) (v : View) : Event → Prop
  | .fetched _ => v.task = none ∧ v.attempts = 0 ∧ v.canceled = false
  | .starting => v.task.isSome ∧ v.attempts = 0 ∧ v.reported = false ∧ v.canceled = false
  | .attempt n => n = v.attempts ∧ v.Free ∧ v.canceled = false ∧ v.succeeded = false ∧
      v.seen.length < maxHostAttempts ∧ v.task.isSome ∧ v.reported = false
  | .checked _ => v.canceled = false ∧ v.reported = false ∧ v.succeeded = false
  | .tookTicket ticket => ticket = v.tickets ∧ v.canceled = false ∧ v.waiting = false ∧
      ¬ v.Allocated ∧ v.vain = false ∧ v.reported = false
  | .allocated ticket _ => v.host = some ⟨ticket, none⟩ ∧ v.waiting = true ∧ v.canceled = false
  | .waitEnded ticket => v.host = some ⟨ticket, none⟩ ∧ v.waiting = true ∧ v.canceled = false
  | .running => v.attempts = 1 ∧ v.announced = false ∧ v.canceled = false ∧ v.Allocated ∧
      v.reported = false
  | .remoteBuild => v.canceled = false ∧ v.Allocated ∧ v.reported = false
  | .progress part => v.canceled = false ∧ v.reported = false ∧ v.succeeded = false ∧
      ∃ task, v.task = some task ∧ v.chain ++ [part] <+: required doSign task
  | .built failed => v.canceled = false ∧ v.Free ∧ v.reported = false ∧
      ∃ task, v.task = some task ∧ (failed = false ↔ v.chain = required doSign task)
  | .retry hostname => v.canceled = false ∧ v.seen.length < maxHostAttempts ∧
      ∃ ticket name, v.host = some ⟨ticket, some name⟩ ∧ hostname = some name
  | .released ticket => ∃ name, v.host = some ⟨ticket, name⟩
  | .finished status => v.reported = false ∧ v.host = none ∧ v.task.isSome ∧ v.Settled doSign ∧
      status = if v.succeeded then .succeeded else .failed
  | .done => v.host = none

end View

/-- Histories in which every event was allowed where it stands, and what is known after them. -/
inductive Follows (doSign : Bool) : List Event → View → Prop
  /-- Nothing has happened. -/
  | start : Follows doSign [] {}
  /-- An allowed event happened. -/
  | next {history v event} (before : Follows doSign history v) (allowed : v.Allows doSign event) :
    Follows doSign (event :: history) (v.after event)

/-- `job.status` is `succeeded`. -/
def Worker.succeeded (s : Worker) : Bool :=
  s.job.any fun job => job.status = some .succeeded

/-- The status that is set is the status of a job that is there. -/
theorem Worker.succeeded_setStatus (s : Worker) (status : StatusEnum) :
    (s.setStatus status).succeeded = (s.job.isSome && decide (status = .succeeded)) := by
  unfold Worker.succeeded Worker.setStatus
  cases s.job <;> simp

/-- The task stays the same. -/
theorem Worker.setStatus_task (s : Worker) (status : StatusEnum) :
    (s.setStatus status).job.map Job.task = s.job.map Job.task := by
  rw [Worker.setStatus, Option.map_map]
  rfl

/-- The attributes of a worker are what is known of it. -/
structure Worker.Matches (s : Worker) (v : View) : Prop where
  /-- The tickets. -/
  tickets : v.tickets = s.tickets
  /-- The task. -/
  task : v.task = s.job.map Job.task
  /-- The status. -/
  succeeded : v.succeeded = s.succeeded
  /-- The host. -/
  host : v.host = s.host
  /-- The flag. -/
  canceled : v.canceled = s.canceled

/-- A worker whose task is known has a job. -/
theorem Worker.Matches.job_isSome {s : Worker} {v : View} {task : Task} (agrees : s.Matches v)
    (known : v.task = some task) : s.job.isSome = true := by
  have mapped := agrees.task.symm.trans known
  cases held : s.job with
  | none => simp [held] at mapped
  | some job => rfl

/-- The worker has an allowed history, after which something is known. -/
def Known (doSign : Bool) (holds : View → Prop) (s : Worker) : Prop :=
  ∃ v, Follows doSign s.trace v ∧ s.Matches v ∧ holds v

/-- Whatever is known, the history is allowed. -/
theorem Known.anyhow {doSign : Bool} {holds : View → Prop} {s : Worker}
    (known : Known doSign holds s) : Known doSign (fun _ => True) s :=
  known.imp fun _ about => ⟨about.1, about.2.1, trivial⟩

/-- What is known when a part of the worker does not return. -/
def leaving (doSign : Bool) (raised : Exn → View → Prop) : Exits Worker Exn where
  raised e := Known doSign (raised e)
  killed := Known doSign fun _ => True

section Rules

variable {doSign : Bool} {α φ : Type} {holds then' : View → Prop} {raised : Exn → View → Prop}

/-- Asking for an answer writes no event, so what was known still is. -/
theorem ask_known {exn : φ → Exn} {answers : Nat → Finish φ α}
    (leaves : ∀ f v, holds v → raised (exn f) v) :
    Meets (Known doSign holds) (ask exn answers) (fun _ => Known doSign holds)
      (leaving doSign raised) := by
  rintro s ⟨v, history, agrees, known⟩
  have same : { s with clock := s.clock + 1 }.Matches v :=
    ⟨agrees.tickets, agrees.task, agrees.succeeded, agrees.host, agrees.canceled⟩
  unfold ask
  dsimp only
  cases answers s.clock with
  | value a => exact ⟨v, history, same, known⟩
  | raised f => exact ⟨v, history, same, leaves f v known⟩
  | killed => exact ⟨v, history, same, trivial⟩

/-- A change that writes one permitted event leaves what is known after that event. -/
theorem change_known {f : Worker → Worker}
    (does : ∀ s v, s.Matches v → holds v → ∃ event, (f s).trace = event :: s.trace ∧
      v.Allows doSign event ∧ (f s).Matches (v.after event) ∧ then' (v.after event)) :
    Meets (Known doSign holds) (Prog.change f) (fun _ => Known doSign then')
      (leaving doSign raised) := by
  refine Meets.change fun s ⟨v, history, agrees, known⟩ => ?_
  obtain ⟨event, trace, allowed, still, next⟩ := does s v agrees known
  exact ⟨v.after event, trace ▸ history.next allowed, still, next⟩

/-- Something happens that changes no attribute. -/
theorem note_known {event : Event} (inner : event.inner = true)
    (allowed : ∀ v, holds v → v.Allows doSign event) (next : ∀ v, holds v → then' (v.after event)) :
    Meets (Known doSign holds) (note event) (fun _ => Known doSign then')
      (leaving doSign raised) := by
  refine change_known fun s v agrees known => ⟨event, rfl, allowed v known, ?_, next v known⟩
  cases event <;> first | contradiction | exact ⟨agrees.1, agrees.2, agrees.3, agrees.4, agrees.5⟩

/-- The status of the job becomes one that is not success. -/
theorem setStatus_known {status : StatusEnum} (other : status ≠ .succeeded)
    (unsucceeded : ∀ v, holds v → v.succeeded = false) :
    Meets (Known doSign holds) (Prog.change fun s => s.setStatus status)
      (fun _ => Known doSign holds) (leaving doSign raised) := by
  refine Meets.change fun s ⟨v, history, agrees, known⟩ => ⟨v, history, ?_, known⟩
  refine ⟨agrees.tickets, ?_, ?_, agrees.host, agrees.canceled⟩
  · exact agrees.task.trans (s.setStatus_task status).symm
  · rw [unsucceeded v known, Worker.succeeded_setStatus, decide_eq_false other, Bool.and_false]

/-- The ticket of the host, if there is one, is closed. -/
theorem dropHost_known (env : Env)
    (free : ∀ v, holds v → v.host = none → then' v)
    (closed : ∀ v ticket name, holds v → v.host = some ⟨ticket, name⟩ →
      then' (v.after (.released ticket)))
    (leaves : ∀ f v, holds v → raised (.failure f) v) :
    Meets (Known doSign holds) (dropHost env) (fun _ => Known doSign then')
      (leaving doSign raised) := by
  unfold dropHost
  refine Meets.through (fun host => Known doSign fun v => holds v ∧ v.host = host) ?_ ?_
  · exact Meets.read fun s ⟨v, history, agrees, known⟩ =>
      ⟨v, history, agrees, known, agrees.host⟩
  · intro host
    cases host with
    | none =>
      exact Meets.pure fun s ⟨v, history, agrees, known⟩ =>
        ⟨v, history, agrees, free v known.1 known.2⟩
    | some host =>
      refine Meets.bind (ask_known fun f v known => leaves f v known.1) fun _ => ?_
      refine change_known fun s v agrees known => ⟨_, rfl, ⟨host.hostname, known.2⟩, ?_, ?_⟩
      · exact ⟨agrees.tickets, agrees.task, agrees.succeeded, rfl, agrees.canceled⟩
      · exact closed v host.ticket host.hostname known.1 known.2

end Rules

/-! ## Where the worker is -/

/-- The frontend has not been told of an end, and the status is settled. -/
def Unreported (doSign : Bool) (v : View) : Prop := v.reported = false ∧ v.Settled doSign

/-- What is required of the host of a worker, and of whether it is awaited. -/
abbrev Place := Option Host → Bool → Prop

/-- No ticket is held. -/
def free : Place := fun host waiting => host = none ∧ waiting = false

/-- No ticket is held whose machine is, or may become, ready. -/
def vacant : Place := fun host waiting =>
  waiting = false ∧ ∀ ticket name, host ≠ some ⟨ticket, some name⟩

/-- The machine of a ticket is awaited. -/
def awaiting : Place := fun host waiting => waiting = true ∧ ∃ ticket, host = some ⟨ticket, none⟩

/-- The machine is ready. -/
def ready : Place := fun host waiting =>
  waiting = false ∧ ∃ ticket name, host = some ⟨ticket, some name⟩

/-- Inside an attempt, with these parts of the build still to do. `early` before the frontend may
have been told that the build runs. -/
structure At (doSign : Bool) (task : Task) (n : Nat) (seen : List (Option String)) (early : Bool)
    (place : Place) (left : List Progress) (v : View) : Prop where
  /-- The task. -/
  ofTask : v.task = some task
  /-- The attempts. -/
  attempts : v.attempts = n + 1
  /-- The machines on which it failed. -/
  hosts : v.seen = seen
  /-- They are few. -/
  few : seen.length < maxHostAttempts
  /-- No end is reported. -/
  unreported : v.reported = false
  /-- There is no success. -/
  unsucceeded : v.succeeded = false
  /-- No cancel request was seen. -/
  calm : v.canceled = false
  /-- Every ticket that was closed had a machine. -/
  used : v.vain = false
  /-- The parts that are done. -/
  chain : v.chain ++ left = required doSign task
  /-- The host. -/
  place : place v.host v.waiting
  /-- The frontend was not told that the build runs. -/
  announced : early = true → n = 0 → v.announced = false

/-- Before an attempt. -/
structure Before (task : Task) (n : Nat) (seen : List (Option String)) (v : View) : Prop where
  /-- The task. -/
  ofTask : v.task = some task
  /-- The attempts. -/
  attempts : v.attempts = n
  /-- The machines on which it failed. -/
  hosts : v.seen = seen
  /-- They are few. -/
  few : seen.length < maxHostAttempts
  /-- No end is reported. -/
  unreported : v.reported = false
  /-- There is no success. -/
  unsucceeded : v.succeeded = false
  /-- No cancel request was seen. -/
  calm : v.canceled = false
  /-- Every ticket that was closed had a machine. -/
  used : v.vain = false
  /-- The host. -/
  place : free v.host v.waiting
  /-- The frontend was not told that the build runs. -/
  announced : n = 0 → v.announced = false

section Attempt

variable {doSign early : Bool} {task : Task} {n : Nat} {seen : List (Option String)}
  {place : Place} {left : List Progress} {v : View} {α : Type} {env : Env}

/-- Where something is left to do, the status is settled. -/
theorem At.untold (within : At doSign task n seen early place left v) (more : left ≠ []) :
    Unreported doSign v := by
  refine ⟨within.unreported, fun other same => ?_⟩
  obtain rfl := Option.some.inj (within.ofTask.symm.trans same)
  rw [within.unsucceeded, ← within.chain]
  refine iff_of_false Bool.false_ne_true fun whole => more ?_
  exact List.self_eq_append_right.mp whole

/-- What is known when `build` raises an exception: when it is to be tried again, the machine is
held and nothing is done yet. -/
def failing (doSign : Bool) (task : Task) (n : Nat) (seen : List (Option String)) (e : Exn)
    (v : View) : Prop :=
  Unreported doSign v ∧
    (e.retries = true → At doSign task n seen false ready (required doSign task) v)

/-- There is something to do at first. -/
theorem required_ne_nil : required doSign task ≠ [] := List.cons_ne_nil _ _

/-- It does not matter any more whether the frontend was told. -/
theorem At.late (within : At doSign task n seen early place left v) :
    At doSign task n seen false place left v :=
  { within with announced := fun no => absurd no Bool.false_ne_true }

/-- A call that is not made over ssh. -/
theorem At.call {answers : Nat → Finish Failure α} (more : left ≠ []) :
    Meets (Known doSign (At doSign task n seen early place left)) (call answers)
      (fun _ => Known doSign (At doSign task n seen early place left))
      (leaving doSign (failing doSign task n seen)) :=
  ask_known fun _ _ within => ⟨within.untold more, fun no => absurd no Bool.false_ne_true⟩

/-- A call that is made over ssh. -/
theorem At.callSsh {answers : Nat → Finish SshFailure α} :
    Meets (Known doSign (At doSign task n seen early ready (required doSign task)))
      (callSsh answers)
      (fun _ => Known doSign (At doSign task n seen early ready (required doSign task)))
      (leaving doSign (failing doSign task n seen)) :=
  ask_known fun _ _ within => ⟨within.untold required_ne_nil, fun _ => within.late⟩

/-- An exception for which the build is not tried again. -/
theorem At.raise {e : Exn} (other : e.retries = false) (more : left ≠ [])
    {next : α → View → Prop} :
    Meets (Known doSign (At doSign task n seen early place left)) (Prog.raise e : Part α)
      (fun a => Known doSign (next a)) (leaving doSign (failing doSign task n seen)) :=
  Meets.raise fun _ ⟨v, history, agrees, within⟩ =>
    ⟨v, history, agrees, within.untold more, fun same => absurd (same.symm.trans other) (by simp)⟩

/-- An exception for which the build is tried again. -/
theorem At.retry {next : α → View → Prop} :
    Meets (Known doSign (At doSign task n seen early ready (required doSign task)))
      (Prog.raise .buildRetry : Part α)
      (fun a => Known doSign (next a)) (leaving doSign (failing doSign task n seen)) :=
  Meets.raise fun _ ⟨v, history, agrees, within⟩ =>
    ⟨v, history, agrees, within.untold required_ne_nil, fun _ => within.late⟩

/-! ## Cancel requests -/

/-- A cancel request was seen. -/
def Canceling (doSign : Bool) (v : View) : Prop := Unreported doSign v ∧ v.canceled = true

/-- The flag for a cancel request is read. -/
theorem At.check (more : left ≠ []) {raised : Exn → View → Prop}
    (leaves : ∀ f v, At doSign task n seen early place left v → raised (.failure f) v) :
    Meets (Known doSign (At doSign task n seen early place left)) (cancelTaskCheckRequest env)
      (fun requested => Known doSign fun v =>
        if requested then Canceling doSign v else At doSign task n seen early place left v)
      (leaving doSign raised) := by
  unfold cancelTaskCheckRequest
  refine Meets.bind (ask_known leaves) fun requested => ?_
  refine Meets.through (fun _ => Known doSign fun v => if requested then Canceling doSign v
    else At doSign task n seen early place left v) ?_ fun _ => Meets.pure fun _ known => known
  refine change_known fun s v agrees within =>
    ⟨.checked requested, rfl,
      ⟨within.calm, within.unreported, within.unsucceeded⟩, ?_, ?_⟩
  · exact ⟨agrees.tickets, agrees.task, agrees.succeeded, agrees.host, rfl⟩
  · cases requested with
    | false => exact { within with calm := rfl }
    | true => exact ⟨within.untold more, rfl⟩

/-- Closing the ticket settles nothing else. -/
theorem Canceling.drop {raised : Exn → View → Prop}
    (leaves : ∀ f v, Canceling doSign v → raised (.failure f) v) :
    Meets (Known doSign (Canceling doSign)) (dropHost env)
      (fun _ => Known doSign (Canceling doSign)) (leaving doSign raised) :=
  dropHost_known env (fun _ known _ => known) (fun _ _ _ known _ => known) leaves

/-- `_cancel_if_requested` leaves the worker where it was, or fails as an attempt may. -/
theorem At.cancelIfRequested (more : left ≠ []) :
    Meets (Known doSign (At doSign task n seen early place left)) (cancelIfRequested env)
      (fun _ => Known doSign (At doSign task n seen early place left))
      (leaving doSign (failing doSign task n seen)) := by
  unfold BuildBackgroundWorker.cancelIfRequested
  refine Meets.bind (At.check more fun f v within => ⟨within.untold more,
    fun no => absurd no Bool.false_ne_true⟩) fun requested => ?_
  cases requested with
  | false => exact Meets.pure fun _ known => known
  | true =>
    refine Meets.bind (Canceling.drop fun f v known => ⟨known.1,
      fun no => absurd no Bool.false_ne_true⟩) fun _ => ?_
    exact Meets.raise fun _ ⟨v, history, agrees, known⟩ =>
      ⟨v, history, agrees, known.1, fun no => absurd no Bool.false_ne_true⟩

/-- The end of a thread that may have been canceled. -/
theorem cancellableRun_known {holds stopping then' : View → Prop} {raised : Exn → View → Prop}
    {method : Nat → Finish Failure (Option α)} {check : Part Bool} {cancel : Part Unit}
    (leaves : ∀ f v, holds v → raised (.failure f) v)
    (checks : Meets (Known doSign holds) check
      (fun stop => Known doSign fun v => if stop then stopping v else holds v)
      (leaving doSign raised))
    (cancels : Meets (Known doSign stopping) cancel (fun _ => Known doSign then')
      (leaving doSign fun _ => then'))
    (ended : ∀ v, holds v → then' v) (rounds : Nat) :
    Meets (Known doSign holds) (cancellableRun env method check cancel rounds)
      (fun _ => Known doSign then') (leaving doSign raised) := by
  unfold cancellableRun
  refine Meets.through (fun _ => Known doSign then') ?_ fun _ => ?_
  · refine Meets.forever (fun _ => Known doSign holds) (fun _ => ?_)
      (fun _ _ known => known.anyhow) rounds ()
    refine Meets.bind (ask_known leaves) fun isOver => ?_
    cases isOver with
    | true =>
      exact Meets.pure fun _ ⟨v, history, agrees, known⟩ => ⟨v, history, agrees, ended v known⟩
    | false =>
      refine Meets.bind checks fun stop => ?_
      cases stop with
      | false => exact Meets.pure fun _ known => known
      | true =>
        refine Meets.through (fun _ => Known doSign then') ?_ fun _ =>
          Meets.pure fun _ known => known
        exact Meets.handle (fun _ => Known doSign then') cancels fun e =>
          Meets.pure fun _ known => known
  · refine Meets.handle (fun _ => Known doSign then') ?_ fun e =>
      Meets.pure fun _ known => known
    exact ask_known fun _ _ known => known

end Attempt

end Copr.BuildBackgroundWorker
