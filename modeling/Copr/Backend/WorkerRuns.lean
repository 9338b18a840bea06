import Copr.Backend.WorkerHistory

/-!
# Every run of a worker is allowed

One lemma for each part of the worker: where it starts and where it may end. Together they say
that the history of `handle_task` is one that the machine of histories allows, and what is true
of the worker when `handle_task` has returned.
-/

namespace Copr.BuildBackgroundWorker

open Programs

section Attempt

variable {doSign early : Bool} {task : Task} {n : Nat} {seen : List (Option String)}
  {place : Place} {left rest : List Progress} {α : Type} {env : Env} {rounds : Nat}

/-- A cancel request was seen, or something else holds. -/
def Unless (doSign : Bool) (holds : View → Prop) (v : View) : Prop :=
  (v.canceled = true → Unreported doSign v) ∧ (v.canceled = false → holds v)

/-- Without a cancel request it holds. -/
theorem At.unless (within : At doSign task n seen early place left v) :
    Unless doSign (At doSign task n seen early place left) v :=
  ⟨fun canceled => absurd (canceled.symm.trans within.calm) (by simp), fun _ => within⟩

/-- A cancel request was seen. -/
theorem Canceling.unless {holds : View → Prop} {v : View} (canceling : Canceling doSign v) :
    Unless doSign holds v :=
  ⟨fun _ => canceling.1, fun calm => absurd (calm.symm.trans canceling.2) (by simp)⟩

/-- Reading the flag tells whether a cancel request was seen, and writes no event. -/
theorem readCanceled {holds : View → Prop} {raised : Exn → View → Prop} :
    Meets (Known doSign (Unless doSign holds)) (Prog.read Worker.canceled)
      (fun canceled => Known doSign fun v => Unless doSign holds v ∧ v.canceled = canceled)
      (leaving doSign raised) :=
  Meets.read fun _ ⟨v, history, agrees, known⟩ => ⟨v, history, agrees, known, agrees.canceled⟩

/-- `BuildCanceled` is raised once a cancel request was seen. -/
theorem raiseIfCanceled {holds : View → Prop} {canceled : Bool} :
    Meets (Known doSign fun v => Unless doSign holds v ∧ v.canceled = canceled)
      (raiseIf canceled .buildCanceled) (fun _ => Known doSign holds)
      (leaving doSign (failing doSign task n seen)) := by
  cases canceled with
  | false => exact Meets.pure fun _ ⟨v, history, agrees, known, calm⟩ =>
      ⟨v, history, agrees, known.2 calm⟩
  | true => exact Meets.raise fun _ ⟨v, history, agrees, known, canceled⟩ =>
      ⟨v, history, agrees, known.1 canceled, fun no => absurd no Bool.false_ne_true⟩

/-- Where no ticket is held, there is no machine. -/
theorem At.vacant {v : View} (within : At doSign task n seen early free left v) :
    At doSign task n seen early vacant left v :=
  { within with place := ⟨within.place.2, fun _ _ held =>
      absurd (within.place.1.symm.trans held) (by simp)⟩ }

/-- Taking a ticket brings a worker without a machine to waiting for one. -/
theorem takeTicket_known :
    Meets (Known doSign (At doSign task n seen early vacant (required doSign task)))
      (takeTicket env)
      (fun _ => Known doSign (At doSign task n seen early awaiting (required doSign task)))
      (leaving doSign (failing doSign task n seen)) := by
  refine Meets.bind (At.call required_ne_nil) fun _ => ?_
  refine change_known fun s v agrees within => ⟨.tookTicket s.tickets, rfl, ?_, ?_, ?_⟩
  · refine ⟨agrees.tickets.symm, within.calm, within.place.1, ?_, within.used, within.unreported⟩
    rintro ⟨ticket, name, host⟩
    exact within.place.2 ticket name host
  · exact ⟨congrArg (· + 1) agrees.tickets, agrees.task, agrees.succeeded, rfl, agrees.canceled⟩
  · exact { within with place := ⟨rfl, _, rfl⟩ }

/-- What `wait_ready` has answered is known of the host. -/
theorem waited_known {success : Option String} :
    Meets (Known doSign (At doSign task n seen early awaiting left))
      (Prog.change fun s => s.host.elim s fun host => s.waited host success)
      (fun _ => Known doSign (At doSign task n seen early
        (if success.isSome then ready else vacant) left))
      (leaving doSign (failing doSign task n seen)) := by
  refine change_known fun s v agrees within => ?_
  obtain ⟨waiting, ticket, held⟩ := within.place
  have host : s.host = some ⟨ticket, none⟩ := agrees.host.symm.trans held
  rw [host]
  cases success with
  | none =>
    refine ⟨.waitEnded ticket, rfl, ⟨held, waiting, within.calm⟩, ?_, ?_⟩
    · exact ⟨agrees.tickets, agrees.task, agrees.succeeded, held.trans host.symm, agrees.canceled⟩
    · refine { within with place := ⟨rfl, fun other name same => ?_⟩ }
      have named := congrArg (Option.map Host.hostname) (held.symm.trans same)
      simp at named
  | some name =>
    refine ⟨.allocated ticket name, rfl, ⟨held, waiting, within.calm⟩, ?_, ?_⟩
    · exact ⟨agrees.tickets, agrees.task, agrees.succeeded, rfl, agrees.canceled⟩
    · exact { within with place := ⟨rfl, ticket, name, rfl⟩ }

/-- `_cancel_vm_allocation` settles nothing. -/
theorem Canceling.cancelVmAllocation {holds : View → Prop} :
    Meets (Known doSign (Canceling doSign)) (cancelVmAllocation env)
      (fun _ => Known doSign (Unless doSign holds))
      (leaving doSign fun _ => Unless doSign holds) := by
  refine Meets.bind (ask_known fun _ _ canceling => canceling.unless) fun _ => ?_
  refine Meets.weaken (Canceling.drop fun _ _ canceling => canceling.unless) (fun _ known => known)
    ?_ (fun _ _ known => known) (fun _ known => known)
  exact fun _ s ⟨v, history, agrees, canceling⟩ => ⟨v, history, agrees, canceling.unless⟩

/-- `_alloc_host` returns with a machine. -/
theorem allocHost_known :
    Meets (Known doSign (At doSign task n seen early free (required doSign task)))
      (allocHost env rounds)
      (fun _ => Known doSign (At doSign task n seen early ready (required doSign task)))
      (leaving doSign (failing doSign task n seen)) := by
  let unallocated := Known doSign (At doSign task n seen early vacant (required doSign task))
  refine Meets.assume (Meets.forever (fun _ => unallocated) (fun _ => ?_)
    (fun _ _ known => known.anyhow) rounds ())
    fun s ⟨v, history, agrees, within⟩ => ⟨v, history, agrees, within.vacant⟩
  refine Meets.bind takeTicket_known fun _ => ?_
  refine Meets.through (fun _ => Known doSign (Unless doSign
    (At doSign task n seen early awaiting (required doSign task)))) ?_ fun success => ?_
  · exact cancellableRun_known (fun _ _ within => ⟨within.untold required_ne_nil,
        fun no => absurd no Bool.false_ne_true⟩)
      (At.check required_ne_nil fun _ _ within => ⟨within.untold required_ne_nil,
        fun no => absurd no Bool.false_ne_true⟩)
      Canceling.cancelVmAllocation (fun _ within => within.unless) rounds
  · refine Meets.bind readCanceled fun _ => Meets.bind raiseIfCanceled fun _ => ?_
    refine Meets.bind waited_known fun _ => ?_
    cases success with
    | none => exact Meets.pure fun _ known => known
    | some name => exact Meets.pure fun _ known => known

/-! ## The remote build -/

/-- A method that is not made for more than one attempt may raise `BuildRetry`. -/
theorem At.retryIf {c : Bool} :
    Meets (Known doSign (At doSign task n seen early ready (required doSign task)))
      (raiseIf c .buildRetry)
      (fun _ => Known doSign (At doSign task n seen early ready (required doSign task)))
      (leaving doSign (failing doSign task n seen)) :=
  Meets.ite (fun _ => At.retry) fun _ => Meets.pure fun _ known => known

/-- An exception that ends the build may be raised. -/
theorem At.raiseIf {c : Bool} {e : Exn} (other : e.retries = false) (more : left ≠ []) :
    Meets (Known doSign (At doSign task n seen early place left)) (raiseIf c e)
      (fun _ => Known doSign (At doSign task n seen early place left))
      (leaving doSign (failing doSign task n seen)) :=
  Meets.ite (fun _ => At.raise other more) fun _ => Meets.pure fun _ known => known

/-- `_check_vm` leaves a worker with a machine where it was. -/
theorem checkVm_known :
    Meets (Known doSign (At doSign task n seen early ready (required doSign task))) (checkVm env)
      (fun _ => Known doSign (At doSign task n seen early ready (required doSign task)))
      (leaving doSign (failing doSign task n seen)) := by
  have queried : Meets (Known doSign (At doSign task n seen early ready (required doSign task)))
      (checkCoprBuilder env)
      (fun _ => Known doSign (At doSign task n seen early ready (required doSign task)))
      (leaving doSign (failing doSign task n seen)) :=
    Meets.bind At.callSsh fun _ => At.retryIf
  exact Meets.bind queried fun _ => Meets.bind At.callSsh fun _ => At.retryIf

/-- `_fill_build_info_file` leaves the worker where it was. -/
theorem fillBuildInfoFile_known (more : left ≠ []) :
    Meets (Known doSign (At doSign task n seen early place left)) (fillBuildInfoFile env)
      (fun _ => Known doSign (At doSign task n seen early place left))
      (leaving doSign (failing doSign task n seen)) :=
  Meets.handle (fun _ => Known doSign (At doSign task n seen early place left))
    (ask_known fun _ _ within => within) fun _ => At.raise rfl more

/-- `_wait_for_repos` leaves the worker where it was. -/
theorem waitForRepos_known {other : Task} (more : left ≠ []) :
    Meets (Known doSign (At doSign task n seen early place left)) (waitForRepos env other)
      (fun _ => Known doSign (At doSign task n seen early place left))
      (leaving doSign (failing doSign task n seen)) :=
  Meets.ite (fun _ => Meets.pure fun _ known => known) fun _ =>
    Meets.each fun _ _ => At.call more

/-- `_mark_running` tells the frontend in the first attempt that the build runs, and leaves the
worker where it was. -/
theorem markRunning_known (more : left ≠ []) :
    Meets (Known doSign (At doSign task n seen true ready left)) (markRunning env n)
      (fun _ => Known doSign (At doSign task n seen false ready left))
      (leaving doSign (failing doSign task n seen)) := by
  refine Meets.bind (setStatus_known (by decide) fun _ within => within.unsucceeded) fun _ => ?_
  refine Meets.ite (fun first => ?_) fun _ => Meets.pure fun _ ⟨v, history, agrees, within⟩ =>
    ⟨v, history, agrees, within.late⟩
  refine Meets.through (fun _ => Known doSign (At doSign task n seen false ready left)) ?_ fun _ =>
    Meets.bind (At.call more) fun _ => Meets.bind (At.call more) fun _ => At.call more
  refine note_known rfl (fun v within => ?_) fun _ within => { within.late with
    announced := fun no => absurd no Bool.false_ne_true }
  refine ⟨?_, within.announced rfl first, within.calm, within.place.2, within.unreported⟩
  rw [within.attempts, first]

/-- `_setup_for_user_ssh` leaves a worker with a machine where it was. -/
theorem setupForUserSsh_known {other : Task} :
    Meets (Known doSign (At doSign task n seen early ready (required doSign task)))
      (setupForUserSsh env other)
      (fun _ => Known doSign (At doSign task n seen early ready (required doSign task)))
      (leaving doSign (failing doSign task n seen)) :=
  Meets.ite (fun _ => Meets.pure fun _ known => known) fun _ =>
    Meets.bind At.callSsh fun _ => Meets.bind At.callSsh fun _ => Meets.pure fun _ known => known

/-- `_start_remote_build` leaves a worker with a machine where it was. -/
theorem startRemoteBuild_known :
    Meets (Known doSign (At doSign task n seen early ready (required doSign task)))
      (startRemoteBuild env)
      (fun _ => Known doSign (At doSign task n seen early ready (required doSign task)))
      (leaving doSign (failing doSign task n seen)) := by
  refine Meets.through
    (fun _ => Known doSign (At doSign task n seen early ready (required doSign task)))
    ?_ fun _ => ?_
  · exact note_known rfl
      (fun _ within => ⟨within.calm, within.place.2, within.unreported⟩)
      fun _ within => { within with }
  · exact Meets.bind At.callSsh fun _ => At.raiseIf rfl required_ne_nil

/-- `_discard_running_worker` settles nothing. -/
theorem discardRunningWorker_known {holds : View → Prop} :
    Meets (Known doSign holds) (discardRunningWorker env) (fun _ => Known doSign holds)
      (leaving doSign fun _ => holds) := by
  refine Meets.bind (ask_known fun _ _ known => known) fun _ => ?_
  refine Meets.through (fun _ => Known doSign holds) ?_ fun _ => Meets.pure fun _ known => known
  refine Meets.handle (fun _ => Known doSign holds) (ask_known fun _ _ known => known) fun e => ?_
  exact Meets.ite (fun _ => Meets.pure fun _ known => known) fun _ =>
    Meets.raise fun _ known => known

/-- `_check_build_interrupted`: when the build goes on, no cancel request was seen. -/
theorem checkBuildInterrupted_known (more : left ≠ []) :
    Meets (Known doSign (At doSign task n seen early place left)) (checkBuildInterrupted env)
      (fun stop => Known doSign fun v => if stop then
        Unless doSign (At doSign task n seen early place left) v
        else At doSign task n seen early place left v)
      (leaving doSign (failing doSign task n seen)) := by
  refine Meets.bind (At.call more) fun failed => ?_
  refine Meets.ite (fun _ => Meets.pure fun _ ⟨v, history, agrees, within⟩ =>
    ⟨v, history, agrees, within.unless⟩) fun _ => ?_
  refine Meets.bind (At.check more fun _ _ within => ⟨within.untold more,
    fun no => absurd no Bool.false_ne_true⟩) fun requested => ?_
  cases requested with
  | true => exact Meets.pure fun _ ⟨v, history, agrees, canceling⟩ =>
      ⟨v, history, agrees, Canceling.unless canceling⟩
  | false =>
    refine Meets.weaken (At.call more) (fun _ known => known) ?_ (fun _ _ known => known)
      (fun _ known => known)
    rintro timeouted s ⟨v, history, agrees, within⟩
    cases timeouted with
    | true => exact ⟨v, history, agrees, At.unless within⟩
    | false => exact ⟨v, history, agrees, within⟩

/-- Following the build on the machine leaves the worker where it was, however long it takes. -/
theorem followRemoteBuild_known :
    Meets (Known doSign (At doSign task n seen early ready (required doSign task)))
      (followRemoteBuild env rounds)
      (fun _ => Known doSign (At doSign task n seen early ready (required doSign task)))
      (leaving doSign (failing doSign task n seen)) := by
  refine Meets.through (fun _ => Known doSign (Unless doSign
    (At doSign task n seen early ready (required doSign task)))) ?_ fun failure => ?_
  · exact cancellableRun_known (fun _ _ within => ⟨within.untold required_ne_nil,
        fun no => absurd no Bool.false_ne_true⟩)
      (checkBuildInterrupted_known required_ne_nil) discardRunningWorker_known
      (fun _ within => within.unless) rounds
  · refine Meets.bind readCanceled fun _ => Meets.bind raiseIfCanceled fun _ => ?_
    refine Meets.bind (At.call required_ne_nil) fun _ => ?_
    refine Meets.bind (At.raiseIf rfl required_ne_nil) fun _ => ?_
    exact Meets.bind (At.call required_ne_nil) fun _ => At.retryIf

/-- `_keep_alive_for_user_ssh` leaves the worker where it was. -/
theorem keepAliveForUserSsh_known {other : Task} (more : left ≠ []) :
    Meets (Known doSign (At doSign task n seen early place left))
      (keepAliveForUserSsh env other rounds)
      (fun _ => Known doSign (At doSign task n seen early place left))
      (leaving doSign (failing doSign task n seen)) := by
  refine Meets.ite (fun _ => ?_) fun _ => Meets.pure fun _ known => known
  refine Meets.through (fun _ => Known doSign (Unless doSign
    (At doSign task n seen early place left))) ?_ fun _ => ?_
  · exact cancellableRun_known (fun _ _ within => ⟨within.untold more,
        fun no => absurd no Bool.false_ne_true⟩)
      (At.check more fun _ _ within => ⟨within.untold more,
        fun no => absurd no Bool.false_ne_true⟩)
      (Meets.assume discardRunningWorker_known fun _ ⟨v, history, agrees, canceling⟩ =>
        ⟨v, history, agrees, Canceling.unless canceling⟩)
      (fun _ within => within.unless) rounds
  · exact Meets.bind readCanceled fun _ => raiseIfCanceled

/-! ## The results -/

/-- A part that is the next one of an attempt is done, and the rest is left. -/
theorem At.progress {part : Progress} {raised : Exn → View → Prop} :
    Meets (Known doSign (At doSign task n seen early place (part :: rest)))
      (note (.progress part)) (fun _ => Known doSign (At doSign task n seen early place rest))
      (leaving doSign raised) := by
  refine note_known rfl (fun v within => ?_) fun v within => { within with
    chain := (List.append_assoc v.chain [part] rest).trans within.chain }
  refine ⟨within.calm, within.unreported, within.unsucceeded, task, within.ofTask, rest, ?_⟩
  exact (List.append_assoc v.chain [part] rest).trans within.chain

/-- `_download_results` does the first part of an attempt and leaves those after it. -/
theorem downloadResults_known :
    Meets (Known doSign (At doSign task n seen early ready (required doSign task)))
      (downloadResults env)
      (fun _ => Known doSign (At doSign task n seen early ready (published doSign task)))
      (leaving doSign (failing doSign task n seen)) :=
  Meets.bind At.callSsh fun _ => At.progress

/-- The machine is given back before the results are looked at. -/
theorem At.dropHost (more : left ≠ []) :
    Meets (Known doSign (At doSign task n seen early ready left)) (dropHost env)
      (fun _ => Known doSign (At doSign task n seen early free left))
      (leaving doSign (failing doSign task n seen)) := by
  refine dropHost_known env (fun v within gone => ?_) (fun v _ _ within _ => ?_)
    fun _ _ within => ⟨within.untold more, fun no => absurd no Bool.false_ne_true⟩
  · obtain ⟨_, ticket, name, held⟩ := within.place
    exact absurd (gone.symm.trans held) (by simp)
  · obtain ⟨_, ticket, name, held⟩ := within.place
    have used : (v.vain || v.host.any fun host => host.hostname.isNone) = false := by
      rw [within.used, held]
      rfl
    exact { within with place := ⟨rfl, rfl⟩, used := used }

/-- What is known when the results were not published. -/
def unpublished (doSign : Bool) (task : Task) (n : Nat) (seen : List (Option String)) (e : Exn)
    (v : View) : Prop :=
  e.retries = false ∧ ∃ left, left ≠ [] ∧ At doSign task n seen false free left v

/-- A call while results are published. -/
theorem At.touch {answers : Nat → Finish Failure α} (more : left ≠ []) :
    Meets (Known doSign (At doSign task n seen false free left))
      (BuildBackgroundWorker.call answers)
      (fun _ => Known doSign (At doSign task n seen false free left))
      (leaving doSign (unpublished doSign task n seen)) :=
  ask_known fun _ _ within => ⟨rfl, left, more, within⟩

/-- What was found out while results are published is not good. -/
theorem At.refuse {c : Bool} (more : left ≠ []) :
    Meets (Known doSign (At doSign task n seen false free left))
      (BuildBackgroundWorker.raiseIf c .backendError)
      (fun _ => Known doSign (At doSign task n seen false free left))
      (leaving doSign (unpublished doSign task n seen)) :=
  Meets.ite (fun _ => Meets.raise fun _ ⟨v, history, agrees, within⟩ =>
    ⟨v, history, agrees, rfl, left, more, within⟩) fun _ => Meets.pure fun _ known => known

/-- A part that is only sometimes to be done. -/
theorem At.optional {c : Bool} {part : Progress} {x : Part Unit} {raised : Exn → View → Prop}
    (skips : c = false → x = pure ())
    (does : c = true → Meets (Known doSign (At doSign task n seen early place (part :: rest))) x
      (fun _ => Known doSign (At doSign task n seen early place rest)) (leaving doSign raised)) :
    Meets (Known doSign (At doSign task n seen early place ((if c then [part] else []) ++ rest)))
      x (fun _ => Known doSign (At doSign task n seen early place rest))
      (leaving doSign raised) := by
  cases c with
  | true => exact does rfl
  | false =>
    rw [skips rfl]
    exact Meets.pure fun _ known => known

/-- `_check_build_success` does its part when it is the next one. -/
theorem checkBuildSuccess_known :
    Meets (Known doSign (At doSign task n seen false free (.successFile :: rest)))
      (checkBuildSuccess env) (fun _ => Known doSign (At doSign task n seen false free rest))
      (leaving doSign (unpublished doSign task n seen)) :=
  have more := List.cons_ne_nil _ _
  Meets.bind (At.touch more) fun _ => Meets.bind (At.refuse more) fun _ => At.progress

/-- `_sign_built_packages`, when packages are signed. -/
theorem signBuiltPackages_known :
    Meets (Known env.doSign (At env.doSign task n seen false free
        ((if env.doSign && !task.isSource then [.signed] else []) ++ rest)))
      (if env.doSign then signBuiltPackages env task else pure ())
      (fun _ => Known env.doSign (At env.doSign task n seen false free rest))
      (leaving env.doSign (unpublished env.doSign task n seen)) := by
  refine At.optional (fun no => ?_) fun yes => ?_
  · unfold signBuiltPackages
    cases sign : env.doSign <;> cases source : task.isSource <;> simp_all
  · rw [Bool.and_eq_true, Bool.not_eq_true'] at yes
    unfold signBuiltPackages
    rw [yes.1, yes.2]
    exact Meets.bind (At.touch (List.cons_ne_nil _ _)) fun _ => At.progress

/-- `_upload_results_to_storage`. -/
theorem uploadResultsToStorage_known :
    Meets (Known doSign (At doSign task n seen false free (.uploaded :: rest)))
      (uploadResultsToStorage env)
      (fun _ => Known doSign (At doSign task n seen false free rest))
      (leaving doSign (unpublished doSign task n seen)) :=
  have more := List.cons_ne_nil _ _
  Meets.bind (At.touch more) fun _ => Meets.bind (At.refuse more) fun _ => At.progress

/-- `_do_createrepo` does its part when it is the next one; a source build has none. -/
theorem doCreaterepo_known :
    Meets (Known doSign (At doSign task n seen false free
        ((if !task.isSource then [.createrepo] else []) ++ rest)))
      (doCreaterepo env task) (fun _ => Known doSign (At doSign task n seen false free rest))
      (leaving doSign (unpublished doSign task n seen)) := by
  refine At.optional (fun source => if_pos ((Bool.not_eq_eq_eq_not).mp source)) fun other => ?_
  rw [Bool.not_eq_true'] at other
  unfold doCreaterepo
  rw [other]
  have more := List.cons_ne_nil Progress.createrepo rest
  exact Meets.bind (At.touch more) fun _ => Meets.bind (At.refuse more) fun _ => At.progress

/-- `_parse_results` does its part when it is the next one; a build with ssh keys has none. -/
theorem parseResults_known :
    Meets (Known doSign (At doSign task n seen false free
        ((if !task.sshPublicKeys then [.parsed] else []) ++ rest)))
      (parseResults env task) (fun _ => Known doSign (At doSign task n seen false free rest))
      (leaving doSign (unpublished doSign task n seen)) := by
  refine At.optional (fun keys => if_pos ((Bool.not_eq_eq_eq_not).mp keys)) fun none => ?_
  rw [Bool.not_eq_true'] at none
  unfold parseResults
  rw [none]
  have more := List.cons_ne_nil Progress.parsed rest
  exact Meets.bind (At.touch more) fun _ => Meets.bind (At.refuse more) fun _ =>
    Meets.bind (At.touch more) fun _ => At.progress

/-- `_get_build_details` does its part when it is the next one. -/
theorem getBuildDetails_known :
    Meets (Known doSign (At doSign task n seen false free (.details :: rest)))
      (getBuildDetails env) (fun _ => Known doSign (At doSign task n seen false free rest))
      (leaving doSign (unpublished doSign task n seen)) := by
  refine Meets.bind ?_ fun _ => At.progress
  refine Meets.handle
    (fun _ => Known doSign (At doSign task n seen false free (.details :: rest)))
    (ask_known fun _ _ within => within) fun _ => Meets.raise ?_
  exact fun _ ⟨v, history, agrees, within⟩ =>
    ⟨v, history, agrees, rfl, _, List.cons_ne_nil _ _, within⟩

/-- `validate` does its part when it is the next one. -/
theorem validate_known :
    Meets (Known doSign (At doSign task n seen false free (.validated :: rest)))
      (validate env) (fun _ => Known doSign (At doSign task n seen false free rest))
      (leaving doSign (unpublished doSign task n seen)) :=
  Meets.bind (At.touch (List.cons_ne_nil _ _)) fun _ => At.progress

/-- `_add_pubkey` does its part when it is the next one; only signed binary builds have one. -/
theorem addPubkey_known :
    Meets (Known env.doSign (At env.doSign task n seen false free
        ((if env.doSign && !task.isSource then [.pubkey] else []) ++ rest)))
      (addPubkey env task)
      (fun _ => Known env.doSign (At env.doSign task n seen false free rest))
      (leaving env.doSign (unpublished env.doSign task n seen)) := by
  refine At.optional (fun no => ?_) fun yes => ?_
  · unfold addPubkey
    cases sign : env.doSign <;> cases source : task.isSource <;> simp_all
  · rw [Bool.and_eq_true, Bool.not_eq_true'] at yes
    unfold addPubkey
    rw [yes.1, yes.2]
    exact Meets.bind (At.touch (List.cons_ne_nil _ _)) fun _ => At.progress

/-- `_cleanup` does its part when it is the next one. -/
theorem cleanup_known :
    Meets (Known doSign (At doSign task n seen false free (.cleaned :: rest)))
      (cleanup env task) (fun _ => Known doSign (At doSign task n seen false free rest))
      (leaving doSign (unpublished doSign task n seen)) := by
  refine Meets.bind ?_ fun _ => At.progress
  exact Meets.ite (fun _ => At.touch (List.cons_ne_nil _ _)) fun _ =>
    Meets.pure fun _ known => known

/-- What is done when the builder claims success is done completely or ends with an exception for
which the build is not tried again. -/
theorem publishResults_known :
    Meets (Known env.doSign (At env.doSign task n seen false free (published env.doSign task)))
      (publishResults env task)
      (fun _ => Known env.doSign (At env.doSign task n seen false free []))
      (leaving env.doSign (unpublished env.doSign task n seen)) := by
  unfold publishResults published
  refine Meets.bind checkBuildSuccess_known fun _ => ?_
  refine Meets.bind signBuiltPackages_known fun _ => ?_
  refine Meets.bind uploadResultsToStorage_known fun _ => ?_
  refine Meets.bind doCreaterepo_known fun _ => ?_
  refine Meets.bind parseResults_known fun _ => ?_
  refine Meets.bind getBuildDetails_known fun _ => ?_
  refine Meets.bind validate_known fun _ => ?_
  exact Meets.bind addPubkey_known fun _ => cleanup_known

/-- What is known after the results were, or were not, published. -/
def tried (doSign : Bool) (task : Task) (n : Nat) (seen : List (Option String))
    (failed : Option Exn) (v : View) : Prop :=
  failed.elim (At doSign task n seen false free [] v) fun e => unpublished doSign task n seen e v

/-- There was an exception exactly when something is left to do. -/
theorem tried_left {failed : Option Exn} {v : View}
    (known : tried doSign task n seen failed v) :
    ∃ left, At doSign task n seen false free left v ∧ (failed = none ↔ left = []) := by
  cases failed with
  | none => exact ⟨[], known, iff_of_true rfl rfl⟩
  | some e =>
    obtain ⟨_, left, more, within⟩ := known
    exact ⟨left, within, iff_of_false (by simp) more⟩

/-- The status is set: the build is a success when every part is done. -/
theorem built_known {failed : Option Exn} {raised : Exn → View → Prop} :
    Meets (Known doSign (tried doSign task n seen failed))
      (Prog.change fun s =>
        let status : StatusEnum := if failed.isSome then .failed else .succeeded
        { s.setStatus status with trace := .built failed.isSome :: s.trace })
      (fun _ => Known doSign fun v =>
        Unreported doSign v ∧ ∀ e, failed = some e → e.retries = false)
      (leaving doSign raised) := by
  refine change_known fun s v agrees known => ?_
  obtain ⟨left, within, exact⟩ := tried_left known
  have whole : failed.isSome = false ↔ v.chain = required doSign task := by
    rw [Option.isSome_eq_false_iff, Option.isNone_iff_eq_none, exact, ← within.chain]
    exact List.self_eq_append_right.symm
  refine ⟨.built failed.isSome, rfl, ?_, ?_, ⟨within.unreported, ?_⟩, ?_⟩
  · exact ⟨within.calm, within.place, within.unreported, task, within.ofTask, whole⟩
  · refine ⟨agrees.tickets, ?_, ?_, agrees.host, agrees.canceled⟩
    · exact agrees.task.trans (s.setStatus_task _).symm
    · change (!failed.isSome) = Worker.succeeded (s.setStatus _)
      rw [Worker.succeeded_setStatus, agrees.job_isSome within.ofTask]
      cases failed <;> rfl
  · intro other same
    obtain rfl := Option.some.inj (within.ofTask.symm.trans same)
    exact (by simp : (!failed.isSome) = true ↔ failed.isSome = false).trans whole
  · rintro e rfl
    exact known.1

/-- The end of `build`: its exception is none for which the build is tried again. -/
theorem concludeBuild_known :
    Meets (Known env.doSign (At env.doSign task n seen false free (published env.doSign task)))
      (concludeBuild env task) (fun _ => Known env.doSign (Unreported env.doSign))
      (leaving env.doSign (failing env.doSign task n seen)) := by
  refine Meets.through (fun failed => Known env.doSign (tried env.doSign task n seen failed))
    ?_ fun failed => ?_
  · refine Meets.handle (fun e => Known env.doSign (tried env.doSign task n seen (some e)))
      ?_ fun e => Meets.pure fun _ known => known
    exact Meets.bind publishResults_known fun _ => Meets.pure fun _ known => known
  refine Meets.bind built_known fun _ => ?_
  refine Meets.bind (ask_known fun f v known =>
    ⟨known.1, fun no => absurd no Bool.false_ne_true⟩) fun _ => ?_
  cases failed with
  | none => exact Meets.pure fun _ ⟨v, history, agrees, known⟩ => ⟨v, history, agrees, known.1⟩
  | some e =>
    exact Meets.raise fun _ ⟨v, history, agrees, known⟩ => ⟨v, history, agrees, known.1,
      fun same => absurd (same.symm.trans (known.2 e rfl)) (by simp)⟩

/-! ## Attempts -/

/-- An attempt begins without a machine and with all its parts to do. -/
theorem attempt_known {raised : Exn → View → Prop} :
    Meets (Known doSign (Before task n seen)) (note (.attempt n))
      (fun _ => Known doSign (At doSign task n seen true free (required doSign task)))
      (leaving doSign raised) := by
  refine note_known rfl (fun v known => ?_) fun v known => ?_
  · refine ⟨known.attempts.symm, known.place, known.calm, known.unsucceeded, ?_, ?_,
      known.unreported⟩
    · rw [known.hosts]
      exact known.few
    · rw [known.ofTask]
      rfl
  · exact {
      ofTask := known.ofTask
      attempts := congrArg (· + 1) known.attempts
      hosts := known.hosts
      few := known.few
      unreported := known.unreported
      unsucceeded := known.unsucceeded
      calm := known.calm
      used := known.used
      chain := rfl
      place := known.place
      announced := fun _ first => known.announced first }

/-- `build` ends with a settled status and without telling the frontend, or fails as an attempt may.
-/
theorem build_known :
    Meets (Known env.doSign (Before task n seen)) (build env task rounds n)
      (fun _ => Known env.doSign (Unreported env.doSign))
      (leaving env.doSign (failing env.doSign task n seen)) := by
  refine Meets.bind attempt_known fun _ => ?_
  refine Meets.bind (waitForRepos_known required_ne_nil) fun _ => ?_
  refine Meets.bind (At.cancelIfRequested required_ne_nil) fun _ => ?_
  refine Meets.bind (At.call required_ne_nil) fun _ => ?_
  refine Meets.bind allocHost_known fun _ => ?_
  refine Meets.bind checkVm_known fun _ => ?_
  refine Meets.bind (fillBuildInfoFile_known required_ne_nil) fun _ => ?_
  refine Meets.bind (At.cancelIfRequested required_ne_nil) fun _ => ?_
  refine Meets.bind (markRunning_known required_ne_nil) fun _ => ?_
  refine Meets.bind setupForUserSsh_known fun _ => ?_
  refine Meets.bind startRemoteBuild_known fun _ => ?_
  refine Meets.bind followRemoteBuild_known fun _ => ?_
  refine Meets.bind (keepAliveForUserSsh_known required_ne_nil) fun _ => ?_
  refine Meets.bind downloadResults_known fun _ => ?_
  exact Meets.bind (At.dropHost (List.cons_ne_nil _ _)) fun _ => concludeBuild_known

/-- After an attempt that failed on one more machine. -/
structure Again (doSign : Bool) (task : Task) (n : Nat) (seen : List (Option String)) (v : View) :
    Prop where
  /-- The task. -/
  ofTask : v.task = some task
  /-- The attempts. -/
  attempts : v.attempts = n
  /-- The machines on which it failed. -/
  hosts : v.seen = seen
  /-- No end is reported. -/
  unreported : Unreported doSign v
  /-- There is no success. -/
  unsucceeded : v.succeeded = false
  /-- No cancel request was seen. -/
  calm : v.canceled = false
  /-- No ticket is awaited. -/
  place : v.waiting = false
  /-- Every ticket that was closed had a machine. -/
  used : v.vain = false
  /-- If there is a host, then with a machine. -/
  machine : (v.host.any fun host => host.hostname.isNone) = false

/-- It is written down that the build will be tried again. -/
theorem retry_known {host : Host} {raised : Exn → View → Prop} :
    Meets (Known doSign fun v =>
        At doSign task n seen false ready (required doSign task) v ∧ v.host = some host)
      (note (.retry host.hostname))
      (fun _ => Known doSign (Again doSign task (n + 1) (seen.insert host.hostname)))
      (leaving doSign raised) := by
  refine note_known rfl (fun v known => ?_) fun v known => ?_
  · have within := known.1
    obtain ⟨_, ticket, name, held⟩ := within.place
    refine ⟨within.calm, within.hosts ▸ within.few, ticket, name, held, ?_⟩
    obtain rfl := Option.some.inj (known.2.symm.trans held)
    rfl
  · have within := known.1
    have machine : (v.host.any fun host => host.hostname.isNone) = false := by
      obtain ⟨_, ticket, name, held⟩ := within.place
      rw [held]
      rfl
    exact {
      ofTask := within.ofTask
      attempts := within.attempts
      hosts := congrArg (List.insert host.hostname) within.hosts
      unreported := within.untold required_ne_nil
      unsucceeded := within.unsucceeded
      calm := within.calm
      place := within.place.1
      used := within.used
      machine := machine }

/-- The build is tried again on another machine, unless it failed on too many. -/
theorem retried_known {raised : Exn → View → Prop}
    (leaves : ∀ e v, Unreported doSign v → raised e v) :
    Meets (Known doSign (At doSign task n seen false ready (required doSign task)))
      (retried env seen) (fun more => Known doSign (Before task (n + 1) more))
      (leaving doSign raised) := by
  refine Meets.through (fun host => Known doSign fun v =>
    At doSign task n seen false ready (required doSign task) v ∧ v.host = host) ?_ fun host => ?_
  · exact Meets.read fun s ⟨v, history, agrees, within⟩ =>
      ⟨v, history, agrees, within, agrees.host⟩
  cases host with
  | none =>
    exact Meets.raise fun _ ⟨v, history, agrees, known⟩ =>
      ⟨v, history, agrees, leaves _ _ (known.1.untold required_ne_nil)⟩
  | some host =>
    refine Meets.bind retry_known fun _ => ?_
    refine Meets.through (fun _ => Known doSign fun v =>
      Again doSign task (n + 1) (seen.insert host.hostname) v ∧ v.host = none) ?_ fun _ => ?_
    · exact dropHost_known env (fun _ known gone => ⟨known, gone⟩)
        (fun v _ _ known _ => ⟨{ known with
          place := rfl
          used := Bool.or_eq_false_iff.mpr ⟨known.used, known.machine⟩
          machine := rfl }, rfl⟩)
        fun _ _ known => leaves _ _ known.unreported
    refine Meets.through (fun _ => Known doSign (Before task (n + 1) (seen.insert host.hostname)))
      ?_ fun _ => Meets.pure fun _ known => known
    refine Meets.ite (fun _ => ?_) fun few => ?_
    · exact Meets.raise fun _ ⟨v, history, agrees, known⟩ =>
        ⟨v, history, agrees, leaves _ _ known.1.unreported⟩
    · refine Meets.pure fun _ ⟨v, history, agrees, known, gone⟩ => ⟨v, history, agrees, ?_⟩
      rw [decide_eq_true_eq, Nat.not_le] at few
      exact {
        ofTask := known.ofTask
        attempts := known.attempts
        hosts := known.hosts
        few := few
        unreported := known.unreported.1
        unsucceeded := known.unsucceeded
        calm := known.calm
        used := known.used
        place := ⟨gone, known.place⟩
        announced := fun no => absurd no (Nat.succ_ne_zero n) }

/-- `retry_the_build` ends, however, with a settled status and without telling the frontend. -/
theorem retryTheBuild_known :
    Meets (Known env.doSign (Before task 0 [])) (retryTheBuild env task rounds)
      (fun _ => Known env.doSign (Unreported env.doSign))
      (leaving env.doSign fun _ => Unreported env.doSign) := by
  unfold retryTheBuild
  refine Meets.forever (fun tries => Known env.doSign (Before task tries.1 tries.2))
    (fun tries => ?_) ?_ rounds (0, [])
  rotate_left
  · exact fun _ _ known => known.anyhow
  obtain ⟨n, seen⟩ := tries
  refine Meets.through (fun again => Known env.doSign fun v => if again then
    At env.doSign task n seen false ready (required env.doSign task) v
    else Unreported env.doSign v) ?_ fun again => ?_
  · refine Meets.handle (fun e => Known env.doSign (failing env.doSign task n seen e)) ?_
      fun e => ?_
    · exact Meets.bind build_known fun _ => Meets.pure fun _ known => known
    · exact Meets.ite (fun retries => Meets.pure fun _ ⟨v, history, agrees, known⟩ =>
        ⟨v, history, agrees, known.2 retries⟩) fun _ =>
        Meets.raise fun _ ⟨v, history, agrees, known⟩ => ⟨v, history, agrees, known.1⟩
  · cases again with
    | true =>
      exact Meets.bind (retried_known fun _ _ ended => ended) fun _ =>
        Meets.pure fun _ known => known
    | false => exact Meets.pure fun _ known => known

end Attempt

/-! ## The task -/

section Task

variable {env : Env} {rounds : Nat}

/-- What is known before a job is fetched. -/
def Fresh (v : View) : Prop := v = {}

/-- Nothing is settled before a job is fetched. -/
theorem Fresh.untold {doSign : Bool} {v : View} (fresh : Fresh v) : Unreported doSign v := by
  subst fresh
  exact ⟨rfl, fun _ no => absurd no (by simp)⟩

/-- An attempt is next, and it is the first one. -/
theorem Before.untold {doSign : Bool} {task : Task} {n : Nat} {seen : List (Option String)}
    {v : View} (known : Before task n seen v) (nothing : v.chain = []) : Unreported doSign v := by
  refine ⟨known.unreported, fun other _ => ?_⟩
  rw [known.unsucceeded, nothing]
  exact iff_of_false Bool.false_ne_true fun whole => List.cons_ne_nil _ _ whole.symm

/-- What is known between the fetched job and the first attempt. -/
def Fetched (task : Task) (v : View) : Prop := Before task 0 [] v ∧ v.chain = []

/-- `_get_build_job` returns the task that was fetched, or ends without telling the frontend. -/
theorem getBuildJob_known :
    Meets (Known env.doSign Fresh) (getBuildJob env)
      (fun task => Known env.doSign (Fetched task))
      (leaving env.doSign fun _ => Unreported env.doSign) := by
  refine Meets.bind (ask_known fun _ _ fresh => fresh.untold) fun fetched => ?_
  cases fetched with
  | none =>
    exact Meets.raise fun _ ⟨v, history, agrees, fresh⟩ => ⟨v, history, agrees, fresh.untold⟩
  | some task =>
    refine Meets.through (fun _ => Known env.doSign (Fetched task)) ?_ fun _ => ?_
    · refine change_known fun s v agrees fresh => ?_
      subst fresh
      refine ⟨.fetched task, rfl, ⟨rfl, rfl, rfl⟩, ?_, ?_⟩
      · exact ⟨agrees.tickets, rfl, rfl, agrees.host, agrees.canceled⟩
      · exact ⟨⟨rfl, rfl, rfl, by decide, rfl, rfl, rfl, rfl, ⟨rfl, rfl⟩, fun _ => rfl⟩, rfl⟩
    refine Meets.through (fun _ => Known env.doSign (Fetched task)) ?_ fun _ => ?_
    · exact Meets.ite (fun _ => Meets.raise fun _ ⟨v, history, agrees, known⟩ =>
        ⟨v, history, agrees, known.1.untold known.2⟩) fun _ => Meets.pure fun _ known => known
    · exact Meets.bind (ask_known fun _ _ known => known.1.untold known.2) fun _ =>
        Meets.pure fun _ known => known

/-- `_mark_starting` leaves the worker with its fetched task, or ends without telling the frontend.
-/
theorem markStarting_known {task : Task} :
    Meets (Known env.doSign (Fetched task)) (markStarting env)
      (fun _ => Known env.doSign (Fetched task))
      (leaving env.doSign fun _ => Unreported env.doSign) := by
  refine Meets.through (fun _ => Known env.doSign (Fetched task)) ?_ fun _ => ?_
  · refine change_known fun s v agrees known => ⟨.starting, rfl, ?_, ?_, known⟩
    · refine ⟨?_, known.1.attempts, known.1.unreported, known.1.calm⟩
      rw [known.1.ofTask]
      rfl
    · refine ⟨agrees.tickets, ?_, ?_, agrees.host, agrees.canceled⟩
      · exact agrees.task.trans (s.setStatus_task _).symm
      · have failed := s.succeeded_setStatus .starting
        rw [decide_eq_false (by decide), Bool.and_false] at failed
        exact known.1.unsucceeded.trans failed.symm
  refine Meets.bind (ask_known fun _ _ known => known.1.untold known.2) fun allowed => ?_
  exact Meets.ite (fun _ => Meets.raise fun _ ⟨v, history, agrees, known⟩ =>
    ⟨v, history, agrees, known.1.untold known.2⟩) fun _ => Meets.pure fun _ known => known

/-- `handle_build` ends, however, with a settled status and without telling the frontend. -/
theorem handleBuild_known :
    Meets (Known env.doSign Fresh) (handleBuild env rounds)
      (fun _ => Known env.doSign (Unreported env.doSign))
      (leaving env.doSign fun _ => Unreported env.doSign) := by
  refine Meets.bind (ask_known fun _ _ fresh => fresh.untold) fun _ => ?_
  refine Meets.bind getBuildJob_known fun task => ?_
  refine Meets.bind (ask_known fun _ _ known => known.1.untold known.2) fun _ => ?_
  refine Meets.bind markStarting_known fun _ => ?_
  exact Meets.assume retryTheBuild_known fun _ ⟨v, history, agrees, known⟩ =>
    ⟨v, history, agrees, known.1⟩

/-- What is known when `handle_task` has returned. -/
def Over (v : View) : Prop := v.host = none ∧ (v.task.isSome = true → v.reported = true)

/-- What is known of a worker that holds no machine and has no job. -/
theorem Over.unfetched {s : Worker} {v : View} (agrees : s.Matches v) (gone : v.host = none)
    (unknown : s.job = none) : Over v := by
  refine ⟨gone, fun fetched => ?_⟩
  rw [agrees.task, unknown] at fetched
  contradiction

/-- The frontend is told how the build ended. -/
theorem markFinished_known {job : Job} {raised : Exn → View → Prop} (leaves : ∀ e v, raised e v) :
    Meets (fun s => Known env.doSign (fun v => Unreported env.doSign v ∧ v.host = none) s ∧
        s.job = some job)
      (markFinished env job) (fun _ => Known env.doSign Over) (leaving env.doSign raised) := by
  have told : ∀ (s : Worker) v, s.Matches v → s.job = some job →
      job.lastStatus = if v.succeeded then .succeeded else .failed := by
    intro s v agrees held
    rw [agrees.succeeded, Worker.succeeded, held]
    unfold Job.lastStatus
    simp
  refine Meets.through (fun _ => Known env.doSign Over) (Meets.change ?_) fun _ =>
    Meets.bind (ask_known fun _ _ _ => leaves _ _) fun _ => ask_known fun _ _ _ => leaves _ _
  rintro s ⟨⟨v, history, agrees, ended, gone⟩, held⟩
  have status := told s v agrees held
  have known : v.task = some job.task := by rw [agrees.task, held]; rfl
  refine ⟨v.after (.finished job.lastStatus), ?_, ?_, gone, fun _ => rfl⟩
  · exact history.next ⟨ended.1, gone, by rw [known]; rfl, ended.2, status⟩
  · refine ⟨agrees.tickets, ?_, ?_, agrees.host, agrees.canceled⟩
    · exact agrees.task.trans (s.setStatus_task _).symm
    · change v.succeeded = (s.setStatus job.lastStatus).succeeded
      rw [Worker.succeeded_setStatus, held, status]
      cases v.succeeded <;> rfl

/-- `_mark_finished` and `_compress_logs`. -/
theorem concludeJob_known {job : Option Job} {raised : Exn → View → Prop}
    (leaves : ∀ e v, raised e v) :
    Meets (fun s => Known env.doSign (fun v => Unreported env.doSign v ∧ v.host = none) s ∧
        s.job = job)
      (concludeJob env job) (fun _ => Known env.doSign Over) (leaving env.doSign raised) := by
  cases job with
  | some job =>
    exact Meets.bind (markFinished_known leaves) fun _ => ask_known fun _ _ _ => leaves _ _
  | none =>
    exact Meets.pure fun s ⟨⟨v, history, agrees, _, gone⟩, unknown⟩ =>
      ⟨v, history, agrees, .unfetched agrees gone unknown⟩

/-- What is known when `handle_task` has returned, and what it has done last. -/
def Returned (doSign : Bool) (s : Worker) : Prop :=
  Known doSign Over s ∧ s.trace.head? = some .done

/-- The last part of `handle_task`. -/
theorem last_known {after : Worker → Prop} (returns : ∀ s, Returned env.doSign s → after s) :
    Meets (Known env.doSign (Unreported env.doSign))
      (do
        dropHost env
        concludeJob env (← Prog.read Worker.job)
        call env.touch
        note .done)
      (fun _ => after) (leaving env.doSign fun _ _ => True) := by
  refine Meets.through
    (fun _ => Known env.doSign fun v => Unreported env.doSign v ∧ v.host = none) ?_ fun _ => ?_
  · exact dropHost_known env (fun _ known gone => ⟨known, gone⟩) (fun _ _ _ known _ => ⟨known, rfl⟩)
      fun _ _ _ => trivial
  refine Meets.through (fun job s => Known env.doSign
    (fun v => Unreported env.doSign v ∧ v.host = none) s ∧ s.job = job) ?_ fun job => ?_
  · exact Meets.read fun s known => ⟨known, rfl⟩
  refine Meets.bind (concludeJob_known fun _ _ => trivial) fun _ => ?_
  refine Meets.bind (ask_known fun _ _ _ => trivial) fun _ => ?_
  refine Meets.change fun s ⟨v, history, agrees, isOver⟩ => returns _ ⟨⟨v, ?_, ?_, isOver⟩, rfl⟩
  · exact history.next isOver.1
  · exact ⟨agrees.tickets, agrees.task, agrees.succeeded, agrees.host, agrees.canceled⟩

/-- Every history of `handle_task` is allowed. -/
theorem handleTask_known :
    Meets (Known env.doSign Fresh) (handleTask env rounds)
      (fun _ => Returned env.doSign) (leaving env.doSign fun _ _ => True) := by
  unfold handleTask
  refine Meets.always (fun _ => Known env.doSign (Unreported env.doSign))
    (fun _ => Known env.doSign (Unreported env.doSign)) ?_ (fun _ => last_known fun _ ends => ends)
    fun _ => last_known fun _ ends => ends.1.anyhow
  exact Meets.handle (fun _ => Known env.doSign (Unreported env.doSign)) handleBuild_known
    fun _ => Meets.pure fun _ known => known

end Task

end Copr.BuildBackgroundWorker
