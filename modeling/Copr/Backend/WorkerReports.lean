import Copr.Backend.WorkerRuns
import Mathlib.Data.List.Dedup

/-!
# What is seen of a worker

What holds of every history of a worker: how often it closes its tickets, what it does after a
cancel request, on how many machines it tries, and that the frontend is told once, and told the
truth, how the build ended.
-/

namespace Copr.BuildBackgroundWorker

open Programs

/-! ## Histories -/

section Histories

variable {doSign : Bool} {earlier later history : List Event} {v : View} {event : Event}

/-- What holds of a history and what is known after it, event by event. -/
theorem Follows.keeps (holds : List Event → View → Prop) (start : holds [] {})
    (step : ∀ history v event, Follows doSign history v → v.Allows doSign event →
      holds history v → holds (event :: history) (v.after event))
    (follows : Follows doSign history v) : holds history v := by
  induction follows with
  | start => exact start
  | next before allowed ih => exact step _ _ _ before allowed ih

/-- The beginning of an allowed history is allowed. -/
theorem Follows.beginning (follows : Follows doSign (later ++ earlier) v) :
    ∃ w, Follows doSign earlier w := by
  induction later generalizing v with
  | nil => exact ⟨v, follows⟩
  | cons event later ih =>
    cases follows with
    | next before _ => exact ih before

/-- An event was allowed where it stands. -/
theorem Follows.allowed (follows : Follows doSign (later ++ event :: earlier) v) :
    ∃ w, Follows doSign earlier w ∧ w.Allows doSign event := by
  obtain ⟨w, before⟩ := follows.beginning
  cases before with
  | next before allowed => exact ⟨_, before, allowed⟩

/-- What can be said of the later events when something holds since the earlier ones. -/
theorem Follows.since (holds : View → Prop) (ok : Event → Prop)
    (start : ∀ w, Follows doSign earlier w → holds w)
    (step : ∀ w event, holds w → w.Allows doSign event → ok event ∧ holds (w.after event))
    (follows : Follows doSign (later ++ earlier) v) : (∀ event ∈ later, ok event) ∧ holds v := by
  induction later generalizing v with
  | nil => exact ⟨fun _ member => absurd member List.not_mem_nil, start v follows⟩
  | cons event later ih =>
    cases follows with
    | next before allowed =>
      obtain ⟨all, known⟩ := ih before
      obtain ⟨here, next⟩ := step _ event known allowed
      exact ⟨List.forall_mem_cons.mpr ⟨here, all⟩, next⟩

/-- Every history of `handle_task` is allowed, and the worker is what is known after it. -/
theorem handleTask_follows (env : Env) (rounds : Nat) :
    ∃ v, Follows env.doSign (handleTask env rounds {}).2.trace v ∧
      (handleTask env rounds {}).2.Matches v ∧
      ((handleTask env rounds {}).1 = .value () →
        Over v ∧ (handleTask env rounds {}).2.trace.head? = some .done) := by
  have start : Known env.doSign Fresh {} :=
    ⟨{}, .start, ⟨rfl, rfl, rfl, rfl, rfl⟩, rfl⟩
  have ended := (handleTask_known : Meets _ (handleTask env rounds) _ _) {} start
  cases run : handleTask env rounds {} with
  | mk ending s =>
    rw [run] at ended
    cases ending with
    | value a =>
      obtain ⟨⟨v, follows, agrees, isOver⟩, last⟩ := ended
      exact ⟨v, follows, agrees, fun _ => ⟨isOver, last⟩⟩
    | raised e =>
      obtain ⟨v, follows, agrees, _⟩ := ended
      exact ⟨v, follows, agrees, fun no => absurd no (by simp)⟩
    | killed =>
      obtain ⟨v, follows, agrees, _⟩ := ended
      exact ⟨v, follows, agrees, fun no => absurd no (by simp)⟩

end Histories

/-! ## Tickets -/

section Tickets

variable {doSign : Bool} {history : List Event} {v : View} {event : Event} {ticket : Nat}

/-- The ticket was given up: the wait for it ended without a machine, and another one was taken. -/
abbrev GivenUp (history : List Event) (tickets ticket : Nat) : Prop :=
  .waitEnded ticket ∈ history ∧ ticket + 1 < tickets

/-- What is known of the tickets. -/
structure Tickets (history : List Event) (v : View) : Prop where
  /-- Every ticket is taken once. -/
  taken : ∀ ticket, history.count (.tookTicket ticket) = if ticket < v.tickets then 1 else 0
  /-- Nothing happens to a ticket before it is taken. -/
  untouched : ∀ ticket, v.tickets ≤ ticket →
    .released ticket ∉ history ∧ .waitEnded ticket ∉ history
  /-- The host has the last ticket. -/
  newest : ∀ host, v.host = some host → host.ticket + 1 = v.tickets
  /-- Whether the wait for the ticket of the host has ended without a machine. -/
  ended : ∀ host, v.host = some host →
    (.waitEnded host.ticket ∈ history ↔ host.hostname = none ∧ v.waiting = false)
  /-- When the last ticket was closed although it had no machine, no other one is taken. -/
  vain : v.host = none → v.vain = false → ∀ ticket, ticket + 1 = v.tickets →
    .waitEnded ticket ∉ history
  /-- What became of a ticket. -/
  closed : ∀ ticket, ticket < v.tickets → history.count (.released ticket) +
    (if v.host.any (fun host => host.ticket = ticket) then 1 else 0) +
    (if GivenUp history v.tickets ticket then 1 else 0) = 1

/-- What is known of the tickets stays known when an event has nothing to do with them. -/
theorem Tickets.other (known : Tickets history v)
    (took : ∀ ticket, event ≠ .tookTicket ticket) (released : ∀ ticket, event ≠ .released ticket)
    (ended : ∀ ticket, event ≠ .waitEnded ticket) (tickets : (v.after event).tickets = v.tickets)
    (host : (v.after event).host = v.host) (waiting : (v.after event).waiting = v.waiting)
    (vain : (v.after event).vain = v.vain) : Tickets (event :: history) (v.after event) := by
  have waits : ∀ ticket, .waitEnded ticket ∈ event :: history ↔ .waitEnded ticket ∈ history :=
    fun ticket => List.mem_cons.trans (or_iff_right (ended ticket).symm)
  constructor
  · intro ticket
    rw [List.count_cons_of_ne (took ticket), tickets]
    exact known.taken ticket
  · intro ticket unknown
    rw [tickets] at unknown
    rw [waits, List.mem_cons, or_iff_right (released ticket).symm]
    exact known.untouched ticket unknown
  · rw [host, tickets]
    exact known.newest
  · rw [host, waiting]
    intro held same
    rw [waits]
    exact known.ended held same
  · rw [host, vain, tickets]
    intro gone used ticket last
    rw [waits]
    exact known.vain gone used ticket last
  · intro ticket
    rw [List.count_cons_of_ne (released ticket), host, tickets]
    simp only [GivenUp, waits]
    exact known.closed ticket

/-- An older ticket is not that of the host. -/
theorem Tickets.older (known : Tickets history v) (older : ticket + 1 < v.tickets) :
    (v.host.any fun host => host.ticket = ticket) = false := by
  cases held : v.host with
  | none => rfl
  | some host =>
    have newest := known.newest host held
    exact decide_eq_false (by omega)

/-- Where another ticket may be taken, the last one is held when the wait for it has ended. -/
theorem Tickets.last (known : Tickets history v) (free : ¬ v.Allocated) (still : v.waiting = false)
    (used : v.vain = false) (last : ticket + 1 = v.tickets) :
    (v.host.any fun host => host.ticket = ticket) = true ↔ .waitEnded ticket ∈ history := by
  cases held : v.host with
  | none => exact iff_of_false Bool.false_ne_true (known.vain held used ticket last)
  | some host =>
    have newest := known.newest host held
    obtain rfl : host.ticket = ticket := by omega
    refine iff_of_true (decide_eq_true rfl) ((known.ended host held).mpr ⟨?_, still⟩)
    cases named : host.hostname with
    | none => rfl
    | some name => exact absurd ⟨host.ticket, name, by rw [held, ← named]⟩ free

/-- Taking the next ticket keeps what is known of the tickets when none is held. -/
theorem Tickets.took (known : Tickets history v) (free : ¬ v.Allocated) (still : v.waiting = false)
    (used : v.vain = false) :
    Tickets (.tookTicket v.tickets :: history) (v.after (.tookTicket v.tickets)) := by
  have waits : ∀ ticket, .waitEnded ticket ∈ Event.tookTicket v.tickets :: history ↔
      .waitEnded ticket ∈ history := fun ticket => by simp
  have closes : ∀ ticket, .released ticket ∈ Event.tookTicket v.tickets :: history ↔
      .released ticket ∈ history := fun ticket => by simp
  have new := known.untouched v.tickets (Nat.le_refl _)
  constructor
  · intro ticket
    have before := known.taken ticket
    change _ = if ticket < v.tickets + 1 then 1 else 0
    by_cases same : v.tickets = ticket
    · subst same
      rw [List.count_cons_self, before]
      simp
    · rw [List.count_cons_of_ne fun no => same (Event.tookTicket.inj no), before]
      have : ticket < v.tickets + 1 ↔ ticket < v.tickets := by omega
      simp only [this]
  · intro ticket unknown
    rw [waits, closes]
    exact known.untouched ticket (Nat.le_of_succ_le unknown)
  · rintro host ⟨⟩
    rfl
  · rintro host ⟨⟩
    rw [waits]
    exact iff_of_false new.2 fun no => absurd no.2 Bool.true_eq_false.mp
  · exact fun no => absurd no (by simp [View.after])
  · intro ticket older
    rw [List.count_cons_of_ne (by simp)]
    simp only [GivenUp, waits]
    change _ + (if decide (v.tickets = ticket) = true then 1 else 0) +
      (if _ ∧ ticket + 1 < v.tickets + 1 then 1 else 0) = 1
    change ticket < v.tickets + 1 at older
    by_cases same : v.tickets = ticket
    · subst same
      rw [List.count_eq_zero.mpr new.1]
      simp
    · have before := known.closed ticket (by omega)
      rw [if_neg (by simpa using same)]
      rcases Nat.lt_or_eq_of_le (show ticket + 1 ≤ v.tickets by omega) with old | last
      · rw [known.older old] at before
        simp only [GivenUp, old, and_true] at before
        simp only [show ticket + 1 < v.tickets + 1 by omega, and_true]
        exact before
      · simp only [GivenUp, last, Nat.lt_irrefl, and_false, if_false,
          known.last free still used last] at before
        simp only [last, Nat.lt_succ_self, and_true]
        omega

/-- The wait for an awaited ticket has not ended. -/
theorem Tickets.unended (known : Tickets history v) (host : v.host = some ⟨ticket, none⟩)
    (waiting : v.waiting = true) : .waitEnded ticket ∉ history := fun no =>
  absurd (waiting.symm.trans ((known.ended _ host).mp no).2) (by simp)

/-- The machine of the ticket is ready. -/
theorem Tickets.allocated {name : String} (known : Tickets history v)
    (host : v.host = some ⟨ticket, none⟩) (waiting : v.waiting = true) :
    Tickets (.allocated ticket name :: history) (v.after (.allocated ticket name)) := by
  have waits : ∀ other, .waitEnded other ∈ Event.allocated ticket name :: history ↔
      .waitEnded other ∈ history := fun other => by simp
  constructor
  · intro other
    rw [List.count_cons_of_ne (by simp)]
    exact known.taken other
  · intro other unknown
    have untouched := known.untouched other unknown
    exact ⟨by simp [untouched.1], by simp [untouched.2]⟩
  · rintro held ⟨⟩
    exact (known.newest _ host :)
  · rintro held ⟨⟩
    rw [waits]
    exact iff_of_false (known.unended host waiting) fun no => absurd no.1 (by simp)
  · exact fun no => absurd no (by simp [View.after])
  · intro other older
    have before := known.closed other older
    rw [host] at before
    rw [List.count_cons_of_ne (by simp)]
    simp only [GivenUp, waits]
    exact before

/-- The wait for the ticket ends without a machine. -/
theorem Tickets.waitEnded (known : Tickets history v) (host : v.host = some ⟨ticket, none⟩) :
    Tickets (.waitEnded ticket :: history) (v.after (.waitEnded ticket)) := by
  have newest : ticket + 1 = v.tickets := known.newest _ host
  constructor
  · intro other
    rw [List.count_cons_of_ne (by simp)]
    exact known.taken other
  · intro other unknown
    have untouched := known.untouched other unknown
    change v.tickets ≤ other at unknown
    have later : other ≠ ticket := by omega
    exact ⟨by simp [untouched.1], by simp [untouched.2, later]⟩
  · exact known.newest
  · intro held same
    obtain rfl := Option.some.inj (host.symm.trans same)
    exact iff_of_true List.mem_cons_self ⟨rfl, rfl⟩
  · exact fun no => absurd (host.symm.trans no) (by simp)
  · intro other older
    rw [List.count_cons_of_ne (by simp)]
    have before := known.closed other older
    have given : GivenUp (.waitEnded ticket :: history) v.tickets other ↔
        GivenUp history v.tickets other := by
      unfold GivenUp
      rw [List.mem_cons, Event.waitEnded.injEq]
      constructor
      · rintro ⟨rfl | ended, earlier⟩
        · omega
        · exact ⟨ended, earlier⟩
      · exact fun both => ⟨Or.inr both.1, both.2⟩
    change _ + _ + (if GivenUp (.waitEnded ticket :: history) v.tickets other then 1 else 0) = 1
    simp only [given]
    exact before

/-- The ticket of the host is closed. -/
theorem Tickets.released (known : Tickets history v) {name : Option String}
    (host : v.host = some ⟨ticket, name⟩) :
    Tickets (.released ticket :: history) (v.after (.released ticket)) := by
  have newest : ticket + 1 = v.tickets := known.newest _ host
  have waits : ∀ other, .waitEnded other ∈ Event.released ticket :: history ↔
      .waitEnded other ∈ history := fun other => by simp
  constructor
  · intro other
    rw [List.count_cons_of_ne (by simp)]
    exact known.taken other
  · intro other unknown
    have untouched := known.untouched other unknown
    change v.tickets ≤ other at unknown
    have later : other ≠ ticket := by omega
    exact ⟨by simp [untouched.1, later], by simp [untouched.2]⟩
  · exact fun _ no => absurd no (by simp [View.after])
  · exact fun _ no => absurd no (by simp [View.after])
  · intro _ used other last
    change (v.vain || v.host.any fun host => host.hostname.isNone) = false at used
    rw [host, Bool.or_eq_false_iff] at used
    obtain rfl : other = ticket := by
      change other + 1 = v.tickets at last
      omega
    rw [waits, known.ended _ host]
    rintro ⟨rfl, _⟩
    exact absurd used.2 (by simp)
  · intro other older
    change other < v.tickets at older
    have before := known.closed other older
    rw [host] at before
    change _ + 0 + (if GivenUp (.released ticket :: history) v.tickets other then 1 else 0) = 1
    by_cases same : ticket = other
    · subst same
      have last : ¬ ticket + 1 < v.tickets := by omega
      rw [List.count_cons_self, if_neg fun given => last given.2]
      rw [if_pos (by simp), if_neg fun given => last given.2] at before
      omega
    · rw [List.count_cons_of_ne fun no => same (Event.released.inj no)]
      rw [if_neg (by simp [same])] at before
      simp only [GivenUp, waits]
      exact before

/-- What is known of the tickets after any history. -/
theorem Follows.tickets (follows : Follows doSign history v) : Tickets history v := by
  refine follows.keeps Tickets ?_ fun history v event _ allowed known => ?_
  · exact ⟨fun _ => rfl, fun _ _ => ⟨List.not_mem_nil, List.not_mem_nil⟩,
      fun _ no => absurd no (by simp), fun _ no => absurd no (by simp),
      fun _ _ _ _ => List.not_mem_nil, fun _ no => absurd no (Nat.not_lt_zero _)⟩
  · cases event with
    | tookTicket ticket =>
      obtain ⟨rfl, _, still, free, used, _⟩ := allowed
      exact known.took free still used
    | allocated ticket name => exact known.allocated allowed.1 allowed.2.1
    | waitEnded ticket => exact known.waitEnded allowed.1
    | released ticket =>
      obtain ⟨name, host⟩ := allowed
      exact known.released host
    | _ =>
      exact known.other (fun _ => by simp) (fun _ => by simp) (fun _ => by simp) rfl rfl rfl rfl

/-- Every ticket is taken once. Of those that were taken, each is either closed, once, or it is the
host's, or it was given up, which it is when the wait for it ended without a machine and another one
was taken. When `handle_task` has returned, there is no host any more. -/
theorem handleTask_tickets (env : Env) (rounds ticket : Nat) :
    let run := handleTask env rounds {}
    let count := run.2.trace.count (.released ticket)
    let held := run.2.host.any fun host => host.ticket = ticket
    run.2.trace.count (.tookTicket ticket) = (if ticket < run.2.tickets then 1 else 0) ∧
    (if ticket < run.2.tickets then
      count + (if held then 1 else 0) + (if GivenUp run.2.trace run.2.tickets ticket then 1 else 0)
        = 1
      else count = 0 ∧ held = false) ∧
    (run.1 = .value () → run.2.host = none) := by
  obtain ⟨v, follows, agrees, isOver⟩ := handleTask_follows env rounds
  have known := follows.tickets
  dsimp only
  rw [← agrees.tickets, ← agrees.host]
  refine ⟨known.taken ticket, ?_, fun returned => (isOver returned).1.1⟩
  split
  · exact known.closed ticket ‹_›
  · have unknown : v.tickets ≤ ticket := Nat.le_of_not_lt ‹_›
    refine ⟨List.count_eq_zero.mpr (known.untouched ticket unknown).1, ?_⟩
    cases held : v.host with
    | none => rfl
    | some host =>
      have newest := known.newest host held
      exact decide_eq_false (by omega)

end Tickets

/-! ## Reports -/

section Reports

variable {doSign : Bool} {history : List Event} {v : View} {event : Event}

/-- The statuses of which the frontend was told, the last one first. -/
def reports (history : List Event) : List StatusEnum :=
  history.filterMap fun
    | .finished status => some status
    | _ => none

/-- The parts that are done since the last attempt began, in their order. -/
def lastParts : List Event → List Progress
  | [] => []
  | .attempt _ :: _ => []
  | .progress part :: earlier => lastParts earlier ++ [part]
  | _ :: earlier => lastParts earlier

/-- The parts that are done are the last ones of the history. -/
theorem Follows.chain (follows : Follows doSign history v) : v.chain = lastParts history := by
  refine follows.keeps (fun history v => v.chain = lastParts history) rfl
    fun history v event _ _ known => ?_
  cases event with
  | attempt n => rfl
  | progress part => exact congrArg (· ++ [part]) known
  | _ => exact known

/-- A build that succeeded was not canceled. -/
theorem Follows.calm (follows : Follows doSign history v) :
    v.canceled = true → v.succeeded = false := by
  refine follows.keeps (fun _ v => v.canceled = true → v.succeeded = false) (fun _ => rfl)
    fun history v event _ allowed known => ?_
  cases event with
  | checked requested => exact fun _ => allowed.2.2
  | built failed => exact fun canceled => absurd (allowed.1.symm.trans canceled) (by simp)
  | _ => exact known

/-- What the parts of the build say about its end. -/
def verdict (doSign : Bool) (history : List Event) (task : Task) : StatusEnum :=
  if lastParts history = required doSign task then .succeeded else .failed

/-- Nothing is reported, or what the parts of the build say is, once. -/
inductive Told (doSign : Bool) (history : List Event) (v : View) : Prop
  /-- Nothing is reported. -/
  | not (unreported : v.reported = false) (nothing : reports history = [])
  /-- The end is reported. -/
  | once (task : Task) (reported : v.reported = true) (known : v.task = some task)
    (report : reports history = [verdict doSign history task])

/-- What is reported after any history. -/
theorem Follows.told (follows : Follows doSign history v) : Told doSign history v := by
  refine follows.keeps (Told doSign) (.not rfl rfl) fun history v event before allowed known => ?_
  cases known with
  | not unreported nothing =>
    cases event with
    | finished status =>
      obtain ⟨_, _, fetched, settled, rfl⟩ := allowed
      obtain ⟨task, known⟩ := Option.isSome_iff_exists.mp fetched
      refine .once task rfl known ?_
      change (if v.succeeded then _ else _) :: reports history = [verdict doSign history task]
      rw [nothing, verdict, ← before.chain]
      simp only [settled task known]
    | _ => exact .not unreported nothing
  | once task reported known report =>
    have told : ∀ {p : Prop}, v.reported = false → p := fun no =>
      absurd (reported.symm.trans no) (by simp)
    cases event with
    | fetched other => exact absurd (known.symm.trans allowed.1) (by simp)
    | starting => exact told allowed.2.2.1
    | attempt n => exact told allowed.2.2.2.2.2.2
    | checked requested => exact told allowed.2.1
    | tookTicket ticket => exact told allowed.2.2.2.2.2
    | running => exact told allowed.2.2.2.2
    | remoteBuild => exact told allowed.2.2
    | progress part => exact told allowed.2.1
    | built failed => exact told allowed.2.2.1
    | finished status => exact told allowed.1
    | allocated ticket name => exact .once task reported known report
    | waitEnded ticket => exact .once task reported known report
    | retry hostname => exact .once task reported known report
    | released ticket => exact .once task reported known report
    | done => exact .once task reported known report

/-- The frontend is told at most once how a build ended, and what it is told is success exactly
when every part of the build was done in the last attempt. When `handle_task` has returned, it was
told of every job that was fetched, and the manager knows that the worker is done. -/
theorem handleTask_reports (env : Env) (rounds : Nat) :
    let run := handleTask env rounds {}
    let told := run.2.job.toList.map fun job => verdict env.doSign run.2.trace job.task
    (reports run.2.trace = [] ∨ reports run.2.trace = told) ∧
    (run.1 = .value () → reports run.2.trace = told ∧ run.2.trace.head? = some .done) := by
  obtain ⟨v, follows, agrees, isOver⟩ := handleTask_follows env rounds
  have told : ∀ task, v.task = some task →
      ((handleTask env rounds {}).2.job.toList.map fun job =>
        verdict env.doSign (handleTask env rounds {}).2.trace job.task) =
      [verdict env.doSign (handleTask env rounds {}).2.trace task] := by
    intro task known
    obtain ⟨job, held, rfl⟩ := Option.map_eq_some_iff.mp (agrees.task.symm.trans known)
    rw [held]
    rfl
  refine ⟨?_, fun returned => ⟨?_, (isOver returned).2⟩⟩
  · cases follows.told with
    | not _ nothing => exact Or.inl nothing
    | once task _ known report => exact Or.inr (report.trans (told task known).symm)
  · cases follows.told with
    | not unreported nothing =>
      have unfetched : v.task.isSome = false := by
        by_contra fetched
        have reported := (isOver returned).1.2 (Bool.not_eq_false _ |>.mp fetched)
        exact absurd (reported.symm.trans unreported) (by simp)
      have jobless : (handleTask env rounds {}).2.job = none := by
        rw [agrees.task, Option.isSome_map] at unfetched
        exact Option.not_isSome_iff_eq_none.mp (by simp [unfetched])
      rw [nothing, jobless]
      rfl
    | once task _ known report => exact report.trans (told task known).symm

/-- An environment in which every call of other code goes well, and the frontend may forbid the
build. -/
def friendly (allowed : Bool) : Env where
  doSign := true
  fetchTask _ := .value (some ⟨"fedora-rawhide-x86_64", false, ["copr_base"], false⟩)
  startingBuild _ := .value allowed
  touch _ := .value ()
  cancelRequest _ := .value false
  newTicket _ := .value ()
  threadEnded _ := .value true
  waitReady _ := .value (some "builder")
  release _ := .value ()
  rpmQuery _ := .value (some true)
  ssh _ := .value true
  transferLogFile _ := .value none
  probe _ := .value false
  timeouted _ := .value false
  ticketFailed _ := .value false
  keepAlive _ := .value none
  download _ := .value ()
  exists? _ := .value true
  upload _ := .value none
  publish _ := .value true

example : reports (handleTask (friendly true) 1 {}).2.trace = [.succeeded] := by decide +kernel

example : reports (handleTask (friendly false) 1 {}).2.trace = [.failed] := by decide +kernel

end Reports

/-! ## Order -/

section Order

variable {doSign : Bool} {history : List Event} {v : View} {event : Event}

/-- After an event, there are only such events. -/
def OnlyAfter (event : Event) (ok : Event → Prop) (history : List Event) : Prop :=
  ∀ later earlier, history = later ++ event :: earlier → ∀ other ∈ later, ok other

/-- What happened before an event is such a history, whenever the event happens. -/
def OnlyWhen (event : Event) (ok : List Event → Prop) (history : List Event) : Prop :=
  ∀ later earlier, history = later ++ event :: earlier → ok earlier

/-- What may still happen after a cancel request was seen. -/
def Event.quits : Event → Prop
  | .finished status => status = .failed
  | .released _ | .done => True
  | _ => False

/-- After a cancel request the release of the machine, the report of a failure and the end are the
only events. -/
theorem Follows.quits (follows : Follows doSign history v) :
    OnlyAfter (.checked true) Event.quits history := by
  rintro later earlier rfl
  refine (follows.since (fun w => w.canceled = true ∧ w.succeeded = false) Event.quits ?_ ?_).1
  · intro w before
    cases before with
    | next before allowed => exact ⟨rfl, allowed.2.2⟩
  · intro w event known allowed
    have calm : ∀ {p : Prop}, w.canceled = false → p := fun no =>
      absurd (known.1.symm.trans no) (by simp)
    cases event with
    | fetched task => exact calm allowed.2.2
    | starting => exact calm allowed.2.2.2
    | attempt n => exact calm allowed.2.2.1
    | checked requested => exact calm allowed.1
    | tookTicket ticket => exact calm allowed.2.1
    | allocated ticket name => exact calm allowed.2.2
    | waitEnded ticket => exact calm allowed.2.2
    | running => exact calm allowed.2.2.1
    | remoteBuild => exact calm allowed.1
    | progress part => exact calm allowed.1
    | built failed => exact calm allowed.1
    | retry hostname => exact calm allowed.1
    | released ticket => exact ⟨trivial, known⟩
    | finished status =>
      have failed := allowed.2.2.2.2
      rw [known.2] at failed
      exact ⟨failed, known⟩
    | done => exact ⟨trivial, known⟩

/-- After its report a worker only ends. -/
theorem Follows.ends (follows : Follows doSign history v) (status : StatusEnum) :
    OnlyAfter (.finished status) (fun event => event = .done) history := by
  rintro later earlier rfl
  refine (follows.since (fun w => w.reported = true ∧ w.host = none ∧ w.task.isSome = true)
    (fun event => event = .done) ?_ ?_).1
  · intro w before
    cases before with
    | next before allowed => exact ⟨rfl, allowed.2.1, allowed.2.2.1⟩
  · intro w event known allowed
    have told : ∀ {p : Prop}, w.reported = false → p := fun no =>
      absurd (known.1.symm.trans no) (by simp)
    have gone : ∀ {p : Prop} {host}, w.host = some host → p := fun no =>
      absurd (known.2.1.symm.trans no) (by simp)
    cases event with
    | fetched task =>
      rw [allowed.1] at known
      exact absurd known.2.2 (by simp)
    | starting => exact told allowed.2.2.1
    | attempt n => exact told allowed.2.2.2.2.2.2
    | checked requested => exact told allowed.2.1
    | tookTicket ticket => exact told allowed.2.2.2.2.2
    | allocated ticket name => exact gone allowed.1
    | waitEnded ticket => exact gone allowed.1
    | running => exact told allowed.2.2.2.2
    | remoteBuild => exact told allowed.2.2
    | progress part => exact told allowed.2.1
    | built failed => exact told allowed.2.2.1
    | retry hostname =>
      obtain ⟨_, _, ticket, name, held, _⟩ := allowed
      exact gone held
    | released ticket =>
      obtain ⟨name, held⟩ := allowed
      exact gone held
    | finished status => exact told allowed.1
    | done => exact ⟨rfl, known⟩

/-- Of the events that are recorded, only the release of the machine, the report of a failure and
the end come after a cancel request was seen, and only the end comes after the report. -/
theorem handleTask_quits (env : Env) (rounds : Nat) :
    OnlyAfter (.checked true) Event.quits (handleTask env rounds {}).2.trace ∧
    ∀ status, OnlyAfter (.finished status) (fun event => event = .done)
      (handleTask env rounds {}).2.trace := by
  obtain ⟨v, follows, _⟩ := handleTask_follows env rounds
  exact ⟨follows.quits, follows.ends⟩

/-! ## Attempts -/

/-- The numbers of the attempts, the last one first. -/
def attempts (history : List Event) : List Nat :=
  history.filterMap fun
    | .attempt n => some n
    | _ => none

/-- The machines on which a build failed so that it was tried again. -/
def machines (history : List Event) : List (Option String) :=
  (history.filterMap fun
    | .retry hostname => some hostname
    | _ => none).dedup

/-- The attempts are numbered one after the other. -/
theorem Follows.attempts (follows : Follows doSign history v) :
    attempts history = (List.range v.attempts).reverse := by
  refine follows.keeps (fun history v =>
    BuildBackgroundWorker.attempts history = (List.range v.attempts).reverse) rfl
    fun history v event _ allowed known => ?_
  cases event with
  | attempt n =>
    obtain rfl := allowed.1
    rw [View.after, List.range_succ, List.reverse_concat, ← known]
    rfl
  | _ => exact known

/-- The machines that are known to have failed. -/
theorem Follows.machines (follows : Follows doSign history v) : machines history = v.seen := by
  refine follows.keeps (fun history v => BuildBackgroundWorker.machines history = v.seen) rfl
    fun history v event _ allowed known => ?_
  cases event with
  | retry hostname =>
    change (hostname :: _).dedup = v.seen.insert hostname
    rw [← known]
    by_cases failed : hostname ∈ BuildBackgroundWorker.machines history
    · rw [List.insert_of_mem failed, List.dedup_cons_of_mem (List.mem_dedup.mp failed)]
      rfl
    · rw [List.insert_of_not_mem failed,
        List.dedup_cons_of_notMem fun no => failed (List.mem_dedup.mpr no)]
      rfl
  | _ => exact known

/-- A build is tried on three machines at most. -/
theorem Follows.few (follows : Follows doSign history v) :
    v.seen.length ≤ maxHostAttempts := by
  refine follows.keeps (fun _ v => v.seen.length ≤ maxHostAttempts) (Nat.zero_le _)
    fun history v event _ allowed known => ?_
  cases event with
  | retry hostname =>
    change (v.seen.insert hostname).length ≤ maxHostAttempts
    by_cases failed : hostname ∈ v.seen
    · rw [List.insert_of_mem failed]
      exact known
    · rw [List.insert_of_not_mem failed]
      exact allowed.2.1
  | _ => exact known

/-- The frontend was told once, or not at all, that the build runs. -/
theorem Follows.announced (follows : Follows doSign history v) :
    history.count .running = if v.announced then 1 else 0 := by
  refine follows.keeps (fun history v => history.count .running = if v.announced then 1 else 0) rfl
    fun history v event _ allowed known => ?_
  cases event with
  | running =>
    rw [List.count_cons_self, known, allowed.2.1]
    rfl
  | _ =>
    rw [List.count_cons_of_ne (by simp)]
    exact known

/-- Attempts are numbered one after the other. Each one begins while the build has failed on fewer
than three machines, on which it was then tried again, and in the end these are three at most. The
frontend is told at most once that the build runs, and in the first attempt. -/
theorem handleTask_attempts (env : Env) (rounds : Nat) :
    let history := (handleTask env rounds {}).2.trace
    attempts history = (List.range (attempts history).length).reverse ∧
    (machines history).length ≤ maxHostAttempts ∧
    (∀ n, OnlyWhen (.attempt n)
      (fun earlier => (machines earlier).length < maxHostAttempts) history) ∧
    history.count .running ≤ 1 ∧
    OnlyWhen .running (fun earlier => attempts earlier = [0]) history := by
  obtain ⟨v, follows, _⟩ := handleTask_follows env rounds
  refine ⟨?_, ?_, ?_, ?_, ?_⟩
  · rw [follows.attempts, List.length_reverse, List.length_range]
  · rw [follows.machines]
    exact follows.few
  · intro n later earlier split
    obtain ⟨w, before, allowed⟩ := (split ▸ follows).allowed
    rw [before.machines]
    exact allowed.2.2.2.2.1
  · rw [follows.announced]
    split <;> decide
  · intro later earlier split
    obtain ⟨w, before, allowed⟩ := (split ▸ follows).allowed
    rw [before.attempts, allowed.1]
    rfl

end Order

end Copr.BuildBackgroundWorker
