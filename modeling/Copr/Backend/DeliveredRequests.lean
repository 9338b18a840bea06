import Mathlib.Data.List.Basic
import Mathlib.Tactic.Common

/-!
# Requests that wait for tasks of Pulp

`PulpClient.deliver_and_wait` submits requests and asks for the tasks that Pulp has started for
them, round after round, and submits a request again when its task has failed. The server may
answer anything. Here each request is completed once, and its result is in its place.
-/

namespace Copr

/-- `PulpRequest`. -/
structure PulpRequest where
  /-- `method`. -/
  method : String
  /-- `url`. -/
  url : String
  /-- `data`, as JSON. -/
  data : Option String
  /-- `description`. -/
  description : String
  deriving DecidableEq, Repr

/-- The JSON object that Pulp answers with. -/
structure PulpAnswer where
  /-- `task`. -/
  task : Option String
  /-- `state`. -/
  state : Option String
  /-- Everything else. -/
  fields : String
  deriving DecidableEq, Repr

/-- A response of the server. -/
structure PulpResponse where
  /-- `status_code`. -/
  statusCode : Nat
  /-- The object in the body. -/
  json : PulpAnswer
  deriving DecidableEq, Repr

/-- An element of the todo list. -/
structure DeliveredRequest where
  /-- The index of the request. -/
  index : Nat
  /-- The request. -/
  request : PulpRequest
  /-- The task that Pulp has started for it. -/
  task : Option String
  /-- `backoff_sleep`. -/
  backoffSleep : Nat
  deriving DecidableEq, Repr

/-- A call of the server with its response. -/
structure PulpCallRecord where
  /-- The index of the request that it is made for. -/
  index : Nat
  /-- The request. -/
  request : PulpRequest
  /-- The task that it asks for; `none` when the request is submitted. -/
  task : Option String
  /-- The response. -/
  response : PulpResponse
  deriving DecidableEq, Repr

/-- What `deliver_and_wait` has got so far. -/
structure DeliveryState where
  /-- `results`. -/
  results : List (Option PulpAnswer)
  /-- The calls that were made (history). -/
  calls : List PulpCallRecord
  /-- What the server is going to answer. -/
  responses : List PulpResponse
  deriving DecidableEq, Repr

/-- The state of a task that is not finished. -/
def unfinished (state : String) : Bool := decide (state = "waiting" ∨ state = "running")

/-- What becomes of a request with the response to a call: the element for `still_pending` if any,
and the results. It is `none` when the body lacks a key. -/
def attend (p : DeliveredRequest) (response : PulpResponse) (results : List (Option PulpAnswer)) :
    Option (Option DeliveredRequest × List (Option PulpAnswer)) :=
  match p.task with
  | none =>
    if response.statusCode ≠ 202 then some (none, results.set p.index (some response.json))
    else response.json.task.map fun task => (some { p with task := some task }, results)
  | some _ =>
    response.json.state.map fun state =>
      if unfinished state then (some p, results)
      else if state = "completed" then (none, results.set p.index (some response.json))
      else (some { p with task := none, backoffSleep := min (p.backoffSleep * 2) 300 }, results)

/-- A round: each pending request is attended to, in order. The result is `still_pending`; it is
`none` when an exception is raised or the server does not answer. -/
def deliverRound : List DeliveredRequest → List DeliveredRequest → DeliveryState →
    Option (List DeliveredRequest × DeliveryState)
  | [], still, s => some (still, s)
  | p :: todo, still, s =>
    match s.responses with
    | [] => none
    | response :: responses =>
      match attend p response s.results with
      | none => none
      | some (next, results) =>
        deliverRound todo (still ++ next.toList)
          { results
            calls := s.calls ++ [⟨p.index, p.request, p.task, response⟩]
            responses }

/-- The `while` loop, with at most so many rounds. The deadline may be over before any of them. -/
def deliverRounds (expired : Nat → Bool) : Nat → Nat → List DeliveredRequest → DeliveryState →
    Option DeliveryState
  | _, _, [], s => some s
  | 0, _, _ :: _, _ => none
  | fuel + 1, round, p :: pending, s =>
    if expired round then none
    else (deliverRound (p :: pending) [] s).bind fun (still, s) =>
      deliverRounds expired fuel (round + 1) still s

/-- The todo list at the beginning. -/
def initialPending (requests : List PulpRequest) : List DeliveredRequest :=
  requests.mapIdx fun i request => ⟨i, request, none, 5⟩

/-- `deliver_and_wait`, with the calls that it makes. -/
def deliverAndWait (expired : Nat → Bool) (fuel : Nat) (requests : List PulpRequest)
    (responses : List PulpResponse) : Option (List (Option PulpAnswer) × List PulpCallRecord) :=
  if requests.isEmpty then some ([], [])
  else
    (deliverRounds expired fuel 0 (initialPending requests)
      ⟨List.replicate requests.length none, [], responses⟩).map fun s => (s.results, s.calls)

/-! ## What the calls say about a request -/

namespace PulpCallRecord

/-- The request is submitted. -/
def Submits (i : Nat) (call : PulpCallRecord) : Prop := call.index = i ∧ call.task = none

/-- The task of the request is found to have failed. -/
def Fails (i : Nat) (call : PulpCallRecord) : Prop :=
  call.index = i ∧ call.task ≠ none ∧ ∃ state, call.response.json.state = some state ∧
    unfinished state = false ∧ state ≠ "completed"

instance (i : Nat) (call : PulpCallRecord) : Decidable (call.Submits i) :=
  inferInstanceAs (Decidable (_ ∧ _))

instance (i : Nat) (call : PulpCallRecord) : Decidable (call.Fails i) :=
  decidable_of_iff (call.index = i ∧ call.task ≠ none ∧
      (call.response.json.state.any fun state =>
        !unfinished state && decide (state ≠ "completed")) = true) <| by
    unfold Fails
    cases call.response.json.state <;> simp

end PulpCallRecord

/-- How often a request was submitted. -/
def submissions (i : Nat) (calls : List PulpCallRecord) : Nat :=
  calls.countP fun call => decide (call.Submits i)

/-- How often a task of a request has failed. -/
def failures (i : Nat) (calls : List PulpCallRecord) : Nat :=
  calls.countP fun call => decide (call.Fails i)

/-- The last submission of a request: what comes later for the request asks for the task that this
submission has started. -/
def LastSubmission (i : Nat) (calls : List PulpCallRecord) (call : PulpCallRecord)
    (later : List PulpCallRecord) : Prop :=
  call.Submits i ∧ (∃ earlier, calls = earlier ++ call :: later) ∧
    ∀ other ∈ later, other.index = i → other.task ≠ none ∧ other.task = call.response.json.task

/-- The answer is the synchronous answer to the last submission, or the completed task that was
started for it. -/
def CompletedWith (i : Nat) (request : PulpRequest) (calls : List PulpCallRecord)
    (answer : PulpAnswer) : Prop :=
  ∃ call later, LastSubmission i calls call later ∧ call.request = request ∧
    ((call.response.statusCode ≠ 202 ∧ answer = call.response.json) ∨
      (call.response.statusCode = 202 ∧ ∃ poll ∈ later, poll.index = i ∧
        poll.response.json.state = some "completed" ∧ answer = poll.response.json))

/-! ## What holds in each round -/

/-- A request is in the todo list, and was submitted as often as its tasks have failed or once
more, or it is not in the list any more and has its result. -/
inductive FollowedUp (requests : List PulpRequest) (pending : List DeliveredRequest)
    (results : List (Option PulpAnswer)) (calls : List PulpCallRecord) (i : Nat) : Prop
  /-- The request is going to be submitted. -/
  | unsubmitted (p : DeliveredRequest) (member : p ∈ pending) (index : p.index = i)
      (request : requests[i]? = some p.request) (result : results[i]? = some none)
      (task : p.task = none) (count : submissions i calls = failures i calls)
  /-- The request has a task. -/
  | inFlight (p : DeliveredRequest) (member : p ∈ pending) (index : p.index = i)
      (request : requests[i]? = some p.request) (result : results[i]? = some none)
      (call : PulpCallRecord) (later : List PulpCallRecord) (same : call.request = p.request)
      (last : LastSubmission i calls call later) (accepted : call.response.statusCode = 202)
      (started : p.task ≠ none) (task : call.response.json.task = p.task)
      (count : submissions i calls = failures i calls + 1)
  /-- The request has its result. -/
  | done (absent : ∀ p ∈ pending, p.index ≠ i) (request : PulpRequest)
      (listed : requests[i]? = some request) (answer : PulpAnswer)
      (result : results[i]? = some (some answer))
      (completed : CompletedWith i request calls answer)
      (count : submissions i calls = failures i calls + 1)

section Calls

variable {i : Nat} {calls later : List PulpCallRecord} {call next : PulpCallRecord}
  {request : PulpRequest} {answer : PulpAnswer}

/-- One more call adds one to the submissions of a request if it submits that request. -/
theorem submissions_append : submissions i (calls ++ [next]) =
    submissions i calls + if next.Submits i then 1 else 0 := by
  simp [submissions, List.countP_append, List.countP_cons]

/-- One more call adds one to the failures of a request if it is a failed one of that request. -/
theorem failures_append : failures i (calls ++ [next]) =
    failures i calls + if next.Fails i then 1 else 0 := by
  simp [failures, List.countP_append, List.countP_cons]

/-- A call for another request, or one that asks for the task. -/
theorem LastSubmission.append (last : LastSubmission i calls call later)
    (asks : next.index = i → next.task ≠ none ∧ next.task = call.response.json.task) :
    LastSubmission i (calls ++ [next]) call (later ++ [next]) := by
  have ⟨submits, ⟨earlier, split⟩, polls⟩ := last
  refine ⟨submits, ⟨earlier, by rw [split, List.append_assoc]; rfl⟩, fun other member => ?_⟩
  cases List.mem_append.mp member with
  | inl before => exact polls other before
  | inr now =>
    rw [List.mem_singleton.mp now]
    exact asks

/-- A call for another request changes nothing. -/
theorem CompletedWith.append (completed : CompletedWith i request calls answer)
    (different : next.index ≠ i) : CompletedWith i request (calls ++ [next]) answer := by
  have ⟨call, later, last, same, how⟩ := completed
  refine ⟨call, later ++ [next], last.append fun index => absurd index different, same, ?_⟩
  apply how.imp_right
  intro ⟨accepted, poll, member, rest⟩
  exact ⟨accepted, poll, List.mem_append_left _ member, rest⟩

/-- The last submission is the last call. -/
theorem LastSubmission.now (submits : next.Submits i) :
    LastSubmission i (calls ++ [next]) next [] :=
  ⟨submits, ⟨calls, rfl⟩, fun _ member => absurd member List.not_mem_nil⟩

end Calls

/-- What a response does to a pending request. -/
inductive Attended (p : DeliveredRequest) (response : PulpResponse)
    (results : List (Option PulpAnswer)) :
    Option DeliveredRequest → List (Option PulpAnswer) → Prop
  /-- The submission is answered at once. -/
  | answered (submitted : p.task = none) (status : response.statusCode ≠ 202) :
    Attended p response results none (results.set p.index (some response.json))
  /-- A task is started. -/
  | accepted (submitted : p.task = none) (status : response.statusCode = 202) (task : String)
      (started : response.json.task = some task) :
    Attended p response results (some { p with task := some task }) results
  /-- The task is not finished. -/
  | waits (asked : p.task ≠ none) (state : String) (read : response.json.state = some state)
      (open_ : unfinished state = true) :
    Attended p response results (some p) results
  /-- The task is completed. -/
  | completed (asked : p.task ≠ none) (read : response.json.state = some "completed") :
    Attended p response results none (results.set p.index (some response.json))
  /-- The task has failed. -/
  | failed (asked : p.task ≠ none) (state : String) (read : response.json.state = some state)
      (ended : unfinished state = false) (bad : state ≠ "completed") :
    Attended p response results
      (some { p with task := none, backoffSleep := min (p.backoffSleep * 2) 300 }) results

section Rounds

variable {requests : List PulpRequest} {p : DeliveredRequest} {response : PulpResponse}
  {results results' : List (Option PulpAnswer)} {next : Option DeliveredRequest} {i : Nat}
  {still todo pending pending' : List DeliveredRequest} {calls : List PulpCallRecord}
  {given responses : List PulpResponse} {s t : DeliveryState}

/-- There are no other cases. -/
theorem attend_cases (attended : attend p response results = some (next, results')) :
    Attended p response results next results' := by
  unfold attend at attended
  split at attended
  · rename_i submitted
    split at attended
    · rename_i status
      cases attended
      exact .answered submitted status
    · rename_i status
      have ⟨task, started, same⟩ := Option.map_eq_some_iff.mp attended
      cases same
      exact .accepted submitted (Decidable.not_not.mp status) task started
  · rename_i task asked
    have asked : p.task ≠ none := by simp [asked]
    have ⟨state, read, same⟩ := Option.map_eq_some_iff.mp attended
    split at same
    · rename_i open_
      cases same
      exact .waits asked state read open_
    · rename_i ended
      split at same
      · rename_i done
        cases same
        exact .completed asked (done ▸ read)
      · rename_i bad
        cases same
        exact .failed asked state read (by simpa using ended) bad

/-- The element stays under its index. -/
theorem Attended.index (attended : Attended p response results next results') :
    ∀ q ∈ next, q.index = p.index ∧ q.request = p.request := by
  intro q member
  cases attended with
  | answered | completed => contradiction
  | accepted | waits | failed =>
    cases member
    exact ⟨rfl, rfl⟩

/-- Only the result of the request may change. -/
theorem Attended.result_other (attended : Attended p response results next results')
    (different : p.index ≠ i) : results'[i]? = results[i]? := by
  cases attended with
  | answered | completed => exact List.getElem?_set_ne different
  | accepted | waits | failed => rfl

/-- A call for another request keeps what is known about a request. -/
theorem FollowedUp.other (tracked : FollowedUp requests pending results calls i)
    (keeps : ∀ p : DeliveredRequest, p.index = i → (p ∈ pending ↔ p ∈ pending'))
    (result : results'[i]? = results[i]?) {next : PulpCallRecord} (different : next.index ≠ i) :
    FollowedUp requests pending' results' (calls ++ [next]) i := by
  have submits : ¬ next.Submits i := fun both => different both.1
  have fails : ¬ next.Fails i := fun both => different both.1
  have sameSubmissions : submissions i (calls ++ [next]) = submissions i calls := by
    rw [submissions_append, if_neg submits, Nat.add_zero]
  have sameFailures : failures i (calls ++ [next]) = failures i calls := by
    rw [failures_append, if_neg fails, Nat.add_zero]
  cases tracked with
  | unsubmitted p member index request none_ task count =>
    exact .unsubmitted p ((keeps p index).mp member) index request (result.trans none_) task
      (by rw [sameSubmissions, sameFailures, count])
  | inFlight p member index request none_ call later same last accepted started task count =>
    exact .inFlight p ((keeps p index).mp member) index request (result.trans none_) call
      (later ++ [next]) same (last.append fun index => absurd index different) accepted started
      task (by rw [sameSubmissions, sameFailures, count])
  | done absent request listed answer some_ completed count =>
    exact .done (fun p member index => absent p ((keeps p index).mpr member) index) request listed
      answer (result.trans some_) (completed.append different)
      (by rw [sameSubmissions, sameFailures, count])

/-- A call for a request keeps what is known about it. -/
theorem FollowedUp.own (attended : Attended p response results next results')
    (only : ∀ q ∈ still ++ todo, q.index ≠ p.index)
    (tracked : FollowedUp requests (still ++ p :: todo) results calls p.index) :
    FollowedUp requests (still ++ next.toList ++ todo) results'
      (calls ++ [⟨p.index, p.request, p.task, response⟩]) p.index := by
  have single (q : DeliveredRequest) (member : q ∈ still ++ p :: todo) (index : q.index = p.index) :
      q = p := by
    by_contra different
    have other : q ∈ still ++ todo := by
      simpa [different] using member
    exact only q other index
  have gone : next = none → ∀ q ∈ still ++ next.toList ++ todo, q.index ≠ p.index := by
    intro none_ q member
    rw [none_] at member
    exact only q (by simpa using member)
  have there {q : DeliveredRequest} (some_ : next = some q) : q ∈ still ++ next.toList ++ todo := by
    simp [some_]
  generalize new : (⟨p.index, p.request, p.task, response⟩ : PulpCallRecord) = call
  have index : call.index = p.index := by rw [← new]
  have request : call.request = p.request := by rw [← new]
  have task : call.task = p.task := by rw [← new]
  have answer : call.response = response := by rw [← new]
  have submits : call.Submits p.index ↔ p.task = none := by
    rw [PulpCallRecord.Submits, task]
    exact and_iff_right index
  have fails : call.Fails p.index ↔ p.task ≠ none ∧ ∃ state,
      response.json.state = some state ∧ unfinished state = false ∧ state ≠ "completed" := by
    rw [PulpCallRecord.Fails, task, answer]
    exact and_iff_right index
  cases tracked with
  | done absent => exact absurd rfl (absent p (by simp))
  | unsubmitted q member index' listed result none_ count =>
    have same := single q member index'
    rw [same] at listed none_
    have more : submissions p.index (calls ++ [call]) = failures p.index (calls ++ [call]) + 1 := by
      rw [submissions_append, failures_append, if_pos (submits.mpr none_),
        if_neg fun both => (fails.mp both).1 none_, count]
    have bound : p.index < results.length := List.getElem?_eq_some_iff.mp result |>.1
    cases attended with
    | answered _ status =>
      refine .done (gone rfl) p.request listed response.json ?_ ?_ more
      · rw [List.getElem?_set_self bound]
      · exact ⟨call, [], .now (submits.mpr none_), request,
          Or.inl ⟨by rwa [answer], by rw [answer]⟩⟩
    | accepted _ status task started =>
      exact .inFlight _ (there rfl) rfl listed result call [] request
        (.now (submits.mpr none_)) (by rwa [answer]) (by simp) (by rw [answer, started]) more
    | waits asked | completed asked | failed asked => exact absurd none_ asked
  | inFlight q member index' listed result earlier later same last accepted started task' count =>
    have equal := single q member index'
    rw [equal] at listed started same task'
    have notSubmits : ¬ call.Submits p.index := fun both => started (submits.mp both)
    have asks : call.index = p.index →
        call.task ≠ none ∧ call.task = earlier.response.json.task := by
      intro _
      rw [task, task']
      exact ⟨started, rfl⟩
    have bound : p.index < results.length := List.getElem?_eq_some_iff.mp result |>.1
    cases attended with
    | answered submitted | accepted submitted => exact absurd submitted started
    | waits _ state read open_ =>
      have notFails : ¬ call.Fails p.index := by
        intro both
        have ⟨_, other, read', ended, _⟩ := fails.mp both
        have states := Option.some.inj (read.symm.trans read')
        rw [← states, open_] at ended
        contradiction
      refine .inFlight p (there rfl) rfl listed result earlier (later ++ [call]) same
        (last.append asks) accepted started task' ?_
      rw [submissions_append, failures_append, if_neg notSubmits, if_neg notFails, count]
    | completed _ read =>
      have notFails : ¬ call.Fails p.index := by
        intro both
        have ⟨_, other, read', _, bad⟩ := fails.mp both
        exact bad (Option.some.inj (read.symm.trans read')).symm
      refine .done (gone rfl) p.request listed response.json ?_ ?_ ?_
      · rw [List.getElem?_set_self bound]
      · refine ⟨earlier, later ++ [call], last.append asks, same, Or.inr ⟨accepted, call, ?_⟩⟩
        refine ⟨List.mem_append_right _ List.mem_cons_self, index, ?_, ?_⟩
        · rw [answer, read]
        · rw [answer]
      · rw [submissions_append, failures_append, if_neg notSubmits, if_neg notFails, count]
    | failed _ state read ended bad =>
      refine .unsubmitted _ (there rfl) rfl listed result rfl ?_
      rw [submissions_append, failures_append, if_neg notSubmits,
        if_pos (fails.mpr ⟨started, state, read, ended, bad⟩), count]

/-- What holds while requests are delivered to a server that gives some responses. -/
structure Delivering (requests : List PulpRequest) (given : List PulpResponse)
    (pending : List DeliveredRequest) (s : DeliveryState) : Prop where
  /-- The calls have got the first of the responses, in order. -/
  answers : s.calls.map PulpCallRecord.response ++ s.responses = given
  /-- A pending request stands under its index. -/
  listed : ∀ p ∈ pending, requests[p.index]? = some p.request
  /-- A call was made for one of the requests. -/
  calls : ∀ call ∈ s.calls, requests[call.index]? = some call.request
  /-- No request is in the todo list twice. -/
  distinct : (pending.map DeliveredRequest.index).Nodup
  /-- There is a place for each result. -/
  length : s.results.length = requests.length
  /-- Every request is accounted for. -/
  tracked : ∀ i < requests.length, FollowedUp requests pending s.results s.calls i

/-- Attending to one request keeps what holds. -/
theorem Delivering.attend (d : Delivering requests given (still ++ p :: todo) s)
    (attended : Attended p response s.results next results')
    (served : s.responses = response :: responses) :
    Delivering requests given (still ++ next.toList ++ todo)
      ⟨results', s.calls ++ [⟨p.index, p.request, p.task, response⟩], responses⟩ := by
  have apart : p.index ∉ (still ++ todo).map DeliveredRequest.index := by
    have middle := d.distinct
    rw [List.map_append, List.map_cons] at middle
    rw [List.map_append]
    exact (List.nodup_cons.mp (List.perm_middle.nodup_iff.mp middle)).1
  have only : ∀ q ∈ still ++ todo, q.index ≠ p.index := fun q member same =>
    apart (same ▸ List.mem_map_of_mem member)
  have listed : requests[p.index]? = some p.request := d.listed p (by simp)
  constructor
  · have before := d.answers
    rw [served] at before
    rw [List.map_append, List.append_assoc]
    exact before
  · intro q member
    by_cases new : q ∈ next
    · have ⟨index, request⟩ := attended.index q new
      rw [index, request, listed]
    · apply d.listed q
      cases next with
      | none => simpa using Or.imp_right Or.inr (by simpa using member)
      | some other =>
        have different : q ≠ other := fun same => new (by simp [same])
        simpa using Or.imp_right Or.inr (by simpa [different] using member)
  · intro call member
    cases List.mem_append.mp member with
    | inl before => exact d.calls call before
    | inr now =>
      rw [List.mem_singleton.mp now]
      exact listed
  · have before := d.distinct
    have shorter : ((still ++ next.toList ++ todo).map DeliveredRequest.index).Sublist
        ((still ++ p :: todo).map DeliveredRequest.index) := by
      rw [List.append_assoc, List.map_append, List.map_append, List.map_append]
      apply List.Sublist.append_left
      cases next with
      | none => exact List.sublist_cons_self _ _
      | some q =>
        have same := (attended.index q rfl).1
        rw [Option.toList_some, List.map_singleton, List.singleton_append, List.map_cons, same]
    exact before.sublist shorter
  · rw [← d.length]
    cases attended with
    | answered | completed => exact List.length_set
    | accepted | waits | failed => rfl
  · intro i bound
    have tracked := d.tracked i bound
    by_cases own : p.index = i
    · rw [← own] at tracked ⊢
      exact tracked.own attended only
    · refine tracked.other (fun q index => ?_) (attended.result_other own) own
      have notOwn : q ≠ p := fun same => own (same ▸ index)
      have notNext : next ≠ some q := fun member =>
        own ((attended.index q member).1.symm.trans index)
      simp [notOwn, notNext]

/-- A round keeps what holds. -/
theorem deliverRound_keeps (d : Delivering requests given (still ++ todo) s)
    (ran : deliverRound todo still s = some (pending, t)) :
    Delivering requests given pending t := by
  induction todo generalizing still s with
  | nil =>
    cases ran
    rwa [List.append_nil] at d
  | cons p todo ih =>
    simp only [deliverRound] at ran
    split at ran
    · contradiction
    · rename_i response responses served
      split at ran
      · contradiction
      · rename_i next results attended
        exact ih (d.attend (attend_cases attended) served) ran

/-- The whole loop keeps what holds, and ends with nothing to do. -/
theorem deliverRounds_keeps {expired : Nat → Bool} {fuel round : Nat}
    (d : Delivering requests given pending s)
    (ran : deliverRounds expired fuel round pending s = some t) :
    Delivering requests given [] t := by
  induction fuel generalizing round pending s with
  | zero =>
    cases pending with
    | nil =>
      cases ran
      exact d
    | cons p pending => contradiction
  | succ fuel ih =>
    cases pending with
    | nil =>
      cases ran
      exact d
    | cons p pending =>
      simp only [deliverRounds] at ran
      split at ran
      · contradiction
      · have ⟨⟨still, after⟩, first, later⟩ := Option.bind_eq_some_iff.mp ran
        exact ih (deliverRound_keeps d first) later

/-- What holds at the beginning. -/
theorem initial_delivering (requests : List PulpRequest) (responses : List PulpResponse) :
    Delivering requests responses (initialPending requests)
      ⟨List.replicate requests.length none, [], responses⟩ := by
  constructor
  · rfl
  · intro p member
    have ⟨i, bound, same⟩ := List.mem_iff_getElem.mp member
    rw [← same]
    simp [initialPending]
  · intro call member
    exact absurd member List.not_mem_nil
  · have indices : (initialPending requests).map DeliveredRequest.index =
        List.range requests.length := by
      apply List.ext_getElem
      · simp [initialPending]
      · intro i _ _
        simp [initialPending]
    rw [indices]
    exact List.nodup_range
  · exact List.length_replicate
  · intro i bound
    have member : (⟨i, requests[i], none, 5⟩ : DeliveredRequest) ∈ initialPending requests := by
      apply List.mem_iff_getElem.mpr
      exact ⟨i, by simpa [initialPending] using bound, by simp [initialPending]⟩
    exact .unsubmitted _ member rfl (List.getElem?_eq_getElem bound)
      (by simp [bound]) rfl rfl

end Rounds

/-- If `deliver_and_wait` returns, then its calls have got the first responses of the server, each
for one of the requests, and there is a result for each request, in its place: the synchronous
answer or the completed task of its last submission. Each request was submitted once more than its
tasks have failed. -/
theorem requests_delivered_in_place (expired : Nat → Bool) (fuel : Nat)
    (requests : List PulpRequest) (responses : List PulpResponse)
    (results : List (Option PulpAnswer)) (calls : List PulpCallRecord)
    (returned : deliverAndWait expired fuel requests responses = some (results, calls)) :
    calls.map PulpCallRecord.response <+: responses ∧
      (∀ call ∈ calls, requests[call.index]? = some call.request) ∧
      results.length = requests.length ∧
      ∀ i request, requests[i]? = some request → ∃ answer, results[i]? = some (some answer) ∧
        CompletedWith i request calls answer ∧ submissions i calls = failures i calls + 1 := by
  simp only [deliverAndWait] at returned
  split at returned
  · rename_i empty
    rw [List.isEmpty_iff.mp empty]
    cases returned
    exact ⟨List.nil_prefix, by simp, rfl, fun i request listed => by simp at listed⟩
  · have ⟨t, ran, same⟩ := Option.map_eq_some_iff.mp returned
    cases same
    have d := deliverRounds_keeps (initial_delivering requests responses) ran
    have answered : t.calls.map PulpCallRecord.response <+: responses := ⟨t.responses, d.answers⟩
    refine ⟨answered, d.calls, d.length, fun i request listed => ?_⟩
    have bound : i < requests.length := (List.getElem?_eq_some_iff.mp listed).1
    cases d.tracked i bound with
    | unsubmitted p member => exact absurd member List.not_mem_nil
    | inFlight p member => exact absurd member List.not_mem_nil
    | done _ other found answer result completed count =>
      have same : other = request := Option.some.inj (found.symm.trans listed)
      rw [same] at completed
      exact ⟨answer, result, completed, count⟩

namespace Sample

/-- A request to publish a repository. -/
def publishRequest : PulpRequest := ⟨"POST", "/api/v3/publications/rpm/rpm/", none, "publish"⟩

/-- A request that is answered at once. -/
def deleteRequest : PulpRequest := ⟨"DELETE", "/api/v3/repositories/rpm/rpm/1/", none, "delete"⟩

/-- A task that has failed is started again, and is completed in the end. -/
def taskResponses : List PulpResponse :=
  [⟨202, ⟨some "task-1", none, ""⟩⟩, ⟨204, ⟨none, none, "deleted"⟩⟩,
    ⟨200, ⟨none, some "running", ""⟩⟩, ⟨200, ⟨none, some "failed", ""⟩⟩,
    ⟨202, ⟨some "task-2", none, ""⟩⟩, ⟨200, ⟨none, some "completed", "published"⟩⟩]

end Sample

/-- Two requests, one of which is submitted twice. The server is asked six times. -/
theorem requests_delivered_in_place_twice : ∃ results calls,
    deliverAndWait (fun _ => false) 9 [Sample.publishRequest, Sample.deleteRequest]
        Sample.taskResponses = some (results, calls) ∧
      calls.map PulpCallRecord.response = Sample.taskResponses ∧
      results.length = 2 ∧ submissions 0 calls = failures 0 calls + 1 := by
  refine ⟨_, _, rfl, ?_⟩
  have ⟨answered, _, length, delivered⟩ := requests_delivered_in_place (fun _ => false) 9
    [Sample.publishRequest, Sample.deleteRequest] Sample.taskResponses _ _ rfl
  have ⟨answer, _, _, count⟩ := delivered 0 Sample.publishRequest rfl
  exact ⟨answered.eq_of_length rfl, length, count⟩

end Copr
