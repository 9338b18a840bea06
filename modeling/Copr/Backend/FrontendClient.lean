import Copr.Common.SafeRequest

/-!
# The client of the frontend

`FrontendClient` of the backend sends a request until the frontend answers it with a version of the
interface that is high enough. What the frontend answers to each request, and what stands in the
header of each response, is the frontend's. Here a client that tries indefinitely gives up only when
the frontend refuses the request.
-/

namespace Copr.FrontendClient

open Programs SafeRequest

/-- The exceptions. -/
inductive Exn
  /-- `FrontendClientException`. -/
  | frontendClientException
  /-- Any other exception. -/
  | other
  deriving DecidableEq, Repr

/-- The answers of the frontend, by the number of the request. -/
structure Frontend where
  /-- What becomes of a request. -/
  replies : Nat → Reply
  /-- `Copr-FE-BE-API-Version`, zero when the header is missing; nothing when it is no number. -/
  version : Nat → Option Int

/-- `MIN_FE_BE_API`. -/
def minFeBeApi : Int := 9

section Sending

variable (frontend : Frontend) (tryIndefinitely : Bool) (rounds : Nat)

/-- What `_send_attempt` makes of an exception. -/
def exn : SafeRequest.Exn → Exn
  | .requestError => .frontendClientException
  | .requestRetryError => .other
  | .other => .other

/-- `_send_attempt`. -/
def sendAttempt : Prog Line Exn Nat :=
  match limit none tryIndefinitely with
  | none => Prog.raise .other
  | some attempts =>
    Prog.within id (fun t _ => t) exn (sendRequestRepeatedly frontend.replies attempts rounds)

/-- A round of `send`: the header of the response to the last request is read. -/
def sendRound : Prog Line Exn (Unit ⊕ Nat) := do
  let status ← sendAttempt frontend tryIndefinitely rounds
  match ← Prog.read fun s => frontend.version (s.sent - 1) with
  | none => Prog.raise .other
  | some version =>
    if minFeBeApi ≤ version then return .inr status
    else if tryIndefinitely then return .inl ()
    else Prog.raise .frontendClientException

/-- `send`. -/
def send : Prog Line Exn Nat :=
  Prog.forever (fun _ => sendRound frontend tryIndefinitely rounds) rounds ()

end Sending

/-! ## When a client gives up -/

namespace Frontend

variable (frontend : Frontend) (tryIndefinitely : Bool)

/-- The request is accepted. -/
def Accepts (n : Nat) : Prop := ∃ code < 400, frontend.replies n = .status code

/-- The request is refused. -/
def Refuses (n : Nat) : Prop :=
  ∃ code, 400 ≤ code ∧ code < 500 ∧ code ≠ 408 ∧ frontend.replies n = .status code

/-- The request is accepted, and the version is too low. -/
def Outdated (n : Nat) : Prop :=
  frontend.Accepts n ∧ ∃ version < minFeBeApi, frontend.version n = some version

/-- The request is accepted, and the version is high enough. -/
def Current (n : Nat) : Prop :=
  frontend.Accepts n ∧ ∃ version, minFeBeApi ≤ version ∧ frontend.version n = some version

/-- The client sends its request again after such an answer. -/
def Passed (n : Nat) : Prop :=
  (frontend.replies n).retried = true ∨ (tryIndefinitely = true ∧ frontend.Outdated n)

/-- A client of so many requests gave up: the last one was refused, or, unless it tries
indefinitely, the version is too low or five requests in a row were not answered. -/
def GivenUp (first sent : Nat) : Prop :=
  ∃ n, sent = n + 1 ∧ (frontend.Refuses n ∨ (tryIndefinitely = false ∧
    (frontend.Outdated n ∨ (n = first + 4 ∧ (frontend.replies n).retried = true))))

/-- How `send` ends. -/
def Ends (rounds : Nat) (s : Line) : Finish Exn Nat → Line → Prop
  | .value status, t => ∃ n, t.sent = n + 1 ∧ s.sent ≤ n ∧ frontend.Current n ∧
      frontend.replies n = .status status ∧
      ∀ j, s.sent ≤ j → j < n → frontend.Passed tryIndefinitely j
  | .raised .frontendClientException, t => frontend.GivenUp tryIndefinitely s.sent t.sent ∧
      ∀ j, s.sent ≤ j → j + 1 < t.sent → frontend.Passed tryIndefinitely j
  | .raised .other, t => ∃ n, t.sent = n + 1 ∧
      (frontend.replies n = .other ∨ (frontend.Accepts n ∧ frontend.version n = none))
  | .killed, t => s.sent + rounds ≤ t.sent ∧ (tryIndefinitely = false → rounds ≤ 5) ∧
      ∀ j, s.sent ≤ j → j < t.sent → frontend.Passed tryIndefinitely j

/-- How `_send_attempt` ends. -/
def AttemptEnds (rounds : Nat) (s : Line) : Finish Exn Nat → Line → Prop
  | .value status, t => ∃ n, t.sent = n + 1 ∧ s.sent ≤ n ∧ status < 400 ∧
      frontend.replies n = .status status ∧
      ∀ j, s.sent ≤ j → j < n → (frontend.replies j).retried = true
  | .raised .frontendClientException, t => ∃ n, t.sent = n + 1 ∧ s.sent ≤ n ∧
      (frontend.Refuses n ∨
        (tryIndefinitely = false ∧ n = s.sent + 4 ∧ (frontend.replies n).retried = true)) ∧
      ∀ j, s.sent ≤ j → j < n → (frontend.replies j).retried = true
  | .raised .other, t => ∃ n, t.sent = n + 1 ∧ frontend.replies n = .other
  | .killed, t => t.sent = s.sent + rounds ∧ (tryIndefinitely = false → rounds ≤ 5) ∧
      ∀ j, s.sent ≤ j → j < t.sent → (frontend.replies j).retried = true

end Frontend

section Sending

variable {frontend : Frontend} {tryIndefinitely : Bool} {rounds : Nat} {s : Line}

/-- What is known of the answers before one, counted from the first request. -/
theorem retried_from {k : Nat} (retried : ∀ j < k, (frontend.replies (s.sent + j)).retried = true) :
    ∀ j, s.sent ≤ j → j < s.sent + k → (frontend.replies j).retried = true := by
  intro j later lt
  have counted := retried (j - s.sent) (by omega)
  rw [Nat.add_sub_cancel' later] at counted
  exact counted

/-- The answer after which a request is not repeated. -/
theorem conclusion_ends (tryIndefinitely : Bool) (rounds : Nat) {t : Line} {n : Nat}
    (later : s.sent ≤ n) (sent : t.sent = n + 1)
    (decided : (frontend.replies n).retried = false)
    (before : ∀ j, s.sent ≤ j → j < n → (frontend.replies j).retried = true) :
    frontend.AttemptEnds tryIndefinitely rounds s
      (match (frontend.replies n).conclusion with
        | .value a => .value a
        | .raised e => .raised (exn e)
        | .killed => .killed) t := by
  cases answer : frontend.replies n with
  | requestException =>
    rw [answer] at decided
    contradiction
  | other => exact ⟨n, sent, answer⟩
  | status code =>
    rw [answer] at decided
    have kept : ¬ (500 ≤ code ∨ code = 408) := of_decide_eq_false decided
    by_cases accepted : code < 400
    · simp only [Reply.conclusion, accepted, if_true]
      exact ⟨n, sent, later, accepted, answer, before⟩
    · simp only [Reply.conclusion, accepted, if_false]
      have refused : frontend.Refuses n := ⟨code, by omega, by omega, by omega, answer⟩
      exact ⟨n, sent, later, Or.inl refused, before⟩

/-- The end of `_send_attempt` is that of its request. -/
theorem sendAttempt_eq : sendAttempt frontend tryIndefinitely rounds s =
    match sendRequestRepeatedly frontend.replies (if tryIndefinitely then none else some 5) rounds
      s with
    | (.value a, t) => (.value a, t)
    | (.raised e, t) => (.raised (exn e), t)
    | (.killed, t) => (.killed, t) := by
  have attempts : limit none tryIndefinitely = some (if tryIndefinitely then none else some 5) := by
    cases tryIndefinitely <;> rfl
  rw [sendAttempt, attempts]
  dsimp only [Prog.within, id]
  cases sendRequestRepeatedly frontend.replies (if tryIndefinitely then none else some 5)
      rounds s with
  | mk ending t => cases ending <;> rfl

/-- `_send_attempt` ends with an answer, or when no attempt is left. -/
theorem sendAttempt_ends (frontend : Frontend) (tryIndefinitely : Bool) (rounds : Nat) (s : Line) :
    frontend.AttemptEnds tryIndefinitely rounds s
      (sendAttempt frontend tryIndefinitely rounds s).1
      (sendAttempt frontend tryIndefinitely rounds s).2 := by
  obtain ⟨k, repeated⟩ := request_repeated frontend.replies
    (if tryIndefinitely then none else some 5) rounds s
  rw [sendAttempt_eq]
  cases run : sendRequestRepeatedly frontend.replies (if tryIndefinitely then none else some 5)
      rounds s with
  | mk ending t =>
    rw [run] at repeated
    dsimp only at repeated
    have before := retried_from repeated.retried
    obtain ⟨used, rfl, sent⟩ | ⟨left, decided, rfl, sent⟩ | ⟨rfl, rfl, sent⟩ := repeated.ends
    · dsimp only
      have limited : tryIndefinitely = false := by
        cases tryIndefinitely with
        | false => rfl
        | true => simp at used
      have five : k = 5 := by
        rw [limited] at used
        simpa using used.symm
      have last := before (s.sent + 4) (by omega) (by omega)
      refine ⟨s.sent + 4, by omega, by omega, Or.inr ⟨limited, rfl, last⟩, ?_⟩
      intro j later lt
      exact before j later (by omega)
    · have concluded := conclusion_ends tryIndefinitely rounds (Nat.le_add_right s.sent k) sent
        decided before
      cases answer : (frontend.replies (s.sent + k)).conclusion with
      | value a => rwa [answer] at concluded
      | raised e => rwa [answer] at concluded
      | killed => rwa [answer] at concluded
    · dsimp only
      refine ⟨sent, fun limited => ?_, fun j later lt => before j later (by omega)⟩
      apply repeated.permitted 5
      rw [limited]
      rfl

/-- A round of `send` that was answered. -/
theorem sendRound_eq : sendRound frontend tryIndefinitely rounds s =
    match sendAttempt frontend tryIndefinitely rounds s with
    | (.value status, t) =>
      match frontend.version (t.sent - 1) with
      | none => (.raised .other, t)
      | some version =>
        if minFeBeApi ≤ version then (.value (.inr status), t)
        else if tryIndefinitely then (.value (.inl ()), t)
        else (.raised .frontendClientException, t)
    | (.raised e, t) => (.raised e, t)
    | (.killed, t) => (.killed, t) := by
  change Prog.bind (sendAttempt frontend tryIndefinitely rounds) _ s = _
  unfold Prog.bind
  cases run : sendAttempt frontend tryIndefinitely rounds s with
  | mk ending t =>
    cases ending with
    | raised e => rfl
    | killed => rfl
    | value status =>
      change (match frontend.version (t.sent - 1) with
        | none => Prog.raise Exn.other
        | some version =>
          if minFeBeApi ≤ version then Prog.pure (Sum.inr status)
          else if tryIndefinitely then Prog.pure (Sum.inl ())
          else Prog.raise Exn.frontendClientException) t = _
      dsimp only
      cases frontend.version (t.sent - 1) with
      | none => rfl
      | some version =>
        dsimp only
        split
        · rfl
        · split <;> rfl

/-- The end after a request that was sent again. -/
theorem Frontend.Ends.after {left : Nat} {u t : Line} {ending : Finish Exn Nat}
    (ends : frontend.Ends true left u ending t) (sent : s.sent < u.sent)
    (passed : ∀ j, s.sent ≤ j → j < u.sent → frontend.Passed true j) :
    frontend.Ends true (left + 1) s ending t := by
  have joined : ∀ bound, (∀ j, u.sent ≤ j → j < bound → frontend.Passed true j) →
      ∀ j, s.sent ≤ j → j < bound → frontend.Passed true j := by
    intro bound afterwards j since lt
    rcases Nat.lt_or_ge j u.sent with earlier | later
    · exact passed j since earlier
    · exact afterwards j later lt
  cases ending with
  | value status =>
    obtain ⟨n, last, later, current, answer, afterwards⟩ := ends
    exact ⟨n, last, by omega, current, answer, joined n afterwards⟩
  | killed =>
    obtain ⟨enough, _, afterwards⟩ := ends
    exact ⟨by omega, fun limited => absurd limited (by simp), joined t.sent afterwards⟩
  | raised e =>
    cases e with
    | other => exact ends
    | frontendClientException =>
      obtain ⟨⟨n, last, refused | ⟨limited, _⟩⟩, afterwards⟩ := ends
      · refine ⟨⟨n, last, Or.inl refused⟩, fun j since lt => ?_⟩
        have before : ∀ i, u.sent ≤ i → i < n → frontend.Passed true i :=
          fun i later lt => afterwards i later (by omega)
        exact joined n before j since (by omega)
      · contradiction

/-- A loop of rounds of `send` with so many attempts left ends as `Ends` says for that number. -/
theorem rounds_end {left : Nat} (few : left ≤ rounds) : frontend.Ends tryIndefinitely left s
    (Prog.forever (fun _ => sendRound frontend tryIndefinitely rounds) left () s).1
    (Prog.forever (fun _ => sendRound frontend tryIndefinitely rounds) left () s).2 := by
  induction left generalizing s with
  | zero =>
    refine ⟨le_rfl, fun _ => Nat.zero_le 5, fun j later lt => ?_⟩
    exact absurd lt (Nat.not_lt.mpr later)
  | succ left ih =>
    rw [Prog.forever_succ, sendRound_eq]
    have attempt := sendAttempt_ends frontend tryIndefinitely rounds s
    cases run : sendAttempt frontend tryIndefinitely rounds s with
    | mk ending t =>
      rw [run] at attempt
      cases ending with
      | killed =>
        dsimp only at attempt ⊢
        obtain ⟨sent, limited, before⟩ := attempt
        refine ⟨by omega, fun no => le_trans few (limited no), fun j later lt => ?_⟩
        exact Or.inl (before j later lt)
      | raised e =>
        dsimp only at attempt ⊢
        cases e with
        | other =>
          obtain ⟨n, sent, answer⟩ := attempt
          exact ⟨n, sent, Or.inl answer⟩
        | frontendClientException =>
          obtain ⟨n, sent, later, refused | ⟨limited, fifth, retried⟩, before⟩ := attempt
          · refine ⟨⟨n, sent, Or.inl refused⟩, fun j since lt => Or.inl (before j since ?_)⟩
            omega
          · refine ⟨⟨n, sent, Or.inr ⟨limited, Or.inr ⟨fifth, retried⟩⟩⟩, fun j since lt => ?_⟩
            exact Or.inl (before j since (by omega))
      | value status =>
        obtain ⟨n, sent, later, accepted, answer, before⟩ := attempt
        have accepts : frontend.Accepts n := ⟨status, accepted, answer⟩
        dsimp only at sent ⊢
        have last : t.sent - 1 = n := by omega
        rw [last]
        cases header : frontend.version n with
        | none => exact ⟨n, sent, Or.inr ⟨accepts, header⟩⟩
        | some version =>
          dsimp only
          by_cases current : minFeBeApi ≤ version
          · rw [if_pos current]
            refine ⟨n, sent, later, ⟨accepts, version, current, header⟩, answer, ?_⟩
            exact fun j since lt => Or.inl (before j since lt)
          · rw [if_neg current]
            have outdated : frontend.Outdated n := ⟨accepts, version, not_le.mp current, header⟩
            cases tryIndefinitely with
            | false =>
              rw [if_neg Bool.false_ne_true]
              dsimp only
              refine ⟨⟨n, sent, Or.inr ⟨rfl, Or.inl outdated⟩⟩, fun j since lt => ?_⟩
              exact Or.inl (before j since (by omega))
            | true =>
              have onward := @ih t (Nat.le_of_succ_le few)
              have passed : ∀ j, s.sent ≤ j → j < t.sent → frontend.Passed true j := by
                intro j since lt
                rcases Nat.lt_or_eq_of_le (Nat.le_of_lt_succ (sent ▸ lt)) with lt | rfl
                · exact Or.inl (before j since lt)
                · exact Or.inr ⟨rfl, outdated⟩
              exact onward.after (by omega) passed

/-- `send` ends with an answer in a current version. It raises `FrontendClientException` when the
last answer refuses the request, or, unless it tries indefinitely, when the version is too low or
five requests were not answered. -/
theorem send_ends (frontend : Frontend) (tryIndefinitely : Bool) (rounds : Nat) (s : Line) :
    frontend.Ends tryIndefinitely rounds s (send frontend tryIndefinitely rounds s).1
      (send frontend tryIndefinitely rounds s).2 :=
  rounds_end le_rfl

/-- A frontend that is not reached, restarts, answers in an old version, and then in a current
one: four requests, and one sleep after each of the first two. -/
example :
    send ⟨fun n => [.requestException, .status 503, .status 200].getD n (.status 200),
      fun n => some (if n < 3 then 8 else 9)⟩ true 5 {} = (.value 200, ⟨4, 15⟩) := by
  rfl

end Sending

end Copr.FrontendClient
