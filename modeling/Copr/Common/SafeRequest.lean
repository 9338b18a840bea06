import Copr.Lib.Programs
import Mathlib.Algebra.Order.Group.Nat

/-!
# Requests that are repeated

`SafeRequest` of `copr_common.request`: a request is sent until the server gives an answer that says
something about it, or until so many attempts were made. The server answers anything. How often a
request was sent and how long was slept for it is counted.
-/

namespace Copr.SafeRequest

open Programs

/-- What becomes of `requests.request`. -/
inductive Reply
  /-- A response with its status. -/
  | status (code : Nat)
  /-- `requests.RequestException`. -/
  | requestException
  /-- Any other exception. -/
  | other
  deriving DecidableEq, Repr

/-- The exceptions. -/
inductive Exn
  /-- `RequestRetryError`. -/
  | requestRetryError
  /-- `RequestError`. -/
  | requestError
  /-- Any other exception. -/
  | other
  deriving DecidableEq, Repr

/-- What was done so far. -/
structure Line where
  /-- The requests that were sent. -/
  sent : Nat := 0
  /-- The seconds that were slept. -/
  slept : Nat := 0
  deriving DecidableEq, Repr

/-- `SLEEP_INCREMENT_TIME`. -/
def sleepIncrementTime : Nat := 5

/-- `SafeRequest.__init__`: the attempts, nothing when there is no limit. Both arguments together
are a `ValueError`. -/
def limit (attempts : Option Nat) (tryIndefinitely : Bool) : Option (Option Nat) :=
  match attempts.getD 0, tryIndefinitely with
  | 0, true => some none
  | 0, false => some (some 5)
  | _ + 1, true => none
  | n + 1, false => some (some (n + 1))

section Sending

variable (replies : Nat → Reply)

/-- `requests.request`. -/
def request : Prog Line Exn Reply := fun s =>
  (.value (replies s.sent), { s with sent := s.sent + 1 })

/-- `_send_request`. -/
def sendRequest : Prog Line Exn Nat := do
  match ← request replies with
  | .requestException => Prog.raise .requestRetryError
  | .other => Prog.raise .other
  | .status code =>
    if 500 ≤ code then Prog.raise .requestRetryError
    else if code = 408 then Prog.raise .requestRetryError
    else if 400 ≤ code then Prog.raise .requestError
    else pure code

/-- A round of `_send_request_repeatedly`, with the variables `i` and `sleep`. -/
def attempt (attempts : Option Nat) (vars : Nat × Nat) :
    Prog Line Exn ((Nat × Nat) ⊕ Nat) := do
  let i := vars.1 + 1
  if attempts.any fun n => n < i then Prog.raise .requestError
  else
    Prog.handle (do return .inr (← sendRequest replies)) fun e =>
      if e = .requestRetryError then do
        Prog.change fun s => { s with slept := s.slept + vars.2 }
        return .inl (i, vars.2 + sleepIncrementTime)
      else Prog.raise e

/-- `_send_request_repeatedly`. -/
def sendRequestRepeatedly (attempts : Option Nat) (rounds : Nat) : Prog Line Exn Nat :=
  Prog.forever (attempt replies attempts) rounds (0, sleepIncrementTime)

end Sending

/-! ## What is sent -/

namespace Reply

/-- The request is repeated after this answer. -/
def retried : Reply → Bool
  | status code => decide (500 ≤ code ∨ code = 408)
  | requestException => true
  | other => false

/-- How a request ends with an answer after which it is not repeated. -/
def conclusion : Reply → Finish Exn Nat
  | status code => if code < 400 then .value code else .raised .requestError
  | requestException => .raised .requestRetryError
  | other => .raised .other

end Reply

section Sending

variable {replies : Nat → Reply} {attempts : Option Nat} {s : Line} {i sleep : Nat}

/-- A request raises `RequestRetryError` when its answer is to be repeated, and ends with the answer
otherwise; it is counted in any case. -/
theorem sendRequest_eq (s : Line) : sendRequest replies s =
    (if (replies s.sent).retried then .raised .requestRetryError
      else (replies s.sent).conclusion, { s with sent := s.sent + 1 }) := by
  change (match replies s.sent with
    | .requestException => Prog.raise .requestRetryError
    | .other => Prog.raise .other
    | .status code =>
      if 500 ≤ code then Prog.raise .requestRetryError
      else if code = 408 then Prog.raise .requestRetryError
      else if 400 ≤ code then Prog.raise .requestError
      else pure code : Prog Line Exn Nat) { s with sent := s.sent + 1 } = _
  cases replies s.sent with
  | requestException => rfl
  | other => rfl
  | status code =>
    by_cases server : 500 ≤ code
    · simp [Reply.retried, server, Prog.raise]
    · by_cases timeout : code = 408
      · simp [Reply.retried, timeout, Prog.raise]
      · by_cases client : 400 ≤ code
        · have failed : ¬ code < 400 := by omega
          simp [Reply.retried, Reply.conclusion, server, timeout, client, failed, Prog.raise]
        · have answered : code < 400 := by omega
          simp only [Reply.retried, Reply.conclusion, server, timeout, client, answered, or_self,
            decide_false, Bool.false_eq_true, if_true, if_false]
          rfl

/-- A round in which no attempt is left. -/
theorem attempt_used {n : Nat} (given : attempts = some n) (used : n ≤ i) :
    attempt replies attempts (i, sleep) s = (.raised .requestError, s) := by
  have exceeded : attempts.any (fun n => n < i + 1) = true := by
    rw [given]
    exact decide_eq_true (Nat.lt_succ_of_le used)
  simp only [attempt, exceeded, if_true]
  rfl

/-- A round with an attempt left sends the request, and sleeps when it is to be repeated. -/
theorem attempt_left (left : ∀ n ∈ attempts, i < n) :
    attempt replies attempts (i, sleep) s =
      if (replies s.sent).retried then
        (.value (.inl (i + 1, sleep + sleepIncrementTime)), ⟨s.sent + 1, s.slept + sleep⟩)
      else match (replies s.sent).conclusion with
        | .value code => (.value (.inr code), ⟨s.sent + 1, s.slept⟩)
        | .raised e => (.raised e, ⟨s.sent + 1, s.slept⟩)
        | .killed => (.killed, ⟨s.sent + 1, s.slept⟩) := by
  have within : attempts.any (fun n => n < i + 1) = false := by
    cases given : attempts with
    | none => rfl
    | some n =>
      have lt := left n given
      exact decide_eq_false (by omega)
  have sent : sendRequest replies s = _ := sendRequest_eq s
  simp only [attempt, within, Bool.false_eq_true, if_false, Prog.handle, bind, Prog.bind, sent]
  cases answer : replies s.sent with
  | requestException => rfl
  | other => rfl
  | status code =>
    by_cases retried : 500 ≤ code ∨ code = 408
    · simp only [Reply.retried, retried, decide_true, if_true]
      rfl
    · simp only [Reply.retried, Reply.conclusion, retried, decide_false, Bool.false_eq_true,
        if_false]
      by_cases answered : code < 400
      · simp only [answered, if_true]
        rfl
      · simp only [answered, if_false]
        rfl

/-- The seconds that are slept for so many answers after which a request is repeated. -/
def pauses : Nat → Nat
  | 0 => 0
  | k + 1 => pauses k + sleepIncrementTime * (k + 1)

/-- How a request is repeated: `k` answers say nothing about it, and then there is an answer that
does, or no attempt is left, or the process has ended. -/
structure Repeated (replies : Nat → Reply) (attempts : Option Nat) (rounds : Nat) (s : Line)
    (ending : Finish Exn Nat) (t : Line) (k : Nat) : Prop where
  /-- The request is repeated after each of them. -/
  retried : ∀ j < k, (replies (s.sent + j)).retried = true
  /-- There are no more than permitted. -/
  permitted : ∀ n ∈ attempts, k ≤ n
  /-- What was slept. -/
  slept : t.slept = s.slept + pauses k
  /-- How it ends. -/
  ends : (attempts = some k ∧ ending = .raised .requestError ∧ t.sent = s.sent + k) ∨
    ((∀ n ∈ attempts, k < n) ∧ (replies (s.sent + k)).retried = false ∧
      ending = (replies (s.sent + k)).conclusion ∧ t.sent = s.sent + k + 1) ∨
    (k = rounds ∧ ending = .killed ∧ t.sent = s.sent + k)

/-- From any round on, the request is repeated as long as the answers say nothing about it. -/
theorem rounds_repeated (rounds base sent : Nat) (begun : ∀ n ∈ attempts, i ≤ n)
    (before : ∀ j < i, (replies (sent + j)).retried = true) :
    ∃ k, Repeated replies attempts (i + rounds) ⟨sent, base⟩
      (Prog.forever (attempt replies attempts) rounds (i, sleepIncrementTime * (i + 1))
        ⟨sent + i, base + pauses i⟩).1
      (Prog.forever (attempt replies attempts) rounds (i, sleepIncrementTime * (i + 1))
        ⟨sent + i, base + pauses i⟩).2 k := by
  induction rounds generalizing i with
  | zero => exact ⟨i, before, begun, rfl, Or.inr (Or.inr ⟨rfl, rfl, rfl⟩)⟩
  | succ rounds ih =>
    rw [Prog.forever_succ]
    by_cases used : attempts = some i
    · rw [attempt_used used le_rfl]
      exact ⟨i, before, begun, rfl, Or.inl ⟨used, rfl, rfl⟩⟩
    · have left : ∀ n ∈ attempts, i < n := by
        intro n given
        have le := begun n given
        have ne : n ≠ i := fun same => used (same ▸ given)
        omega
      rw [attempt_left left]
      by_cases again : (replies (sent + i)).retried = true
      · have further : ∀ j < i + 1, (replies (sent + j)).retried = true := by
          intro j lt
          rcases Nat.lt_succ_iff_lt_or_eq.mp lt with lt | rfl
          · exact before j lt
          · exact again
        have onward := ih left further
        have round : i + (rounds + 1) = i + 1 + rounds := by omega
        have slept : base + pauses i + sleepIncrementTime * (i + 1) = base + pauses (i + 1) :=
          Nat.add_assoc _ _ _
        rw [if_pos again, round]
        dsimp only
        rw [slept]
        exact onward
      · have decided : (replies (sent + i)).retried = false := by
          simpa using again
        rw [if_neg again]
        refine ⟨i, before, begun, ?_, Or.inr (Or.inl ⟨left, decided, ?_, ?_⟩)⟩
        all_goals cases (replies (sent + i)).conclusion <;> rfl

/-- A request is repeated as long as the answers say nothing about it. -/
theorem request_repeated (replies : Nat → Reply) (attempts : Option Nat) (rounds : Nat) (s : Line) :
    ∃ k, Repeated replies attempts rounds s
      (sendRequestRepeatedly replies attempts rounds s).1
      (sendRequestRepeatedly replies attempts rounds s).2 k := by
  have untried : ∀ j < 0, (replies (s.sent + j)).retried = true :=
    fun j lt => absurd lt (Nat.not_lt_zero j)
  have begun : ∀ n ∈ attempts, 0 ≤ n := fun n _ => Nat.zero_le n
  have repeated := rounds_repeated rounds s.slept s.sent begun untried
  rw [Nat.zero_add] at repeated
  exact repeated

end Sending

end Copr.SafeRequest
