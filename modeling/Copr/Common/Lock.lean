import Mathlib.Logic.Function.Basic
import Mathlib.Data.List.Basic
import Copr.Lib.FifoLock

/-!
# The Redis queue lock

`Lock.lock` of `copr_common/lock.py`, one Redis command or `kill(pid, 0)` probe at a
time. The queue of one path is a list of PIDs, so an entry names its owner by PID
only. A process is identified by its PID while it exists: the kernel gives no PID to
two processes at once, but it may give the PID of a reaped process to a new one.
Other paths use other keys and are not part of the state.
-/

namespace Copr.Lock

/-- A process identifier; the queue stores its decimal text, which determines it. -/
abbrev Pid := Nat

/-- Where a process stands in `Lock.lock`: the name of the command it runs next. -/
inductive Pc
  /-- Not in the call. -/
  | outside
  /-- `redis_conn.rpush(queue, my_pid_str)` before the `try`. -/
  | enqueueing
  /-- `head = redis_conn.lindex(queue, 0)` at the top of the loop. -/
  | looking
  /-- The list was empty: push the own entry once more. -/
  | requeueing
  /-- `_is_alive(head_pid)` of a foreign head. -/
  | probing (head : Pid)
  /-- `redis_conn.lrem(queue, 1, head)` of a head found dead. -/
  | evicting (head : Pid)
  /-- `redis_conn.blpop(notify, timeout=BLPOP_TIMEOUT)`. -/
  | waiting
  /-- At the `yield`: the guarded section. -/
  | inside
  /-- First command of the `finally` block, `redis_conn.lrem(queue, 1, my_pid_str)`. -/
  | releasing
  /-- `next_pid = redis_conn.lindex(queue, 0)`. -/
  | peeking
  /-- `redis_conn.rpush(nk, "1")`. -/
  | notifying (next : Pid)
  /-- `redis_conn.expire(nk, NOTIFY_TTL)`. -/
  | expiring (next : Pid)
  /-- `redis_conn.delete(notify)`, the last command of the call. -/
  | clearing
  deriving DecidableEq, Repr

/-- The `try` block: an exception or a signal here runs the `finally` block. -/
def Pc.inTry : Pc → Bool
  | .looking | .requeueing | .probing _ | .evicting _ | .waiting | .inside => true
  | _ => false

/-- The process has pushed its entry and has not removed it by the `lrem` of its own
`finally` block. -/
def Pc.holdsPlace (pc : Pc) : Bool := pc.inTry || pc == .releasing

/-- A process of the kernel's table. A terminated process keeps its PID as a zombie until
it is reaped. -/
inductive Proc
  /-- Running, with the number of the `rpush` that opened its current call. The number is
  history: no command reads it. -/
  | running (pc : Pc) (ticket : Nat)
  /-- Terminated and not reaped. -/
  | zombie
  deriving DecidableEq, Repr

/-- The keys of one path and the process table. -/
structure State where
  /-- `copr:lock:queue:<path>`, head first. -/
  queue : List Pid
  /-- Elements in `copr:lock:notify:<path>:<pid>`. -/
  notify : Pid → Nat
  /-- The existing process of a PID. -/
  procs : Pid → Option Proc
  /-- Calls of `lock` that have pushed so far (history). -/
  pushes : Nat

/-- No key and no process exists. -/
def initial : State := ⟨[], fun _ => 0, fun _ => none, 0⟩

namespace State

/-- Replace the table entry of one PID. -/
def put (s : State) (p : Pid) (proc : Option Proc) : State :=
  { s with procs := Function.update s.procs p proc }

/-- Where the running process of a PID stands. -/
def pcOf (s : State) (p : Pid) : Option Pc :=
  match s.procs p with
  | some (.running pc _) => some pc
  | _ => none

/-- The running process of a PID is inside the guarded section. -/
def inside (s : State) (p : Pid) : Bool := s.pcOf p == some .inside

/-- The ticket of a running process that still holds its place in the lock. -/
def place (s : State) (p : Pid) : Option Nat :=
  match s.procs p with
  | some (.running pc ticket) => if pc.holdsPlace then some ticket else none
  | _ => none

/-- `_is_alive`: signal 0 reaches every existing process, zombies included. -/
def isAlive (s : State) (p : Pid) : Bool := (s.procs p).isSome

/-- The branch taken after `lindex(queue, 0)`. -/
def afterLook (s : State) (p : Pid) : Pc :=
  match s.queue.head? with
  | none => .requeueing
  | some head => if head = p then .inside else .probing head

/-- One command of the running process `p`, whose call holds `ticket`, at `pc`. -/
def command (s : State) (p : Pid) (ticket : Nat) : Pc → Option State
  | .outside => none
  | .enqueueing => some ({ s with queue := s.queue ++ [p], pushes := s.pushes + 1 }.put p
      (some (.running .looking s.pushes)))
  | .looking => some (s.put p (some (.running (s.afterLook p) ticket)))
  | .requeueing =>
      some ({ s with queue := s.queue ++ [p] }.put p (some (.running .looking ticket)))
  | .probing head =>
      some (s.put p (some (.running (if s.isAlive head then .waiting else .evicting head) ticket)))
  | .evicting head =>
      some ({ s with queue := s.queue.erase head }.put p (some (.running .looking ticket)))
  | .waiting =>
      -- A notification is consumed when there is one; otherwise the wait timed out.
      some ({ s with notify := Function.update s.notify p (s.notify p - 1) }.put p
        (some (.running .looking ticket)))
  | .inside => none
  | .releasing =>
      some ({ s with queue := s.queue.erase p }.put p (some (.running .peeking ticket)))
  | .peeking =>
      match s.queue.head? with
      | none => some (s.put p (some (.running .clearing ticket)))
      | some next => some (s.put p (some (.running (.notifying next) ticket)))
  | .notifying next =>
      some ({ s with notify := Function.update s.notify next (s.notify next + 1) }.put p
        (some (.running (.expiring next) ticket)))
  | .expiring _ => some (s.put p (some (.running .clearing ticket)))
  | .clearing =>
      some ({ s with notify := Function.update s.notify p 0 }.put p
        (some (.running .outside ticket)))

end State

/-- What may happen next, in any order. -/
inductive Event
  /-- A new process gets a PID that no existing process has. -/
  | spawn (p : Pid)
  /-- A process enters `Lock.lock`. -/
  | call (p : Pid)
  /-- A process runs its next command. -/
  | command (p : Pid)
  /-- The guarded section ends, or an exception or a signal leaves the `try` block. -/
  | unwind (p : Pid)
  /-- A process terminates at whatever point it has reached. -/
  | die (p : Pid)
  /-- A terminated process is reaped and its PID becomes free. -/
  | reap (p : Pid)
  /-- The notify key of a PID reaches its time to live. -/
  | expire (p : Pid)
  deriving DecidableEq, Repr

/-- The state after an event; `none` when the event cannot happen. -/
def step (s : State) : Event → Option State
  | .spawn p => if s.procs p = none then some (s.put p (some (.running .outside 0))) else none
  | .call p =>
    match s.procs p with
    | some (.running .outside ticket) => some (s.put p (some (.running .enqueueing ticket)))
    | _ => none
  | .command p =>
    match s.procs p with
    | some (.running pc ticket) => s.command p ticket pc
    | _ => none
  | .unwind p =>
    match s.procs p with
    | some (.running pc ticket) =>
      if pc.inTry then some (s.put p (some (.running .releasing ticket))) else none
    | _ => none
  | .die p =>
    match s.procs p with
    | some (.running _ _) => some (s.put p (some .zombie))
    | _ => none
  | .reap p => if s.procs p = some .zombie then some (s.put p none) else none
  | .expire p => some { s with notify := Function.update s.notify p 0 }

/-! ## The lock as a queue of names

Seen from outside, a process is absent, idle or holds a place, and every event is at most
one event of the lock that is granted from the head of a queue of names. -/

/-- What a table entry amounts to for the lock. -/
def phaseOf : Option Proc → FifoLock.Phase
  | some (.running pc ticket) =>
    if pc = .inside then .inside ticket
    else if pc = .requeueing then .lost ticket
    else if pc.holdsPlace then .queued ticket
    else .idle
  | _ => .absent

/-- The queue of names that a state amounts to. -/
def view (s : State) : FifoLock.State Pid :=
  ⟨s.queue, fun p => phaseOf (s.procs p), s.pushes⟩

/-- The lock event that an event amounts to, if any. -/
def label (s : State) : Event → Option (FifoLock.Event Pid)
  | .spawn p => some (.spawn p)
  | .command p =>
    match s.pcOf p with
    | some .enqueueing => some (.join p)
    | some .looking =>
      match s.afterLook p with
      | .requeueing => some (.miss p)
      | .inside => some (.enter p)
      | _ => none
    | some .requeueing => some (.rejoin p)
    | some (.evicting head) => some (.evict head)
    | some .releasing => some (.leave p)
    | _ => none
  | .unwind p =>
    match s.pcOf p with
    | some .inside | some .requeueing => some (.retreat p)
    | _ => none
  | .die p => some (.vanish p)
  | _ => none

/-- A state change at one PID is a phase change of that name. -/
theorem view_put (s : State) (p : Pid) (proc : Option Proc) :
    view (s.put p proc) = (view s).set p (phaseOf proc) := by
  simp only [view, State.put, FifoLock.State.set, FifoLock.State.mk.injEq, true_and, and_true]
  funext q
  by_cases same : q = p <;> simp [same]

/-- A state change that keeps the phase of its PID is invisible. -/
theorem view_put_same {s : State} {p : Pid} {proc : Option Proc}
    (same : phaseOf proc = phaseOf (s.procs p)) : view (s.put p proc) = view s := by
  rw [view_put, same]
  simp [view, FifoLock.State.set]

/-- The phase of a name is read off the table. -/
theorem view_phase {s : State} {p : Pid} {proc : Option Proc} (entry : s.procs p = proc) :
    (view s).phase p = phaseOf proc := congrArg phaseOf entry

/-- One command is at most one lock event. -/
theorem command_label {s t : State} {p : Pid} {pc : Pc} {ticket : Nat}
    (entry : s.procs p = some (.running pc ticket)) (ran : s.command p ticket pc = some t) :
    match label s (.command p) with
    | none => view t = view s
    | some d => FifoLock.step (view s) d = some (view t) := by
  have pcOf : s.pcOf p = some pc := by simp [State.pcOf, entry]
  have phase := view_phase entry
  cases pc with
  | outside | inside => simp [State.command] at ran
  | enqueueing =>
    simp only [State.command, Option.some.injEq] at ran
    subst ran
    have idle : (view s).phase p = .idle := phase
    simp only [label, pcOf, FifoLock.step, idle, ↓reduceIte, Option.some.injEq]
    exact (congrArg (fun v => { v with pushes := s.pushes + 1 })
      (view_put { s with queue := s.queue ++ [p] } p (some (.running .looking s.pushes)))).symm
  | looking =>
    simp only [State.command, Option.some.injEq] at ran
    subst ran
    have queued : (view s).phase p = .queued ticket := phase
    simp only [label, pcOf]
    cases head : s.queue.head? with
    | none =>
      have branch : s.afterLook p = .requeueing := by simp [State.afterLook, head]
      have empty : (view s).queue = [] := List.head?_eq_none_iff.mp head
      simp only [branch, FifoLock.step, queued, empty, ↓reduceIte, view_put]
      rfl
    | some first =>
      by_cases own : first = p
      · subst own
        have branch : s.afterLook first = .inside := by simp [State.afterLook, head]
        have atHead : (view s).queue.head? = some first := head
        simp only [branch, FifoLock.step, queued, atHead, ↓reduceIte, view_put]
        rfl
      · have branch : s.afterLook p = .probing first := by simp [State.afterLook, head, own]
        simp only [branch]
        exact view_put_same (by rw [entry]; rfl)
  | requeueing =>
    simp only [State.command, Option.some.injEq] at ran
    subst ran
    have lost : (view s).phase p = .lost ticket := phase
    simp only [label, pcOf, FifoLock.step, lost, view_put]
    rfl
  | probing head =>
    simp only [State.command, Option.some.injEq] at ran
    subst ran
    simp only [label, pcOf]
    refine view_put_same ?_
    rw [entry]
    split <;> rfl
  | evicting head =>
    simp only [State.command, Option.some.injEq] at ran
    subst ran
    simp only [label, pcOf, FifoLock.step, Option.some.injEq]
    exact (view_put_same (s := { s with queue := s.queue.erase head })
      (by simp only [entry]; rfl)).symm
  | waiting =>
    simp only [State.command, Option.some.injEq] at ran
    subst ran
    simp only [label, pcOf]
    exact view_put_same (s := { s with notify := Function.update s.notify p (s.notify p - 1) })
      (by simp only [entry]; rfl)
  | releasing =>
    simp only [State.command, Option.some.injEq] at ran
    subst ran
    have queued : (view s).phase p = .queued ticket := phase
    simp only [label, pcOf, FifoLock.step, queued, view_put]
    rfl
  | peeking =>
    simp only [label, pcOf]
    simp only [State.command] at ran
    split at ran <;>
    · obtain rfl := Option.some.inj ran
      exact view_put_same (by rw [entry]; rfl)
  | notifying next =>
    simp only [State.command, Option.some.injEq] at ran
    subst ran
    simp only [label, pcOf]
    exact view_put_same
      (s := { s with notify := Function.update s.notify next (s.notify next + 1) })
      (by simp only [entry]; rfl)
  | expiring next =>
    simp only [State.command, Option.some.injEq] at ran
    subst ran
    simp only [label, pcOf]
    exact view_put_same (by rw [entry]; rfl)
  | clearing =>
    simp only [State.command, Option.some.injEq] at ran
    subst ran
    simp only [label, pcOf]
    exact view_put_same (s := { s with notify := Function.update s.notify p 0 })
      (by simp only [entry]; rfl)

/-- Every event is at most one lock event. -/
theorem step_label {s t : State} {e : Event} (stepped : step s e = some t) :
    match label s e with
    | none => view t = view s
    | some d => FifoLock.step (view s) d = some (view t) := by
  cases e with
  | spawn p =>
    simp only [step, Option.ite_none_right_eq_some, Option.some.injEq] at stepped
    obtain ⟨free, rfl⟩ := stepped
    simp only [label, FifoLock.step, view_phase free, view_put]
    rfl
  | call p =>
    simp only [step] at stepped
    split at stepped <;> simp only [Option.some.injEq, reduceCtorEq] at stepped
    rename_i ticket entry
    subst stepped
    exact view_put_same (by rw [entry]; rfl)
  | command p =>
    simp only [step] at stepped
    split at stepped
    · rename_i pc ticket entry
      exact command_label entry stepped
    · contradiction
  | unwind p =>
    simp only [step] at stepped
    split at stepped <;> simp only [Option.ite_none_right_eq_some, Option.some.injEq,
      reduceCtorEq] at stepped
    rename_i pc ticket entry
    obtain ⟨inTry, rfl⟩ := stepped
    have phase := view_phase entry
    have pcOf : s.pcOf p = some pc := by simp [State.pcOf, entry]
    simp only [label, pcOf]
    cases pc with
    | inside =>
      have inside : (view s).phase p = .inside ticket := phase
      simp only [FifoLock.step, inside, view_put]
      rfl
    | requeueing =>
      have lost : (view s).phase p = .lost ticket := phase
      simp only [FifoLock.step, lost, view_put]
      rfl
    | looking | probing | evicting | waiting => exact view_put_same (by rw [entry]; rfl)
    | outside | enqueueing | releasing | peeking | notifying | expiring | clearing =>
      contradiction
  | die p =>
    simp only [step] at stepped
    split at stepped <;> simp only [Option.some.injEq, reduceCtorEq] at stepped
    rename_i pc ticket entry
    subst stepped
    have present : (view s).phase p ≠ .absent := by
      rw [view_phase entry]
      simp only [phaseOf]
      split <;> [simp; (split <;> [simp; (split <;> simp)])]
    simp only [label, FifoLock.step, if_neg present, view_put]
    rfl
  | reap p =>
    simp only [step, Option.ite_none_right_eq_some, Option.some.injEq] at stepped
    obtain ⟨dead, rfl⟩ := stepped
    exact view_put_same (by rw [dead]; rfl)
  | expire p =>
    obtain rfl := Option.some.inj stepped
    rfl

end Copr.Lock
