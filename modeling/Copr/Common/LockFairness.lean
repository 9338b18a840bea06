import Copr.Common.Lock

/-!
# Mutual exclusion and fairness of the Redis queue lock

A waiter first probes the PID at the head and then, in a separate command, removes one
entry bearing that PID. When the PID is taken by a new process in between, the entry
removed may stand for a live process. Two schedules below show what this costs. In
every run in which no such removal hits a process that holds a place, the lock is the
queue of names of `Copr.FifoLock` and has both properties.
-/

namespace Copr.Lock

open Copr.Runs

/-- At most one running process is inside the guarded section. -/
def MutuallyExclusive (s : State) : Prop :=
  ∀ p q, s.inside p = true → s.inside q = true → p = q

/-- The running processes that come inside by a step hold the earliest ticket of all
places: whoever pushed earlier is dead or has removed its entry in its `finally` block. -/
def EntersInOrder (s t : State) : Prop :=
  ∀ p k, s.inside p = false → t.inside p = true → s.place p = some k →
    ∀ q l, s.place q = some l → k ≤ l

/-- A live process that holds a place is in the queue exactly once. -/
def PlacedOnce (s : State) : Prop :=
  ∀ p k, s.place p = some k → s.queue.count p = 1

/-- No PID is given out while an entry with that PID is queued. -/
def spawnsUnqueued (s : State) : Event → Bool
  | .spawn p => !s.queue.contains p
  | _ => true

/-- The PID of an entry removed as dead is not the PID of a process inside the section. -/
def evictsNoHolder (s : State) : Event → Bool
  | .command p =>
    match s.pcOf p with
    | some (.evicting head) => !s.inside head
    | _ => true
  | _ => true

/-- The PID of an entry removed as dead is not the PID of a process that holds a place. -/
def evictsNoPlace (s : State) : Event → Bool
  | .command p =>
    match s.pcOf p with
    | some (.evicting head) => (s.place head).isNone
    | _ => true
  | _ => true

/-! ## The queue of names behind the lock -/

/-- Being inside is a phase of the name. -/
theorem inside_iff_phase (s : State) (p : Pid) :
    s.inside p = true ↔ ∃ ticket, (view s).phase p = .inside ticket := by
  rcases entry : s.procs p with _ | ⟨pc, ticket⟩ | _
  · simp [State.inside, State.pcOf, view, phaseOf, entry]
  · cases pc <;> simp [State.inside, State.pcOf, view, phaseOf, entry, Pc.holdsPlace, Pc.inTry]
  · simp [State.inside, State.pcOf, view, phaseOf, entry]

/-- The places are the tickets of the names. -/
theorem place_eq_ticket (s : State) (p : Pid) : s.place p = (view s).ticket? p := by
  rcases entry : s.procs p with _ | ⟨pc, ticket⟩ | _
  · simp [State.place, FifoLock.State.ticket?, view, phaseOf, entry, FifoLock.Phase.ticket?]
  · cases pc <;> simp [State.place, FifoLock.State.ticket?, view, phaseOf, entry,
      FifoLock.Phase.ticket?, Pc.holdsPlace, Pc.inTry]
  · simp [State.place, FifoLock.State.ticket?, view, phaseOf, entry, FifoLock.Phase.ticket?]

/-- An event that amounts to an eviction is the removal of a head found dead. -/
theorem label_evict {s : State} {e : Event} {head : Pid}
    (labelled : label s e = some (.evict head)) :
    ∃ p, e = .command p ∧ s.pcOf p = some (.evicting head) := by
  cases e with
  | command p =>
    rcases at_ : s.pcOf p with _ | pc
    · simp [label, at_] at labelled
    · cases pc with
      | evicting other =>
        simp only [label, at_, Option.some.injEq, FifoLock.Event.evict.injEq] at labelled
        exact ⟨p, rfl, labelled ▸ at_⟩
      | looking =>
        simp only [label, at_] at labelled
        split at labelled <;> simp at labelled
      | _ => simp [label, at_] at labelled
  | unwind p =>
    simp only [label] at labelled
    split at labelled <;> simp at labelled
  | _ => simp [label] at labelled

/-- An event that amounts to a new owner of a name is a new process. -/
theorem label_spawn {s : State} {e : Event} {p : Pid} (labelled : label s e = some (.spawn p)) :
    e = .spawn p := by
  cases e with
  | spawn q => simpa [label] using labelled
  | command q =>
    simp only [label] at labelled
    split at labelled <;> try simp at labelled
    split at labelled <;> simp at labelled
  | unwind q =>
    simp only [label] at labelled
    split at labelled <;> simp at labelled
  | _ => simp [label] at labelled

/-- A removal that spares the process inside is a lock event that spares the holder. -/
theorem sparesHolder_of_label {s : State} {e : Event} {d : FifoLock.Event Pid}
    (labelled : label s e = some d) (spared : evictsNoHolder s e = true) :
    FifoLock.SparesHolder (view s) d := by
  rintro head ticket rfl inside
  obtain ⟨p, rfl, evicting⟩ := label_evict labelled
  have held := (inside_iff_phase s head).mpr ⟨ticket, inside⟩
  simp [evictsNoHolder, evicting, held] at spared

/-- A removal that spares the places is a lock event that spares them. -/
theorem sparesPlaces_of_label {s : State} {e : Event} {d : FifoLock.Event Pid}
    (labelled : label s e = some d) (spared : evictsNoPlace s e = true) :
    FifoLock.SparesPlaces (view s) d := by
  rintro head rfl
  obtain ⟨p, rfl, evicting⟩ := label_evict labelled
  rw [← place_eq_ticket]
  simpa [evictsNoPlace, evicting] using spared

/-- A PID given out while unqueued is a fresh name. -/
theorem freshNames_of_label {s : State} {e : Event} {d : FifoLock.Event Pid}
    (labelled : label s e = some d) (unqueued : spawnsUnqueued s e = true) :
    FifoLock.FreshNames (view s) d := by
  rintro p rfl
  obtain rfl := label_spawn labelled
  simpa [spawnsUnqueued, view] using unqueued

/-- Every event that spares the holder keeps the holder at the head. -/
theorem step_holderFirst {s t : State} {e : Event} (first : FifoLock.HolderFirst (view s))
    (spared : evictsNoHolder s e = true) (stepped : step s e = some t) :
    FifoLock.HolderFirst (view t) := by
  have shown := step_label stepped
  cases labelled : label s e with
  | none =>
    simp only [labelled] at shown
    exact shown ▸ first
  | some d =>
    simp only [labelled] at shown
    exact FifoLock.step_holderFirst first (sparesHolder_of_label labelled spared) shown

/-- Every event that spares the places, with unqueued new PIDs, keeps them in order. -/
theorem step_ordered {s t : State} {e : Event} (ordered : FifoLock.Ordered (view s))
    (unqueued : spawnsUnqueued s e = true) (spared : evictsNoPlace s e = true)
    (stepped : step s e = some t) : FifoLock.Ordered (view t) := by
  have shown := step_label stepped
  cases labelled : label s e with
  | none =>
    simp only [labelled] at shown
    exact shown ▸ ordered
  | some d =>
    simp only [labelled] at shown
    exact FifoLock.step_ordered ordered (sparesPlaces_of_label labelled spared)
      (freshNames_of_label labelled unqueued) shown

/-- A process that comes inside by a step was the head of the queue. -/
theorem step_enters {s t : State} {e : Event} {p : Pid} (stepped : step s e = some t)
    (outside : s.inside p = false) (entered : t.inside p = true) : s.queue.head? = some p := by
  have before : ∀ k, (view s).phase p ≠ .inside k := by
    intro k inside
    have held := (inside_iff_phase s p).mpr ⟨k, inside⟩
    simp [held] at outside
  obtain ⟨ticket, after⟩ := (inside_iff_phase t p).mp entered
  have shown := step_label stepped
  cases labelled : label s e with
  | none =>
    simp only [labelled] at shown
    exact absurd (shown ▸ after) (before ticket)
  | some d =>
    simp only [labelled] at shown
    exact FifoLock.step_enters shown before after

/-! ## Mutual exclusion -/

/-- In every run in which no removal of a dead head hits the PID of the process inside, at
most one process is inside. -/
theorem lock_mutually_exclusive {s : State}
    (run : Run step (fun s e => evictsNoHolder s e = true) initial s) : MutuallyExclusive s := by
  have first : FifoLock.HolderFirst (view s) :=
    run_invariant (fun s => FifoLock.HolderFirst (view s))
      (fun s e t first spared stepped => step_holderFirst first spared stepped) run
      (fun p ticket inside => by simp [view, initial, phaseOf] at inside)
  intro p q hp hq
  obtain ⟨k, hk⟩ := (inside_iff_phase s p).mp hp
  obtain ⟨l, hl⟩ := (inside_iff_phase s q).mp hq
  exact first.exclusive p q k l hk hl

/-- A waiter that finds the holder dead removes its entry and gets the lock alone. -/
theorem lock_mutually_exclusive_takeover :
    ∃ s, s.inside 2 = true ∧ MutuallyExclusive s := by
  obtain ⟨s, run, inside⟩ := exec_observe step evictsNoHolder initial
    [.spawn 1, .call 1, .command 1, .command 1, .spawn 2, .call 2, .command 2, .die 1, .reap 1,
      .command 2, .command 2, .command 2, .command 2] (fun s => s.inside 2) true rfl
  exact ⟨s, inside, lock_mutually_exclusive run⟩

/-- The schedule that lets two processes in: PID 2 dies in the queue, waiter 1 probes it,
and a new process gets PID 2 and finds the old entry at the head before waiter 1 removes
that entry. -/
def reusedHeadSchedule : List Event :=
  [.spawn 2, .call 2, .command 2, .spawn 1, .call 1, .command 1, .die 2, .reap 2,
    .command 1, .command 1, .spawn 2, .call 2, .command 2, .command 2, .command 1, .command 1]

/-- With a PID reused at the wrong moment two live processes are inside. -/
theorem lock_reused_pid_two_inside : ¬ ∀ s, Run step anyEvent initial s → MutuallyExclusive s := by
  intro claimed
  obtain ⟨s, run, seen⟩ := exec_observe step (fun _ _ => true) initial reusedHeadSchedule
    (fun s => (s.inside 1, s.inside 2)) (true, true) rfl
  simp only [Prod.mk.injEq] at seen
  have same := claimed s (run_weaken (fun _ _ _ => trivial) run) 1 2 seen.1 seen.2
  contradiction

/-! ## Fairness -/

/-- In every run in which no PID is given out while queued and no removal of a dead head
hits a process that holds a place, who holds a place is in the queue exactly once and
processes come inside in the order of their pushes. -/
theorem lock_first_come_first_served {s : State}
    (run : Run step (fun s e => spawnsUnqueued s e = true ∧ evictsNoPlace s e = true) initial s) :
    PlacedOnce s ∧ ∀ e t, step s e = some t → EntersInOrder s t := by
  have ordered : FifoLock.Ordered (view s) :=
    run_invariant (fun s => FifoLock.Ordered (view s))
      (fun s e t ordered admitted stepped =>
        step_ordered ordered admitted.1 admitted.2 stepped) run
      (FifoLock.ordered_empty rfl fun p => rfl)
  constructor
  · intro p k place
    exact ordered.count_one (place_eq_ticket s p ▸ place)
  · intro e t stepped p k outside entered place q l other
    have head := step_enters stepped outside entered
    rw [place_eq_ticket] at place other
    by_cases same : q = p
    · subst same
      exact Nat.le_of_eq (Option.some.inj (place.symm.trans other))
    · exact Nat.le_of_lt (ordered.head_first head place other same)

/-- Two processes wait for a third, which leaves; the first of them to push comes inside. -/
theorem lock_first_come_first_served_handover :
    ∃ s t, t.inside 2 = true ∧ PlacedOnce s ∧ EntersInOrder s t := by
  obtain ⟨s, run, stepped⟩ := exec_observe step
    (fun s e => spawnsUnqueued s e && evictsNoPlace s e) initial
    [.spawn 1, .call 1, .command 1, .command 1, .spawn 2, .call 2, .command 2, .spawn 3, .call 3,
      .command 3, .unwind 1, .command 1]
    (fun s => (step s (.command 2)).map fun t => t.inside 2) (some true) rfl
  obtain ⟨t, next, inside⟩ := Option.map_eq_some_iff.mp stepped
  have fair := lock_first_come_first_served (run_weaken (fun s e admitted => by
    simpa using admitted) run)
  exact ⟨s, t, inside, fair.1, fair.2 _ t next⟩

/-- The schedule that loses a place: waiters 1 and 2 both probe the dead PID 9, waiter 2
removes its entry, a new process gets PID 9 and pushes, and waiter 1 removes that entry. -/
def lostPlaceSchedule : List Event :=
  [.spawn 9, .call 9, .command 9, .spawn 2, .call 2, .command 2, .spawn 1, .call 1, .command 1,
    .die 9, .reap 9, .command 1, .command 1, .command 2, .command 2, .command 2,
    .spawn 9, .call 9, .command 9, .command 1]

/-- From there a later process comes first to the head of the queue. -/
def overtakeSchedule : List Event :=
  lostPlaceSchedule ++ [.spawn 3, .call 3, .command 3, .command 2, .unwind 2, .command 2,
    .command 1, .unwind 1, .command 1]

/-- Although no PID is given out while queued, a live waiter loses its entry and a process
that pushed later comes inside before it. -/
theorem lock_late_eviction_unfair :
    (¬ ∀ s, Run step (fun s e => spawnsUnqueued s e = true) initial s → PlacedOnce s) ∧
    ¬ ∀ s e t, Run step (fun s e => spawnsUnqueued s e = true) initial s →
      spawnsUnqueued s e = true → step s e = some t → EntersInOrder s t := by
  constructor
  · intro claimed
    obtain ⟨s, run, seen⟩ := exec_observe step spawnsUnqueued initial lostPlaceSchedule
      (fun s => (s.place 9, s.queue.count 9)) (some 3, 0) rfl
    simp only [Prod.mk.injEq] at seen
    have once := claimed s run 9 3 seen.1
    omega
  · intro claimed
    obtain ⟨s, run, seen⟩ := exec_observe step spawnsUnqueued initial overtakeSchedule
      (fun s => (s.inside 3, s.place 3, s.place 9,
        (step s (.command 3)).map fun t => t.inside 3))
      (false, some 4, some 3, some true) rfl
    simp only [Prod.mk.injEq] at seen
    obtain ⟨outside, late, early, stepped⟩ := seen
    obtain ⟨t, next, inside⟩ := Option.map_eq_some_iff.mp stepped
    have order := claimed s _ t run rfl next 3 4 outside inside late 9 3 early
    omega

end Copr.Lock
