import Mathlib.Data.List.Pairwise
import Mathlib.Data.List.Nodup
import Mathlib.Logic.Function.Basic
import Copr.Lib.Runs

/-!
# A lock granted from the head of a queue of names

The queue holds names, not processes: whoever owns a name is served when the name is
the head, entries are removed by name, and anybody may remove a name. Two conditions
on removals are enough for the two properties of a fair lock. If nobody removes the
name of the holder, the holder's name is the head, so there is one holder. If nobody
removes the name of a process that holds a place, and a name returns to use only when
no entry bears it, then every place is one entry and the entries stand in the order of
their tickets.
-/

namespace Copr.FifoLock

open Copr.Runs

/-- What the owner of a name is doing. -/
inductive Phase
  /-- The name has no live owner. -/
  | absent
  /-- The owner holds no place. -/
  | idle
  /-- The owner holds the place of its ticket. -/
  | queued (ticket : Nat)
  /-- The owner holds a place but has seen an empty queue. -/
  | lost (ticket : Nat)
  /-- The owner has been granted the lock. -/
  | inside (ticket : Nat)
  deriving DecidableEq, Repr

/-- The ticket of an owner that holds a place. -/
def Phase.ticket? : Phase → Option Nat
  | .queued ticket | .lost ticket | .inside ticket => some ticket
  | _ => none

variable {α : Type*} [DecidableEq α]

/-- The queue, the phase of every name and the number of tickets given out. -/
structure State (α : Type*) where
  /-- Entries, head first. -/
  queue : List α
  /-- Phase of the owner of each name. -/
  phase : α → Phase
  /-- The next ticket. -/
  pushes : Nat

namespace State

/-- Set the phase of one name. -/
def set (s : State α) (p : α) (phase : Phase) : State α :=
  { s with phase := Function.update s.phase p phase }

/-- Append an entry. -/
def push (s : State α) (p : α) : State α := { s with queue := s.queue ++ [p] }

/-- Remove the first entry of a name. -/
def drop (s : State α) (p : α) : State α := { s with queue := s.queue.erase p }

/-- The ticket under which a name holds a place. -/
def ticket? (s : State α) (p : α) : Option Nat := (s.phase p).ticket?

omit [DecidableEq α] in
/-- The ticket of a name is a function of its phase. -/
theorem ticket?_of_phase {s : State α} {p : α} {phase : Phase} (h : s.phase p = phase) :
    s.ticket? p = phase.ticket? := congrArg Phase.ticket? h

/-- Setting a phase is seen at that name only. -/
theorem phase_set (s : State α) (p q : α) (phase : Phase) :
    (s.set p phase).phase q = if q = p then phase else s.phase q := by
  simp [set, Function.update_apply]

/-- Setting a phase sets the ticket of that name only. -/
theorem ticket?_set (s : State α) (p q : α) (phase : Phase) :
    (s.set p phase).ticket? q = if q = p then phase.ticket? else s.ticket? q := by
  unfold ticket?
  rw [phase_set]
  split <;> rfl

end State

/-- What may happen to the lock. -/
inductive Event (α : Type*)
  /-- A name gets a live owner. -/
  | spawn (p : α)
  /-- An idle owner takes a ticket and appends its entry. -/
  | join (p : α)
  /-- A queued owner sees an empty queue. -/
  | miss (p : α)
  /-- The owner that saw an empty queue appends its entry again. -/
  | rejoin (p : α)
  /-- A queued owner sees its own name at the head. -/
  | enter (p : α)
  /-- An owner gives up waiting, or what it was granted, and keeps its entry for now. -/
  | retreat (p : α)
  /-- A queued owner removes an entry of its name and holds no place any more. -/
  | leave (p : α)
  /-- Somebody removes an entry of another name. -/
  | evict (p : α)
  /-- The owner of a name ceases to exist; its entries stay. -/
  | vanish (p : α)

/-- The state after an event; `none` when the event cannot happen. -/
def step (s : State α) : Event α → Option (State α)
  | .spawn p => if s.phase p = .absent then some (s.set p .idle) else none
  | .join p =>
    if s.phase p = .idle then
      some { (s.push p).set p (.queued s.pushes) with pushes := s.pushes + 1 }
    else none
  | .miss p =>
    match s.phase p with
    | .queued ticket => if s.queue = [] then some (s.set p (.lost ticket)) else none
    | _ => none
  | .rejoin p =>
    match s.phase p with
    | .lost ticket => some ((s.push p).set p (.queued ticket))
    | _ => none
  | .enter p =>
    match s.phase p with
    | .queued ticket => if s.queue.head? = some p then some (s.set p (.inside ticket)) else none
    | _ => none
  | .retreat p =>
    match s.phase p with
    | .lost ticket | .inside ticket => some (s.set p (.queued ticket))
    | _ => none
  | .leave p =>
    match s.phase p with
    | .queued _ => some ((s.drop p).set p .idle)
    | _ => none
  | .evict p => some (s.drop p)
  | .vanish p => if s.phase p = .absent then none else some (s.set p .absent)

/-- Nobody removes an entry of a name whose owner is inside. -/
def SparesHolder (s : State α) (e : Event α) : Prop :=
  ∀ p ticket, e = .evict p → s.phase p ≠ .inside ticket

/-- Nobody removes an entry of a name whose owner holds a place. -/
def SparesPlaces (s : State α) (e : Event α) : Prop :=
  ∀ p, e = .evict p → s.ticket? p = none

/-- A name gets a new owner only when no entry bears it. -/
def FreshNames (s : State α) (e : Event α) : Prop :=
  ∀ p, e = .spawn p → p ∉ s.queue

/-! ## One holder -/

/-- Whoever is inside is the head of the queue. -/
def HolderFirst (s : State α) : Prop :=
  ∀ p ticket, s.phase p = .inside ticket → s.queue.head? = some p

/-- At most one owner is inside. -/
def Exclusive (s : State α) : Prop :=
  ∀ p q k l, s.phase p = .inside k → s.phase q = .inside l → p = q

omit [DecidableEq α] in
/-- The head of the queue is one name. -/
theorem HolderFirst.exclusive {s : State α} (first : HolderFirst s) : Exclusive s := by
  intro p q k l hp hq
  have heads := (first p k hp).symm.trans (first q l hq)
  exact Option.some.inj heads

/-- A phase other than `inside` adds no holder. -/
theorem HolderFirst.set {s : State α} (first : HolderFirst s) (p : α) {phase : Phase}
    (outside : ∀ ticket, phase ≠ .inside ticket) : HolderFirst (s.set p phase) := by
  intro q ticket hq
  rw [State.phase_set] at hq
  split at hq
  · exact absurd hq (outside ticket)
  · exact first q ticket hq

omit [DecidableEq α] in
/-- Appending an entry keeps a head. -/
theorem HolderFirst.push {s : State α} (first : HolderFirst s) (p : α) :
    HolderFirst (s.push p) := by
  intro q ticket hq
  have head := first q ticket hq
  simp [State.push, List.head?_append, head]

/-- Removing a name that is not inside keeps the head of a holder. -/
theorem HolderFirst.drop {s : State α} (first : HolderFirst s) (p : α)
    (spared : ∀ ticket, s.phase p ≠ .inside ticket) : HolderFirst (s.drop p) := by
  intro q ticket hq
  have head : s.queue.head? = some q := first q ticket hq
  have other : q ≠ p := fun same => spared ticket (same ▸ hq)
  obtain ⟨rest, queue⟩ := List.head?_eq_some_iff.mp head
  simp [State.drop, queue, other]

/-- Every event that spares the holder keeps the holder first. -/
theorem step_holderFirst {s t : State α} {e : Event α} (first : HolderFirst s)
    (spares : SparesHolder s e) (stepped : step s e = some t) : HolderFirst t := by
  cases e with
  | spawn p =>
    simp only [step, Option.ite_none_right_eq_some, Option.some.injEq] at stepped
    obtain ⟨-, rfl⟩ := stepped
    exact first.set p (by simp)
  | join p =>
    simp only [step, Option.ite_none_right_eq_some, Option.some.injEq] at stepped
    obtain ⟨-, rfl⟩ := stepped
    exact (first.push p).set p (by simp)
  | miss p =>
    simp only [step] at stepped
    split at stepped <;> simp only [Option.ite_none_right_eq_some, Option.some.injEq,
      reduceCtorEq] at stepped
    obtain ⟨-, rfl⟩ := stepped
    exact first.set p (by simp)
  | rejoin p =>
    simp only [step] at stepped
    split at stepped <;> simp only [Option.some.injEq, reduceCtorEq] at stepped
    subst stepped
    exact (first.push p).set p (by simp)
  | enter p =>
    simp only [step] at stepped
    split at stepped <;> simp only [Option.ite_none_right_eq_some, Option.some.injEq,
      reduceCtorEq] at stepped
    obtain ⟨head, rfl⟩ := stepped
    intro q ticket hq
    rw [State.phase_set] at hq
    split at hq
    · rename_i same
      exact same ▸ head
    · exact first q ticket hq
  | retreat p =>
    simp only [step] at stepped
    split at stepped <;> simp only [Option.some.injEq, reduceCtorEq] at stepped <;>
    · subst stepped
      exact first.set p (by simp)
  | leave p =>
    simp only [step] at stepped
    split at stepped <;> simp only [Option.some.injEq, reduceCtorEq] at stepped
    rename_i ticket queued
    subst stepped
    exact (first.drop p (by simp [queued])).set p (by simp)
  | evict p =>
    obtain rfl := Option.some.inj stepped
    exact first.drop p (fun ticket => spares p ticket rfl)
  | vanish p =>
    simp only [step, Option.ite_none_left_eq_some, Option.some.injEq] at stepped
    obtain ⟨-, rfl⟩ := stepped
    exact first.set p (by simp)

/-- Who comes to be inside was the head of the queue. -/
theorem step_enters {s t : State α} {e : Event α} {p : α} {ticket : Nat}
    (stepped : step s e = some t) (outside : ∀ k, s.phase p ≠ .inside k)
    (entered : t.phase p = .inside ticket) : s.queue.head? = some p := by
  -- Only `enter` sets the phase `inside`, and only for the name at the head.
  have unset : ∀ {u : State α} {q : α} {phase : Phase}, u.phase = s.phase →
      (∀ k, phase ≠ .inside k) → (u.set q phase).phase p = .inside ticket → False := by
    intro u q phase same other h
    rw [State.phase_set, same] at h
    split at h
    · exact other ticket h
    · exact outside ticket h
  cases e with
  | spawn q | join q | vanish q =>
    simp only [step, Option.ite_none_right_eq_some, Option.ite_none_left_eq_some,
      Option.some.injEq] at stepped
    obtain ⟨-, rfl⟩ := stepped
    exact (unset rfl (by simp) entered).elim
  | miss q | rejoin q | retreat q | leave q =>
    simp only [step] at stepped
    split at stepped <;> simp only [Option.ite_none_right_eq_some, Option.some.injEq,
      reduceCtorEq] at stepped
    all_goals
      first
      | subst stepped
        exact (unset rfl (by simp) entered).elim
      | obtain ⟨-, rfl⟩ := stepped
        exact (unset rfl (by simp) entered).elim
  | enter q =>
    simp only [step] at stepped
    split at stepped <;> simp only [Option.ite_none_right_eq_some, Option.some.injEq,
      reduceCtorEq] at stepped
    obtain ⟨head, rfl⟩ := stepped
    rw [State.phase_set] at entered
    split at entered
    · rename_i same
      exact same ▸ head
    · exact (outside ticket entered).elim
  | evict q =>
    obtain rfl := Option.some.inj stepped
    exact (outside ticket entered).elim

/-! ## Places in ticket order -/

/-- Every place is one entry, and entries stand in ticket order. -/
structure Ordered (s : State α) : Prop where
  /-- No name has two entries. -/
  nodup : s.queue.Nodup
  /-- Who holds a place has an entry. -/
  present : ∀ p ticket, s.ticket? p = some ticket → p ∈ s.queue
  /-- A live owner without a place has none. -/
  idle : ∀ p, s.phase p = .idle → p ∉ s.queue
  /-- Nobody who holds a place sees an empty queue. -/
  seen : ∀ p ticket, s.phase p ≠ .lost ticket
  /-- An earlier entry has the smaller ticket. -/
  sorted : s.queue.Pairwise fun p q => ∀ k l, s.ticket? p = some k → s.ticket? q = some l → k < l
  /-- Tickets are below the next one. -/
  below : ∀ p ticket, s.ticket? p = some ticket → ticket < s.pushes

omit [DecidableEq α] in
/-- Without owners and entries there is nothing to order. -/
theorem ordered_empty {s : State α} (queue : s.queue = []) (phases : ∀ p, s.phase p = .absent) :
    Ordered s where
  nodup := by simp [queue]
  present p ticket h := by simp [State.ticket?, phases, Phase.ticket?] at h
  idle p h := by simp [queue]
  seen p ticket h := by simp [phases] at h
  sorted := by simp [queue]
  below p ticket h := by simp [State.ticket?, phases, Phase.ticket?] at h

namespace Ordered

variable {s : State α}

/-- A new phase that keeps the ticket of a name, or takes it away, keeps the order. -/
theorem set (ordered : Ordered s) (p : α) (phase : Phase)
    (kept : ∀ ticket, phase.ticket? = some ticket → s.ticket? p = some ticket)
    (out : phase = .idle → p ∉ s.queue) (seen : ∀ ticket, phase ≠ .lost ticket) :
    Ordered (s.set p phase) := by
  have tickets : ∀ q ticket, (s.set p phase).ticket? q = some ticket →
      s.ticket? q = some ticket := by
    intro q ticket hq
    rw [State.ticket?_set] at hq
    split at hq
    · rename_i same
      exact same ▸ kept ticket hq
    · exact hq
  constructor
  · exact ordered.nodup
  · exact fun q ticket hq => ordered.present q ticket (tickets q ticket hq)
  · intro q hq
    rw [State.phase_set] at hq
    split at hq
    · rename_i same
      exact same ▸ out hq
    · exact ordered.idle q hq
  · intro q ticket hq
    rw [State.phase_set] at hq
    split at hq
    · exact seen ticket hq
    · exact ordered.seen q ticket hq
  · exact ordered.sorted.imp fun h k l hk hl => h k l (tickets _ k hk) (tickets _ l hl)
  · exact fun q ticket hq => ordered.below q ticket (tickets q ticket hq)

/-- Removing the entry of a name without a place keeps the order. -/
theorem drop (ordered : Ordered s) (p : α) (spared : s.ticket? p = none) :
    Ordered (s.drop p) := by
  constructor
  · exact ordered.nodup.erase p
  · intro q ticket hq
    have other : q ≠ p := by
      rintro rfl
      simp [State.ticket?, State.drop] at hq spared
      simp [hq] at spared
    exact (List.mem_erase_of_ne other).mpr (ordered.present q ticket hq)
  · exact fun q hq member => ordered.idle q hq (List.mem_of_mem_erase member)
  · exact ordered.seen
  · exact ordered.sorted.sublist List.erase_sublist
  · exact ordered.below

/-- A name that gives up its place removes its entry, so it may become idle. -/
theorem leave (ordered : Ordered s) (p : α) : Ordered ((s.drop p).set p .idle) := by
  -- Give up the place first: the entry then belongs to nobody and may be removed.
  have given := ordered.set p .absent (by simp [Phase.ticket?]) (by simp) (by simp)
  have dropped := given.drop p (by simp [State.ticket?_set, Phase.ticket?])
  have out : p ∉ s.queue.erase p := fun member => (ordered.nodup.mem_erase_iff.mp member).1 rfl
  have idle := dropped.set p .idle (by simp [Phase.ticket?]) (fun _ => out) (by simp)
  have same : ((s.set p .absent).drop p).set p .idle = (s.drop p).set p .idle := by
    simp [State.set, State.drop]
  exact same ▸ idle

/-- An idle owner joins behind everybody. -/
theorem join (ordered : Ordered s) (p : α) (idle : s.phase p = .idle) :
    Ordered { (s.push p).set p (.queued s.pushes) with pushes := s.pushes + 1 } := by
  have out := ordered.idle p idle
  have tickets : ∀ q, State.ticket? { (s.push p).set p (.queued s.pushes) with
      pushes := s.pushes + 1 } q = if q = p then some s.pushes else s.ticket? q :=
    fun q => State.ticket?_set (s.push p) p q (.queued s.pushes)
  have phases : ∀ q, State.phase { (s.push p).set p (.queued s.pushes) with
      pushes := s.pushes + 1 } q = if q = p then .queued s.pushes else s.phase q :=
    fun q => State.phase_set (s.push p) p q (.queued s.pushes)
  constructor
  · show (s.queue ++ [p]).Nodup
    rw [List.nodup_append]
    exact ⟨ordered.nodup, List.nodup_singleton p, by rintro a ha b hb rfl; simp_all⟩
  · intro q ticket hq
    show q ∈ s.queue ++ [p]
    rw [tickets] at hq
    split at hq
    · simp_all
    · exact List.mem_append_left _ (ordered.present q ticket hq)
  · intro q hq
    show q ∉ s.queue ++ [p]
    rw [phases] at hq
    split at hq
    · contradiction
    · rename_i other
      simp [other, ordered.idle q hq]
  · intro q ticket hq
    rw [phases] at hq
    split at hq
    · contradiction
    · exact ordered.seen q ticket hq
  · show (s.queue ++ [p]).Pairwise _
    rw [List.pairwise_append]
    refine ⟨?_, List.pairwise_singleton _ _, ?_⟩
    · refine ordered.sorted.imp_of_mem ?_
      intro a b ha hb h k l hk hl
      have ap : a ≠ p := fun same => out (same ▸ ha)
      have bp : b ≠ p := fun same => out (same ▸ hb)
      rw [tickets, if_neg ap] at hk
      rw [tickets, if_neg bp] at hl
      exact h k l hk hl
    · intro a ha b hb k l hk hl
      obtain rfl := List.mem_singleton.mp hb
      have ab : a ≠ b := fun same => out (same ▸ ha)
      rw [tickets, if_neg ab] at hk
      rw [tickets, if_pos rfl] at hl
      obtain rfl := Option.some.inj hl
      exact ordered.below a k hk
  · intro q ticket hq
    show ticket < s.pushes + 1
    rw [tickets] at hq
    split at hq
    · obtain rfl := Option.some.inj hq
      exact Nat.lt_succ_self _
    · exact Nat.lt_succ_of_lt (ordered.below q ticket hq)

end Ordered

/-- Every event that spares the places and gives out fresh names keeps the order. -/
theorem step_ordered {s t : State α} {e : Event α} (ordered : Ordered s)
    (spares : SparesPlaces s e) (fresh : FreshNames s e) (stepped : step s e = some t) :
    Ordered t := by
  cases e with
  | spawn p =>
    simp only [step, Option.ite_none_right_eq_some, Option.some.injEq] at stepped
    obtain ⟨-, rfl⟩ := stepped
    exact ordered.set p _ (by simp [Phase.ticket?]) (fun _ => fresh p rfl) (by simp)
  | join p =>
    simp only [step, Option.ite_none_right_eq_some, Option.some.injEq] at stepped
    obtain ⟨idle, rfl⟩ := stepped
    exact ordered.join p idle
  | miss p =>
    simp only [step] at stepped
    split at stepped <;> simp only [Option.ite_none_right_eq_some, Option.some.injEq,
      reduceCtorEq] at stepped
    rename_i ticket queued
    have member := ordered.present p ticket (State.ticket?_of_phase queued)
    simp [stepped.1] at member
  | rejoin p =>
    simp only [step] at stepped
    split at stepped
    · rename_i ticket lost
      exact absurd lost (ordered.seen p ticket)
    · contradiction
  | enter p =>
    simp only [step] at stepped
    split at stepped <;> simp only [Option.ite_none_right_eq_some, Option.some.injEq,
      reduceCtorEq] at stepped
    rename_i ticket queued
    obtain ⟨-, rfl⟩ := stepped
    exact ordered.set p _ (by simp [Phase.ticket?, State.ticket?_of_phase queued]) (by simp)
      (by simp)
  | retreat p =>
    simp only [step] at stepped
    split at stepped
    · rename_i ticket lost
      exact absurd lost (ordered.seen p ticket)
    · rename_i ticket inside
      obtain rfl := Option.some.inj stepped
      exact ordered.set p _ (by simp [Phase.ticket?, State.ticket?_of_phase inside]) (by simp)
        (by simp)
    · contradiction
  | leave p =>
    simp only [step] at stepped
    split at stepped <;> simp only [Option.some.injEq, reduceCtorEq] at stepped
    subst stepped
    exact ordered.leave p
  | evict p =>
    obtain rfl := Option.some.inj stepped
    exact ordered.drop p (spares p rfl)
  | vanish p =>
    simp only [step, Option.ite_none_left_eq_some, Option.some.injEq] at stepped
    obtain ⟨-, rfl⟩ := stepped
    exact ordered.set p _ (by simp [Phase.ticket?]) (by simp) (by simp)

omit [DecidableEq α] in
/-- In an ordered state the head has the smallest ticket of all places. -/
theorem Ordered.head_first {s : State α} (ordered : Ordered s) {p q : α} {k l : Nat}
    (head : s.queue.head? = some p) (hp : s.ticket? p = some k) (hq : s.ticket? q = some l)
    (other : q ≠ p) : k < l := by
  obtain ⟨rest, queue⟩ := List.head?_eq_some_iff.mp head
  have member := ordered.present q l hq
  have sorted := ordered.sorted
  rw [queue, List.pairwise_cons] at sorted
  rw [queue, List.mem_cons] at member
  exact sorted.1 q (member.resolve_left other) k l hp hq

/-- In an ordered state who holds a place has exactly one entry. -/
theorem Ordered.count_one {s : State α} (ordered : Ordered s) {p : α} {k : Nat}
    (hp : s.ticket? p = some k) : s.queue.count p = 1 :=
  List.count_eq_one_of_mem ordered.nodup (ordered.present p k hp)

end Copr.FifoLock
