import Mathlib.Data.List.AList
import Mathlib.Data.List.Perm.Basic
import Copr.Lib.Runs

/-!
# Work shared through a table of requests

Several processes want work done that only one of them may do at a time. Each writes a record
of its request into a shared table under its own name, without any lock, and then waits for
the lock. The process that gets the lock looks whether its entry is marked as done; if not, it
drops the entry, merges what it can of the records it finds into one plan, does the planned
work and marks the entries it has merged. A process may end at any point, and a name may be
used again by a later process.

The table outlives the processes. If no process writes its record under a name whose entry is
marked, or is going to be marked by the holder of the lock, then every process that ends well
was served by work that was done after its request.
-/

namespace Copr.Batching

open Copr.Runs

/-- The entry of one request. -/
structure Entry (ρ : Type*) where
  /-- The record of what is asked for. -/
  task : Option ρ := none
  /-- Somebody has marked the request as done. -/
  success : Bool := false
  deriving DecidableEq, Repr

/-- What the record of another process means for the plan. -/
inductive Decision (π : Type*)
  /-- The record does not fit. -/
  | skip
  /-- The record is merged. -/
  | take (plan : π)
  /-- The record is merged and the plan is complete. -/
  | last (plan : π)
  /-- The plan is complete without this record. -/
  | stop
  deriving DecidableEq, Repr

/-- The plan that a merged record leads to. -/
def Decision.plan? {π : Type*} : Decision π → Option π
  | .take plan | .last plan => some plan
  | .skip | .stop => none

/-- How requests are recorded and merged: requests `χ`, their records `ρ`, plans `π`, pieces
of work `ω`, and what work depends on besides the plan, `ε`. -/
structure Scheme (χ ρ π ω ε : Type*) where
  /-- The record of a request. -/
  record : χ → ρ
  /-- The plan without any record of others. -/
  start : χ → π
  /-- Look at the record of another process, with the number of those already merged. -/
  join : χ → Nat → π → ρ → Decision π
  /-- The work for a request of one's own and a plan. -/
  work : χ → π → ε → ω

/-- The laws of a scheme: merging loses nothing, and work serves what its plan covers. -/
structure Scheme.Lawful {χ ρ π ω ε : Type*} (scheme : Scheme χ ρ π ω ε) (covers : π → ρ → Prop)
    (serves : ω → ρ → Prop) : Prop where
  /-- A merged record is covered. -/
  joined : ∀ own n plan r plan', (scheme.join own n plan r).plan? = some plan' → covers plan' r
  /-- Merging keeps what is covered. -/
  kept : ∀ own n plan r plan', (scheme.join own n plan r).plan? = some plan' →
    ∀ other, covers plan other → covers plan' other
  /-- Work serves the worker's own request. -/
  own : ∀ own plan env, serves (scheme.work own plan env) (scheme.record own)
  /-- Work serves every covered record. -/
  covered : ∀ own plan env r, covers plan r → serves (scheme.work own plan env) r

/-- Where a process stands. -/
inductive Stage (ι π : Type*)
  /-- The record is written; the process waits for the lock. -/
  | waiting
  /-- The lock is held; the own entry has not been looked at. -/
  | checking
  /-- The own entry has been looked at; it is going to be dropped. -/
  | dropping (success : Bool)
  /-- The own entry is dropped; the names in the table are going to be listed. -/
  | listing
  /-- The entries of some listed names are still to be read. -/
  | collecting (rest : List ι) (plan : π)
  /-- The work is done; the merged entries are going to be marked. -/
  | committing
  /-- The lock is free again. -/
  | released
  deriving DecidableEq, Repr

namespace Stage

variable {ι π : Type*}

/-- The process holds the lock. -/
def locked : Stage ι π → Bool
  | .waiting | .released => false
  | _ => true

/-- The record is in the table and has not been looked at. -/
def pending : Stage ι π → Bool
  | .waiting | .checking => true
  | _ => false

/-- The own entry has been dropped. -/
def dropped : Stage ι π → Bool
  | .waiting | .checking | .dropping _ => false
  | _ => true

/-- Entries have been merged and are not all marked. -/
def merging : Stage ι π → Bool
  | .collecting .. | .committing => true
  | _ => false

/-- Whoever merges entries holds the lock. -/
theorem locked_of_merging {stage : Stage ι π} (merges : stage.merging = true) :
    stage.locked = true := by
  cases stage <;> simp_all [merging, locked]

/-- Nothing is left to be done for the own request. -/
def settled : Stage ι π → Bool
  | .dropping success => success
  | .committing | .released => true
  | _ => false

end Stage

/-- A process. -/
structure Proc (ι χ π ω : Type*) where
  /-- Its request. -/
  request : χ
  /-- Where it stands. -/
  stage : Stage ι π
  /-- The names of the merged entries that it has not marked yet. -/
  notify : List ι
  /-- The work that was done since it made its request (history). -/
  works : List ω

/-- A process that has ended well. -/
structure Report (χ ω : Type*) where
  /-- Its request. -/
  request : χ
  /-- The work that was done between its request and its end. -/
  works : List ω

/-- The table, the processes and the lock. -/
structure World (ι χ ρ π ω : Type*) where
  /-- The table. -/
  table : AList fun _ : ι => Entry ρ
  /-- The live process of each name. -/
  procs : ι → Option (Proc ι χ π ω)
  /-- Who holds the lock. -/
  holder : Option ι
  /-- The processes that have ended well (history). -/
  reports : List (Report χ ω)

/-- What a process does next. -/
inductive Action (ι ε : Type*)
  /-- Take the lock. -/
  | lock
  /-- Look whether the own entry is marked. -/
  | check
  /-- Drop the own entry. -/
  | drop
  /-- List the names in the table. -/
  | list (names : List ι)
  /-- Read the entry of the next listed name. -/
  | read
  /-- Do the planned work. -/
  | work (env : ε)
  /-- Mark the next merged entry. -/
  | mark
  /-- Free the lock. -/
  | release
  /-- End well. -/
  | finish
  /-- End otherwise: killed, or by an error. -/
  | fail

/-- What happens next. -/
inductive Event (ι χ ε : Type*)
  /-- A new process writes its record. -/
  | request (name : ι) (own : χ)
  /-- A live process does something. -/
  | act (name : ι) (action : Action ι ε)

variable {ι χ ρ π ω ε : Type*} [DecidableEq ι]

namespace World

/-- The machine before any process. -/
def initial : World ι χ ρ π ω where
  table := ∅
  procs := fun _ => none
  holder := none
  reports := []

/-- The entry under a name is marked. -/
def marked (w : World ι χ ρ π ω) (name : ι) : Bool :=
  ((w.table.lookup name).getD {}).success

/-- The names that the holder of the lock is going to mark. -/
def promised (w : World ι χ ρ π ω) : List ι :=
  match w.holder.bind w.procs with
  | some p => p.notify
  | none => []

/-- Replace the process of a name. -/
def put (w : World ι χ ρ π ω) (name : ι) (p : Option (Proc ι χ π ω)) : World ι χ ρ π ω :=
  { w with procs := Function.update w.procs name p }

/-- Set fields of an entry, which comes to exist. -/
def set (w : World ι χ ρ π ω) (name : ι) (fields : Entry ρ → Entry ρ) : World ι χ ρ π ω :=
  { w with table := w.table.insert name (fields ((w.table.lookup name).getD {})) }

/-- Let every process remember a piece of work. -/
def record (w : World ι χ ρ π ω) (work : ω) : World ι χ ρ π ω :=
  { w with procs := fun name => (w.procs name).map fun p => { p with works := p.works ++ [work] } }

end World

variable (scheme : Scheme χ ρ π ω ε)

/-- What a look at one entry leaves behind. -/
structure Collected (ι π : Type*) where
  /-- The plan. -/
  plan : π
  /-- The names of the merged entries. -/
  notify : List ι
  /-- The next entry is looked at, too. -/
  more : Bool
  deriving DecidableEq, Repr

/-- Look at one entry. A listed name without an entry, a marked entry and a record that does not
fit are passed over; an entry without a record is an error. -/
def visit (own : χ) (plan : π) (notify : List ι) (key : ι) :
    Option (Entry ρ) → Option (Collected ι π)
  | none => some ⟨plan, notify, true⟩
  | some entry =>
    if entry.success then some ⟨plan, notify, true⟩
    else
      entry.task.map fun r =>
        match scheme.join own notify.length plan r with
        | .skip => ⟨plan, notify, true⟩
        | .take next => ⟨next, notify ++ [key], true⟩
        | .last next => ⟨next, notify ++ [key], false⟩
        | .stop => ⟨plan, notify, false⟩

/-- Look at the entries of a list one after another. Finding one's own name is an error. -/
def collect (own : χ) (name : ι) (plan : π) (notify : List ι) :
    List (ι × Option (Entry ρ)) → Option (π × List ι)
  | [] => some (plan, notify)
  | (key, entry) :: rest =>
    if key = name then none
    else
      match visit scheme own plan notify key entry with
      | none => none
      | some c =>
        if c.more then collect own name c.plan c.notify rest else some (c.plan, c.notify)

/-- A process reads the entry of the next listed name. -/
def readEntry (w : World ι χ ρ π ω) (name : ι) (p : Proc ι χ π ω) (key : ι) (rest : List ι)
    (plan : π) : Option (Proc ι χ π ω) :=
  if key = name then none
  else
    (visit scheme p.request plan p.notify key (w.table.lookup key)).map fun c =>
      { p with
        stage := .collecting (if c.more then rest else []) c.plan
        notify := c.notify }

/-- The state after an action of a live process; `none` when the action is impossible. -/
def act (w : World ι χ ρ π ω) (name : ι) (p : Proc ι χ π ω) :
    Action ι ε → Option (World ι χ ρ π ω)
  | .lock =>
    match p.stage with
    | .waiting =>
      if w.holder.isNone then
        some { w.put name (some { p with stage := .checking }) with holder := some name }
      else none
    | _ => none
  | .check =>
    match p.stage with
    | .checking => some (w.put name (some { p with stage := .dropping (w.marked name) }))
    | _ => none
  | .drop =>
    match p.stage with
    | .dropping success =>
      some { w.put name (some { p with stage := if success then .committing else .listing }) with
        table := w.table.erase name }
    | _ => none
  | .list names =>
    match p.stage with
    | .listing =>
      if names.Perm w.table.keys then
        some (w.put name (some { p with stage := .collecting names (scheme.start p.request) }))
      else none
    | _ => none
  | .read =>
    match p.stage with
    | .collecting (key :: rest) plan =>
      (readEntry scheme w name p key rest plan).map fun next => w.put name (some next)
    | _ => none
  | .work env =>
    match p.stage with
    | .collecting [] plan =>
      some ((w.put name (some { p with stage := .committing })).record
        (scheme.work p.request plan env))
    | _ => none
  | .mark =>
    match p.stage, p.notify with
    | .committing, key :: rest =>
      some ((w.put name (some { p with notify := rest })).set key
        fun entry => { entry with success := true })
    | _, _ => none
  | .release =>
    match p.stage, p.notify with
    | .committing, [] =>
      some { w.put name (some { p with stage := .released }) with holder := none }
    | _, _ => none
  | .finish =>
    match p.stage with
    | .released =>
      some { w.put name none with reports := w.reports ++ [⟨p.request, p.works⟩] }
    | _ => none
  | .fail =>
    some { w.put name none with holder := if w.holder = some name then none else w.holder }

/-- One step; `none` when the event is impossible. -/
def step (w : World ι χ ρ π ω) : Event ι χ ε → Option (World ι χ ρ π ω)
  | .request name own =>
    if (w.procs name).isNone then
      some ((w.set name fun entry => { entry with task := some (scheme.record own) }).put name
        (some ⟨own, .waiting, [], []⟩))
    else none
  | .act name action => (w.procs name).bind fun p => act scheme w name p action

/-- A record is written only under a name whose entry is not marked and is not going to be
marked by the holder of the lock. -/
def cleanName (w : World ι χ ρ π ω) : Event ι χ ε → Bool
  | .request name _ => !w.marked name && decide (name ∉ w.promised)
  | .act _ _ => true

variable {scheme : Scheme χ ρ π ω ε} {covers : π → ρ → Prop} {serves : ω → ρ → Prop}

omit [DecidableEq ι] in
/-- A look at an entry leaves everything as it was or merges the record of that entry. -/
theorem visit_cases {own : χ} {plan : π} {notify : List ι} {key : ι} {found : Option (Entry ρ)}
    {c : Collected ι π} (seen : visit scheme own plan notify key found = some c) :
    (c.plan = plan ∧ c.notify = notify) ∨
      ∃ entry r, found = some entry ∧ entry.success = false ∧ entry.task = some r ∧
        (scheme.join own notify.length plan r).plan? = some c.plan ∧
        c.notify = notify ++ [key] := by
  cases found with
  | none =>
    obtain rfl := Option.some.inj seen
    exact Or.inl ⟨rfl, rfl⟩
  | some entry =>
    simp only [visit] at seen
    split at seen
    · obtain rfl := Option.some.inj seen
      exact Or.inl ⟨rfl, rfl⟩
    · rename_i unmarked
      obtain ⟨r, task, rfl⟩ := Option.map_eq_some_iff.mp seen
      have found : some entry = some entry ∧ entry.success = false ∧ entry.task = some r :=
        ⟨rfl, by simpa using unmarked, task⟩
      cases decision : scheme.join own notify.length plan r with
      | skip => exact Or.inl ⟨rfl, rfl⟩
      | take next =>
        exact Or.inr ⟨entry, r, found.1, found.2.1, found.2.2,
          by simp [Decision.plan?, decision], rfl⟩
      | last next =>
        exact Or.inr ⟨entry, r, found.1, found.2.1, found.2.2,
          by simp [Decision.plan?, decision], rfl⟩
      | stop => exact Or.inl ⟨rfl, rfl⟩

/-- What holds of the first plan and is kept by every merged record holds of the plan in the
end. -/
theorem collect_invariant (I : π → List ι → Prop) {own : χ} {name : ι}
    {entries : List (ι × Option (Entry ρ))}
    (keeps : ∀ plan notify key entry r next, (key, some entry) ∈ entries →
      entry.success = false → entry.task = some r →
      (scheme.join own notify.length plan r).plan? = some next → I plan notify →
      I next (notify ++ [key]))
    {plan : π} {notify : List ι} (start : I plan notify) {result : π × List ι}
    (done : collect scheme own name plan notify entries = some result) :
    I result.1 result.2 := by
  induction entries generalizing plan notify with
  | nil =>
    obtain rfl := Option.some.inj done
    exact start
  | cons head rest ih =>
    obtain ⟨key, found⟩ := head
    simp only [collect] at done
    split at done <;> [contradiction; skip]
    split at done <;> [contradiction; rename_i c seen]
    have now : I c.plan c.notify := by
      rcases visit_cases seen with
        ⟨samePlan, sameNotify⟩ | ⟨entry, r, rfl, free, task, joined, more⟩
      · exact samePlan ▸ sameNotify ▸ start
      · exact more ▸ keeps plan notify key entry r c.plan (by simp) free task joined start
    split at done
    · exact ih (fun plan notify key entry r next member =>
        keeps plan notify key entry r next (List.mem_cons_of_mem _ member)) now done
    · obtain rfl := Option.some.inj done
      exact now

/-- A process that reads the listed entries with nothing in between ends with what `collect`
computes from them. -/
theorem run_collect {w : World ι χ ρ π ω} {name : ι} {p : Proc ι χ π ω} {names : List ι} {plan : π}
    (live : w.procs name = some p) (stage : p.stage = .collecting names plan)
    {result : π × List ι} (done : collect scheme p.request name plan p.notify
      (names.map fun key => (key, w.table.lookup key)) = some result) :
    Run (step scheme) anyEvent w (w.put name (some { p with
      stage := .collecting [] result.1
      notify := result.2 })) := by
  induction names generalizing w p plan with
  | nil =>
    obtain rfl := Option.some.inj done
    have same : w.put name (some { p with
        stage := .collecting [] plan
        notify := p.notify }) = w := by
      simp [World.put, ← stage, ← live]
    rw [same]
  | cons key rest ih =>
    simp only [List.map_cons, collect] at done
    split at done <;> [contradiction; rename_i apart]
    split at done <;> [contradiction; rename_i c seen]
    obtain ⟨next, given⟩ : ∃ next : Proc ι χ π ω, next = { p with
        stage := .collecting (if c.more then rest else []) c.plan
        notify := c.notify } := ⟨_, rfl⟩
    have read : step scheme w (.act name .read) = some (w.put name (some next)) := by
      simp [step, live, act, stage, readEntry, apart, seen, given]
    refine .head ⟨_, trivial, read⟩ ?_
    split at done
    · rename_i more
      have further := @ih (w.put name (some next)) next c.plan
        (by simp [World.put]) (by simp [given, more]) (by simpa [World.put, given] using done)
      simpa [World.put, given] using further
    · rename_i full
      obtain rfl := Option.some.inj done
      rw [given]
      simp only [full, Bool.false_eq_true, ↓reduceIte]
      exact .refl

/-! ## The invariant -/

/-- Some work that a process has seen since its request serves it. -/
def Served (scheme : Scheme χ ρ π ω ε) (serves : ω → ρ → Prop) (own : χ) (works : List ω) : Prop :=
  ∃ work ∈ works, serves work (scheme.record own)

/-- More work serves no less. -/
theorem Served.append {own : χ} {works : List ω} (served : Served scheme serves own works)
    (more : List ω) : Served scheme serves own (works ++ more) := by
  obtain ⟨work, member, serving⟩ := served
  exact ⟨work, List.mem_append_left _ member, serving⟩

/-- What a process in some stage owes to a process whose entry it has merged. -/
def Owed (scheme : Scheme χ ρ π ω ε) (covers : π → ρ → Prop) (serves : ω → ρ → Prop)
    (stage : Stage ι π) (other : Proc ι χ π ω) : Prop :=
  match stage with
  | .collecting _ plan => covers plan (scheme.record other.request)
  | .committing => Served scheme serves other.request other.works
  | _ => False

/-- What holds of a live process. -/
structure Proper (scheme : Scheme χ ρ π ω ε) (covers : π → ρ → Prop) (serves : ω → ρ → Prop)
    (w : World ι χ ρ π ω) (name : ι) (p : Proc ι χ π ω) : Prop where
  /-- It holds the lock exactly in the stages that say so. -/
  lock : p.stage.locked = true ↔ w.holder = some name
  /-- Its record is in the table, and a mark on it is deserved. -/
  entry : p.stage.pending = true → ∃ entry, w.table.lookup name = some entry ∧
    entry.task = some (scheme.record p.request) ∧
    (entry.success = true → Served scheme serves p.request p.works)
  /-- Its entry is gone once it has dropped it. -/
  dropped : p.stage.dropped = true → w.table.lookup name = none
  /-- It is served once nothing is left to be done for it. -/
  settled : p.stage.settled = true → Served scheme serves p.request p.works
  /-- Only who merges entries has names to mark. -/
  quiet : p.notify ≠ [] → p.stage.merging = true
  /-- The live processes under these names wait, and get what they are owed. -/
  promised : ∀ key ∈ p.notify, ∀ other, w.procs key = some other →
    other.stage = .waiting ∧ Owed scheme covers serves p.stage other

/-- What holds of the whole. -/
structure Consistent (scheme : Scheme χ ρ π ω ε) (covers : π → ρ → Prop) (serves : ω → ρ → Prop)
    (w : World ι χ ρ π ω) : Prop where
  /-- The lock is held by a live process. -/
  held : ∀ name, w.holder = some name → (w.procs name).isSome = true
  /-- The processes. -/
  procs : ∀ name p, w.procs name = some p → Proper scheme covers serves w name p
  /-- Every process that has ended well was served. -/
  reports : ∀ r ∈ w.reports, Served scheme serves r.request r.works

/-- The initial world, without processes and requests, is consistent. -/
theorem initial_consistent : Consistent scheme covers serves (.initial : World ι χ ρ π ω) where
  held name same := by simp [World.initial] at same
  procs name p live := by simp [World.initial] at live
  reports r member := by simp [World.initial] at member

namespace Consistent

variable {w : World ι χ ρ π ω} {name : ι} {p : Proc ι χ π ω}

/-- While a process holds the lock, or nobody does, the others do not. -/
theorem not_locked (consistent : Consistent scheme covers serves w)
    (alone : w.holder = none ∨ w.holder = some name) {other : ι} {q : Proc ι χ π ω}
    (live : w.procs other = some q) (apart : other ≠ name) : q.stage.locked ≠ true := by
  intro locked
  have holds := (consistent.procs other q live).lock.mp locked
  rcases alone with free | mine
  · simp [free] at holds
  · rw [mine] at holds
    exact apart (Option.some.inj holds).symm

/-- The others then have no names to mark. -/
theorem notify_nil (consistent : Consistent scheme covers serves w)
    (alone : w.holder = none ∨ w.holder = some name) {other : ι} {q : Proc ι χ π ω}
    (live : w.procs other = some q) (apart : other ≠ name) : q.notify = [] := by
  by_contra busy
  have merges := (consistent.procs other q live).quiet busy
  exact consistent.not_locked alone live apart (Stage.locked_of_merging merges)

/-- A process does not mark its own entry. -/
theorem self_notin_notify (consistent : Consistent scheme covers serves w)
    (live : w.procs name = some p) : name ∉ p.notify := by
  intro member
  have proper := consistent.procs name p live
  have merges := proper.quiet (List.ne_nil_of_mem member)
  have waits := (proper.promised name member p live).1
  simp [waits, Stage.merging] at merges

/-- A process may be replaced, with its own entry and the lock. -/
structure Replacement (scheme : Scheme χ ρ π ω ε) (covers : π → ρ → Prop) (serves : ω → ρ → Prop)
    (w : World ι χ ρ π ω) (name : ι) (next : Proc ι χ π ω) (table : AList fun _ : ι => Entry ρ)
    (holder : Option ι) : Prop where
  /-- The other entries are the same. -/
  elsewhere : ∀ other, other ≠ name → table.lookup other = w.table.lookup other
  /-- The new process has the lock exactly in the stages that say so. -/
  held : holder = if next.stage.locked then some name else none
  /-- Its record is in the table, and a mark on it is deserved. -/
  entry : next.stage.pending = true → ∃ entry, table.lookup name = some entry ∧
    entry.task = some (scheme.record next.request) ∧
    (entry.success = true → Served scheme serves next.request next.works)
  /-- Its entry is gone once it has dropped it. -/
  dropped : next.stage.dropped = true → table.lookup name = none
  /-- It is served once nothing is left to be done for it. -/
  settled : next.stage.settled = true → Served scheme serves next.request next.works
  /-- Only who merges entries has names to mark. -/
  quiet : next.notify ≠ [] → next.stage.merging = true
  /-- The live processes under these names wait, and get what they are owed. -/
  promised : ∀ key ∈ next.notify, key ≠ name ∧ ∀ other, w.procs key = some other →
    other.stage = .waiting ∧ Owed scheme covers serves next.stage other

/-- Replacing the one process that may use the table, together with its own entry and the
lock, keeps everything else. -/
theorem replace (consistent : Consistent scheme covers serves w)
    (alone : w.holder = none ∨ w.holder = some name) {next : Proc ι χ π ω}
    {table : AList fun _ : ι => Entry ρ} {holder : Option ι}
    (replacement : Replacement scheme covers serves w name next table holder) :
    Consistent scheme covers serves { w.put name (some next) with
      table := table
      holder := holder } where
  held other same := by
    by_cases mine : other = name
    · simp [World.put, mine]
    · rw [replacement.held] at same
      split at same
      · exact absurd (Option.some.inj same).symm mine
      · contradiction
  procs other q live := by
    by_cases mine : other = name
    · subst mine
      obtain rfl : next = q := by simpa [World.put] using live
      refine ⟨?_, replacement.entry, replacement.dropped, replacement.settled, replacement.quiet,
        fun key member third alive => ?_⟩
      · rw [replacement.held]
        cases next.stage.locked <;> simp
      · obtain ⟨apart, owed⟩ := replacement.promised key member
        exact owed third (by simpa [World.put, apart] using alive)
    · have before : w.procs other = some q := by simpa [World.put, mine] using live
      have proper := consistent.procs other q before
      have unlocked := consistent.not_locked alone before mine
      refine ⟨⟨fun locked => absurd locked unlocked, fun holds => ?_⟩, ?_, ?_, proper.settled,
        proper.quiet, ?_⟩
      · rw [replacement.held] at holds
        split at holds
        · exact absurd (Option.some.inj holds).symm mine
        · contradiction
      · rw [replacement.elsewhere other mine]
        exact proper.entry
      · rw [replacement.elsewhere other mine]
        exact proper.dropped
      · rw [consistent.notify_nil alone before mine]
        simp
  reports := consistent.reports

/-- A process that ends leaves the world consistent, and the lock free if it held it. -/
theorem remove (consistent : Consistent scheme covers serves w) (name : ι) (holder : Option ι)
    (held : holder = if w.holder = some name then none else w.holder) :
    Consistent scheme covers serves { w.put name none with holder := holder } where
  held other same := by
    rw [held] at same
    split at same
    · contradiction
    · rename_i free
      have apart : other ≠ name := fun mine => free (mine ▸ same)
      simpa [World.put, apart] using consistent.held other same
  procs other q live := by
    have apart : other ≠ name := fun mine => by simp [World.put, mine] at live
    have before : w.procs other = some q := by simpa [World.put, apart] using live
    have proper := consistent.procs other q before
    refine ⟨?_, proper.entry, proper.dropped, proper.settled, proper.quiet, ?_⟩
    · rw [proper.lock, held]
      by_cases mine : w.holder = some name
      · simp [mine, apart.symm]
      · simp [mine]
    · intro key member third alive
      have distinct : key ≠ name := fun mine => by simp [World.put, mine] at alive
      exact proper.promised key member third (by simpa [World.put, distinct] using alive)
  reports := consistent.reports

/-- The own entry of a process and the promises of others, when it is looked up. -/
theorem unmarked_of_clean {own : χ} (clean : cleanName w (.request name own : Event ι χ ε) = true) :
    w.marked name = false ∧ ∀ other q, w.holder = some other → w.procs other = some q →
      name ∉ q.notify := by
  simp only [cleanName, Bool.and_eq_true, Bool.not_eq_true', decide_eq_true_eq] at clean
  refine ⟨clean.1, fun other q holds live member => clean.2 ?_⟩
  simp [World.promised, holds, live, member]

/-- A new process under a clean name. -/
theorem request (consistent : Consistent scheme covers serves w) {own : χ}
    (clean : cleanName w (.request name own : Event ι χ ε) = true) (free : w.procs name = none) :
    Consistent scheme covers serves
      ((w.set name fun entry => { entry with task := some (scheme.record own) }).put name
        (some ⟨own, .waiting, [], []⟩)) where
  held other same := by
    by_cases mine : other = name
    · simp [World.put, mine]
    · simpa [World.put, World.set, mine] using consistent.held other same
  procs other q live := by
    obtain ⟨unmarked, unpromised⟩ := unmarked_of_clean clean
    by_cases mine : other = name
    · subst mine
      obtain rfl : ⟨own, .waiting, [], []⟩ = q := by simpa [World.put] using live
      refine ⟨⟨fun locked => by simp [Stage.locked] at locked, fun holds => ?_⟩, fun _ => ?_,
        fun gone => by simp [Stage.dropped] at gone, fun done => by simp [Stage.settled] at done,
        fun busy => absurd rfl busy, fun key member => by simp at member⟩
      · have live := consistent.held other holds
        simp [free] at live
      · refine ⟨_, AList.lookup_insert .., rfl, fun marked => ?_⟩
        rw [World.marked] at unmarked
        simp [unmarked] at marked
    · have before : w.procs other = some q := by simpa [World.put, World.set, mine] using live
      have proper := consistent.procs other q before
      have same : (w.table.insert name
          { (w.table.lookup name).getD {} with task := some (scheme.record own) }).lookup other =
          w.table.lookup other := AList.lookup_insert_ne mine
      refine ⟨proper.lock, ?_, ?_, proper.settled, proper.quiet, ?_⟩
      · simpa only [World.put, World.set, same] using proper.entry
      · simpa only [World.put, World.set, same] using proper.dropped
      · intro key member third alive
        have distinct : key ≠ name := fun taken => by
          have locked := Stage.locked_of_merging (proper.quiet (List.ne_nil_of_mem member))
          exact unpromised other q (proper.lock.mp locked) before (taken ▸ member)
        exact proper.promised key member third
          (by simpa [World.put, World.set, distinct] using alive)
  reports := consistent.reports

/-- The holder of the lock marks an entry it has merged. -/
theorem mark (consistent : Consistent scheme covers serves w) (live : w.procs name = some p)
    (stage : p.stage = .committing) {key : ι} {rest : List ι} (next : p.notify = key :: rest) :
    Consistent scheme covers serves
      ((w.put name (some { p with notify := rest })).set key
        fun entry => { entry with success := true }) := by
  have proper := consistent.procs name p live
  have member : key ∈ p.notify := by simp [next]
  have apart : key ≠ name := fun mine => consistent.self_notin_notify live (mine ▸ member)
  have holds : w.holder = some name := proper.lock.mp (by simp [stage, Stage.locked])
  -- First the shorter list of names, then the mark.
  have replacement : Replacement scheme covers serves w name { p with notify := rest } w.table
      (some name) :=
    { elsewhere := fun _ _ => rfl
      held := by simp [stage, Stage.locked]
      entry := fun waits => by simp [stage, Stage.pending] at waits
      dropped := proper.dropped
      settled := proper.settled
      quiet := fun _ => by simp [stage, Stage.merging]
      promised := fun other inside =>
        ⟨fun mine => consistent.self_notin_notify live (by simp [next, ← mine, inside]),
          proper.promised other (by simp [next, inside])⟩ }
  have shorter := consistent.replace (Or.inr holds) replacement
  refine ⟨fun other same => shorter.held other (holds ▸ same), fun other q alive => ?_,
    consistent.reports⟩
  have properly := shorter.procs other q alive
  by_cases marked : other = key
  · subst marked
    have before : w.procs other = some q := by simpa [World.put, World.set, apart] using alive
    obtain ⟨waits, owed⟩ := proper.promised other member q before
    rw [stage] at owed
    obtain ⟨entry, found, task, -⟩ := properly.entry (by simp [waits, Stage.pending])
    have holds' : w.holder ≠ some other := fun mine =>
      apart (Option.some.inj (mine.symm.trans holds))
    refine ⟨by simp [waits, Stage.locked, World.put, World.set, holds'], fun _ => ?_,
      fun gone => by simp [waits, Stage.dropped] at gone, properly.settled, properly.quiet,
      properly.promised⟩
    refine ⟨_, AList.lookup_insert .., ?_, fun _ => owed⟩
    have found' : w.table.lookup other = some entry := found
    simp [World.put, found', task]
  · have same : (w.table.insert key
        { (w.table.lookup key).getD {} with success := true }).lookup other =
        w.table.lookup other := AList.lookup_insert_ne marked
    refine ⟨?_, ?_, ?_, properly.settled, properly.quiet, properly.promised⟩
    · rw [properly.lock]
      simp [World.put, World.set, holds]
    · simpa only [World.put, World.set, same] using properly.entry
    · simpa only [World.put, World.set, same] using properly.dropped

/-- The holder of the lock does the planned work. -/
theorem work (lawful : scheme.Lawful covers serves) (consistent : Consistent scheme covers serves w)
    (live : w.procs name = some p) {plan : π} (stage : p.stage = .collecting [] plan) (env : ε) :
    Consistent scheme covers serves
      ((w.put name (some { p with stage := .committing })).record
        (scheme.work p.request plan env)) where
  held other same := by
    by_cases mine : other = name
    · simp [World.record, World.put, mine]
    · simpa [World.record, World.put, mine] using consistent.held other same
  procs other q alive := by
    have proper := consistent.procs name p live
    have holds : w.holder = some name := proper.lock.mp (by simp [stage, Stage.locked])
    have apart : ∀ key ∈ p.notify, key ≠ name := fun key member mine =>
      consistent.self_notin_notify live (mine ▸ member)
    by_cases mine : other = name
    · subst mine
      obtain rfl : { p with
          stage := .committing
          works := p.works ++ [scheme.work p.request plan env] } = q := by
        simpa [World.record, World.put] using alive
      refine ⟨by simp [Stage.locked, World.record, World.put, holds],
        fun waits => by simp [Stage.pending] at waits,
        fun _ => proper.dropped (by simp [stage, Stage.dropped]), fun _ => ?_,
        fun _ => rfl, fun key member third running => ?_⟩
      · exact ⟨_, by simp, lawful.own p.request plan env⟩
      · obtain ⟨before, earlier, rfl⟩ : ∃ before, w.procs key = some before ∧
            { before with works := before.works ++ [scheme.work p.request plan env] } = third := by
          simpa [World.record, World.put, apart key member] using running
        obtain ⟨waits, owed⟩ := proper.promised key member before earlier
        rw [stage] at owed
        exact ⟨waits, _, by simp, lawful.covered p.request plan env _ owed⟩
    · obtain ⟨before, earlier, rfl⟩ : ∃ before, w.procs other = some before ∧
          { before with works := before.works ++ [scheme.work p.request plan env] } = q := by
        simpa [World.record, World.put, mine] using alive
      have properly := consistent.procs other before earlier
      refine ⟨properly.lock, fun waits => ?_, properly.dropped,
        fun done => (properly.settled done).append _, properly.quiet, ?_⟩
      · obtain ⟨entry, found, task, deserved⟩ := properly.entry waits
        exact ⟨entry, found, task, fun marked => (deserved marked).append _⟩
      · have none_ := consistent.notify_nil (Or.inr holds) earlier mine
        simp [none_]
  reports := consistent.reports

/-- Reading one entry keeps what is owed to the merged ones. -/
theorem readEntry_promised (lawful : scheme.Lawful covers serves)
    (consistent : Consistent scheme covers serves w) (live : w.procs name = some p) {key : ι}
    {rest : List ι} {plan : π} (stage : p.stage = .collecting (key :: rest) plan)
    {next : Proc ι χ π ω} (done : readEntry scheme w name p key rest plan = some next) :
    (∃ rest' plan', next.stage = .collecting rest' plan') ∧
      ∀ other ∈ next.notify, other ≠ name ∧ ∀ q, w.procs other = some q →
        q.stage = .waiting ∧ Owed scheme covers serves next.stage q := by
  have proper := consistent.procs name p live
  have holds : w.holder = some name := proper.lock.mp (by simp [stage, Stage.locked])
  have earlier : ∀ other ∈ p.notify, other ≠ name ∧ ∀ q, w.procs other = some q →
      q.stage = .waiting ∧ covers plan (scheme.record q.request) := fun other member =>
    ⟨fun mine => consistent.self_notin_notify live (mine ▸ member), fun q alive => by
      simpa [Owed, stage] using proper.promised other member q alive⟩
  -- A record that is merged belongs to a process that waits, if that process lives.
  have merged : ∀ {entry : Entry ρ} {r : ρ} {next : π}, key ≠ name →
      w.table.lookup key = some entry → entry.task = some r →
      (scheme.join p.request p.notify.length plan r).plan? = some next →
      ∀ other ∈ p.notify ++ [key], other ≠ name ∧ ∀ q, w.procs other = some q →
        q.stage = .waiting ∧ covers next (scheme.record q.request) := by
    intro entry r next apart found task planned other member
    rcases List.mem_append.mp member with old | new
    · obtain ⟨distinct, owed⟩ := earlier other old
      refine ⟨distinct, fun q alive => ⟨(owed q alive).1, ?_⟩⟩
      exact lawful.kept p.request p.notify.length plan r next planned _ (owed q alive).2
    · obtain rfl := List.mem_singleton.mp new
      refine ⟨apart, fun q alive => ?_⟩
      have properly := consistent.procs other q alive
      have waits : q.stage = .waiting := by
        have unlocked := consistent.not_locked (Or.inr holds) alive apart
        have undropped : ¬ q.stage.dropped = true := fun gone => by
          simp [properly.dropped gone] at found
        cases same : q.stage <;> simp_all [Stage.locked, Stage.dropped]
      obtain ⟨entry', found', task', -⟩ := properly.entry (by simp [waits, Stage.pending])
      obtain rfl : entry = entry' := Option.some.inj (found.symm.trans found')
      obtain rfl : r = scheme.record q.request := Option.some.inj (task.symm.trans task')
      exact ⟨waits, lawful.joined p.request p.notify.length plan _ next planned⟩
  unfold readEntry at done
  split at done <;> [contradiction; rename_i apart]
  obtain ⟨c, seen, rfl⟩ := Option.map_eq_some_iff.mp done
  refine ⟨⟨_, _, rfl⟩, ?_⟩
  rcases visit_cases seen with ⟨samePlan, sameNotify⟩ | ⟨entry, r, found, -, task, joined, more⟩
  · simpa only [samePlan, sameNotify, Owed] using earlier
  · simpa only [more, Owed] using merged apart found task joined

/-- The stages in which the process holds the lock. -/
theorem holds_of_stage (consistent : Consistent scheme covers serves w)
    (live : w.procs name = some p) (locked : p.stage.locked = true) : w.holder = some name :=
  (consistent.procs name p live).lock.mp locked

/-- Outside the stages of merging there are no names to mark. -/
theorem notify_nil_of_stage (consistent : Consistent scheme covers serves w)
    (live : w.procs name = some p) (idle : p.stage.merging = false) : p.notify = [] := by
  by_contra busy
  simp [(consistent.procs name p live).quiet busy] at idle

/-- A process takes the lock. -/
theorem lock (consistent : Consistent scheme covers serves w) (live : w.procs name = some p)
    (stage : p.stage = .waiting) (free : w.holder = none) :
    Consistent scheme covers serves
      { w.put name (some { p with stage := .checking }) with holder := some name } := by
  have proper := consistent.procs name p live
  have idle := consistent.notify_nil_of_stage live (by simp [stage, Stage.merging])
  exact consistent.replace (Or.inl free)
    { elsewhere := fun _ _ => rfl
      held := by simp [Stage.locked]
      entry := fun _ => proper.entry (by simp [stage, Stage.pending])
      dropped := fun gone => by simp [Stage.dropped] at gone
      settled := fun done => by simp [Stage.settled] at done
      quiet := fun busy => absurd idle busy
      promised := by simp [idle] }

/-- A process looks at its own entry. -/
theorem check (consistent : Consistent scheme covers serves w) (live : w.procs name = some p)
    (stage : p.stage = .checking) :
    Consistent scheme covers serves
      (w.put name (some { p with stage := .dropping (w.marked name) })) := by
  have proper := consistent.procs name p live
  have holds := consistent.holds_of_stage live (by simp [stage, Stage.locked])
  have idle := consistent.notify_nil_of_stage live (by simp [stage, Stage.merging])
  obtain ⟨entry, found, -, deserved⟩ := proper.entry (by simp [stage, Stage.pending])
  exact consistent.replace (Or.inr holds)
    { elsewhere := fun _ _ => rfl
      held := by simp [Stage.locked, holds]
      entry := fun waits => by simp [Stage.pending] at waits
      dropped := fun gone => by simp [Stage.dropped] at gone
      settled := fun done => deserved (by simpa [Stage.settled, World.marked, found] using done)
      quiet := fun busy => absurd idle busy
      promised := by simp [idle] }

/-- A process drops its own entry. -/
theorem drop (consistent : Consistent scheme covers serves w) (live : w.procs name = some p)
    {success : Bool} (stage : p.stage = .dropping success) :
    Consistent scheme covers serves
      { w.put name (some { p with stage := if success then .committing else .listing }) with
        table := w.table.erase name } := by
  have proper := consistent.procs name p live
  have holds := consistent.holds_of_stage live (by simp [stage, Stage.locked])
  have idle := consistent.notify_nil_of_stage live (by simp [stage, Stage.merging])
  exact consistent.replace (Or.inr holds)
    { elsewhere := fun other apart => AList.lookup_erase_ne apart
      held := by cases success <;> simp [Stage.locked, World.put, holds]
      entry := fun waits => by cases success <;> simp [Stage.pending] at waits
      dropped := fun _ => AList.lookup_erase ..
      settled := fun done => by
        cases success with
        | false => simp [Stage.settled] at done
        | true => exact proper.settled (by simp [stage, Stage.settled])
      quiet := fun busy => absurd idle busy
      promised := by simp [idle] }

/-- A process that has dropped its entry goes on to another stage of merging. -/
theorem collect (consistent : Consistent scheme covers serves w) (live : w.procs name = some p)
    (locked : p.stage.locked = true) (dropped : p.stage.dropped = true) {next : Proc ι χ π ω}
    {rest : List ι} {plan : π} (stage : next.stage = .collecting rest plan)
    (promised : ∀ key ∈ next.notify, key ≠ name ∧ ∀ other, w.procs key = some other →
      other.stage = .waiting ∧ Owed scheme covers serves next.stage other) :
    Consistent scheme covers serves (w.put name (some next)) := by
  have proper := consistent.procs name p live
  have holds := consistent.holds_of_stage live locked
  exact consistent.replace (Or.inr holds)
    { elsewhere := fun _ _ => rfl
      held := by simp [stage, Stage.locked, holds]
      entry := fun waits => by simp [stage, Stage.pending] at waits
      dropped := fun _ => proper.dropped dropped
      settled := fun done => by simp [stage, Stage.settled] at done
      quiet := fun _ => by simp [stage, Stage.merging]
      promised := promised }

/-- A process frees the lock. -/
theorem release (consistent : Consistent scheme covers serves w) (live : w.procs name = some p)
    (stage : p.stage = .committing) (idle : p.notify = []) :
    Consistent scheme covers serves
      { w.put name (some { p with stage := .released }) with holder := none } := by
  have proper := consistent.procs name p live
  have holds := consistent.holds_of_stage live (by simp [stage, Stage.locked])
  exact consistent.replace (Or.inr holds)
    { elsewhere := fun _ _ => rfl
      held := by simp [Stage.locked]
      entry := fun waits => by simp [Stage.pending] at waits
      dropped := fun _ => proper.dropped (by simp [stage, Stage.dropped])
      settled := fun _ => proper.settled (by simp [stage, Stage.settled])
      quiet := fun busy => absurd idle busy
      promised := by simp [idle] }

/-- A process that has freed the lock ends well. -/
theorem finish (consistent : Consistent scheme covers serves w) (live : w.procs name = some p)
    (stage : p.stage = .released) :
    Consistent scheme covers serves
      { w.put name none with reports := w.reports ++ [⟨p.request, p.works⟩] } := by
  have proper := consistent.procs name p live
  have free : w.holder ≠ some name := fun holds => by
    have locked := proper.lock.mpr holds
    simp [stage, Stage.locked] at locked
  have gone := consistent.remove name w.holder (by rw [if_neg free])
  refine ⟨gone.held, fun other q alive => ?_, fun r member => ?_⟩
  · have properly := gone.procs other q alive
    exact ⟨properly.lock, properly.entry, properly.dropped, properly.settled, properly.quiet,
      properly.promised⟩
  rcases List.mem_append.mp member with old | new
  · exact consistent.reports r old
  · obtain rfl := List.mem_singleton.mp new
    exact proper.settled (by simp [stage, Stage.settled])

/-- Every action of a live process. -/
theorem act (lawful : scheme.Lawful covers serves) (consistent : Consistent scheme covers serves w)
    (live : w.procs name = some p) {action : Action ι ε} {next : World ι χ ρ π ω}
    (acted : Batching.act scheme w name p action = some next) :
    Consistent scheme covers serves next := by
  cases action with
  | lock =>
    simp only [Batching.act] at acted
    split at acted <;> [rename_i stage; contradiction]
    split at acted <;> [rename_i free; contradiction]
    obtain rfl := Option.some.inj acted
    exact consistent.lock live stage (Option.isNone_iff_eq_none.mp free)
  | check =>
    simp only [Batching.act] at acted
    split at acted <;> [rename_i stage; contradiction]
    obtain rfl := Option.some.inj acted
    exact consistent.check live stage
  | drop =>
    simp only [Batching.act] at acted
    split at acted <;> [rename_i success stage; contradiction]
    obtain rfl := Option.some.inj acted
    exact consistent.drop live stage
  | list names =>
    simp only [Batching.act] at acted
    split at acted <;> [rename_i stage; contradiction]
    split at acted <;> [skip; contradiction]
    obtain rfl := Option.some.inj acted
    have idle := consistent.notify_nil_of_stage live (by simp [stage, Stage.merging])
    exact consistent.collect live (by simp [stage, Stage.locked]) (by simp [stage, Stage.dropped])
      rfl (by simp [idle])
  | read =>
    simp only [Batching.act] at acted
    split at acted <;> [rename_i key rest plan stage; contradiction]
    obtain ⟨q, done, rfl⟩ := Option.map_eq_some_iff.mp acted
    obtain ⟨⟨_, _, collecting⟩, promised⟩ := consistent.readEntry_promised lawful live stage done
    exact consistent.collect live (by simp [stage, Stage.locked]) (by simp [stage, Stage.dropped])
      collecting promised
  | work env =>
    simp only [Batching.act] at acted
    split at acted <;> [rename_i plan stage; contradiction]
    obtain rfl := Option.some.inj acted
    exact consistent.work lawful live stage env
  | mark =>
    simp only [Batching.act] at acted
    split at acted <;> [rename_i key rest stage next; contradiction]
    obtain rfl := Option.some.inj acted
    exact consistent.mark live stage next
  | release =>
    simp only [Batching.act] at acted
    split at acted <;> [rename_i stage idle; contradiction]
    obtain rfl := Option.some.inj acted
    exact consistent.release live stage idle
  | finish =>
    simp only [Batching.act] at acted
    split at acted <;> [rename_i stage; contradiction]
    obtain rfl := Option.some.inj acted
    exact consistent.finish live stage
  | fail =>
    obtain rfl := Option.some.inj acted
    exact consistent.remove name _ rfl

/-- Every step that writes records under clean names only. -/
theorem step (lawful : scheme.Lawful covers serves) (consistent : Consistent scheme covers serves w)
    {event : Event ι χ ε} (clean : cleanName w event = true) {next : World ι χ ρ π ω}
    (stepped : Batching.step scheme w event = some next) :
    Consistent scheme covers serves next := by
  cases event with
  | request name own =>
    simp only [Batching.step] at stepped
    split at stepped <;> [rename_i free; contradiction]
    obtain rfl := Option.some.inj stepped
    exact consistent.request clean (Option.isNone_iff_eq_none.mp free)
  | act name action =>
    obtain ⟨p, live, acted⟩ := Option.bind_eq_some_iff.mp stepped
    exact consistent.act lawful live acted

end Consistent

/-- In every run in which records are written under clean names only, every process that ends
well was served by work that was done between its request and its end. -/
theorem reports_served (lawful : scheme.Lawful covers serves) {w : World ι χ ρ π ω}
    (run : Run (step scheme) (fun w event => cleanName w event = true) .initial w) :
    ∀ r ∈ w.reports, Served scheme serves r.request r.works := by
  have consistent : Consistent scheme covers serves w :=
    run_invariant (Consistent scheme covers serves) (fun _ _ _ consistent clean stepped =>
      consistent.step lawful clean stepped) run initial_consistent
  exact consistent.reports

end Copr.Batching
