import Mathlib.Data.List.DropRight
import Mathlib.Logic.Function.Basic
import Copr.Backend.HitCounter
import Copr.Lib.Runs

/-!
# Counters of downloads

`coprs/logic/stat_logic.py`, to which `update_frontend` posts its report through `SafeRequest`. The
report is added to the counters one commit after another, and it is sent again when no good answer
comes back. The events are any interleaving of the sender, the attempts that the frontend
handles, which go on when the sender has given up on them, and other reports.
-/

namespace Copr.CounterStats

open Text Tallies HitCounter

/-! ## Keys and names of counters -/

/-- `CounterStatType`. -/
inductive CounterStatType where
  /-- `REPO_DL`. -/
  | repoDl
  /-- `CHROOT_RPMS_DL`. -/
  | chrootRpmsDl
  /-- `CHROOT_REPO_MD_DL`. -/
  | chrootRepoMdDl
  /-- `PROJECT_RPMS_DL`. -/
  | projectRpmsDl
  deriving DecidableEq, Repr

/-- The text of a type. -/
def CounterStatType.value : CounterStatType → String
  | .repoDl => "repo_dl"
  | .chrootRpmsDl => "chroot_rpms_dl"
  | .chrootRepoMdDl => "chroot_repo_metadata_dl"
  | .projectRpmsDl => "project_rpms_dl"

/-- `CHROOT_REPO_MD_DL_STAT_FMT`. -/
def chrootRepoMdDlStatFmt (user project chroot : String) : String :=
  "chroot_repo_metadata_dl_stat:hset::" ++ user ++ "@" ++ project ++ ":" ++ chroot

/-- `CHROOT_RPMS_DL_STAT_FMT`. -/
def chrootRpmsDlStatFmt (user project chroot : String) : String :=
  "chroot_rpms_dl_stat:hset::" ++ user ++ "@" ++ project ++ ":" ++ chroot

/-- `PROJECT_RPMS_DL_STAT_FMT`. -/
def projectRpmsDlStatFmt (user project : String) : String :=
  "project_rpms_dl_stat:hset::" ++ user ++ "@" ++ project

/-- `stat_fmt.format`. It is `none` when a part is missing, as one always is for `REPO_DL`. -/
def statFmt (user project : String) (chroot : Option String) : CounterStatType → Option String
  | .repoDl => none
  | .chrootRepoMdDl => chroot.map (chrootRepoMdDlStatFmt user project)
  | .chrootRpmsDl => chroot.map (chrootRpmsDlStatFmt user project)
  | .projectRpmsDl => some (projectRpmsDlStatFmt user project)

/-- `get_stat_name` for a key string. It is `none` when an exception is raised. -/
def getStatName (statType : CounterStatType) (keyString : String) : Option String :=
  let keys := (split keyString '|').map String.ofList
  keys[0]?.bind fun user => keys[1]?.bind fun project => statFmt user project keys[2]? statType

/-- `stat_type.rstrip("_stat")`. -/
def rstripStat (statType : List Char) : String :=
  .ofList (statType.rdropWhile fun c => decide (c ∈ "_stat".toList))

/-- The types that `handle_be_stat_message` asserts. -/
def statTypes : List CounterStatType :=
  [.repoDl, .chrootRepoMdDl, .chrootRpmsDl, .projectRpmsDl]

/-- What `handle_be_stat_message` makes of a key: the type and the name of the counter; `none` when
an exception is raised. -/
def readKey (keyStr : String) : Option (CounterStatType × String) :=
  (cut '|' keyStr.toList).bind fun parts =>
    (statTypes.find? fun statType => statType.value == rstripStat parts.1).bind fun statType =>
      (getStatName statType (.ofList parts.2)).map fun name => (statType, name)

/-! ## The system -/

/-- A row of `CounterStat`, besides its name. -/
structure CounterStat where
  /-- `counter_type`. -/
  counterType : String
  /-- `counter`. -/
  counter : Nat
  deriving DecidableEq, Repr

/-- The table of counters by name. -/
abbrev Counters := String → Option CounterStat

/-- Where `incr` stands. -/
inductive IncrPhase where
  /-- It looks for the row. -/
  | select
  /-- It adds the row and commits. -/
  | insert
  /-- It adds to the counter and commits. -/
  | update
  deriving DecidableEq, Repr

/-- The frontend handles an attempt. -/
structure Handler where
  /-- The hits that it has added. -/
  done : Nat
  /-- Where `incr` stands with the next one. -/
  phase : IncrPhase
  /-- It has ended with an exception. -/
  crashed : Bool
  deriving DecidableEq, Repr

/-- Where `_send_request_repeatedly` stands. -/
inductive Sender where
  /-- So many attempts have failed. -/
  | ready (attempts : Nat)
  /-- It waits for the answer; the frontend handles the attempt if it has got there. -/
  | waiting (attempts : Nat) (handler : Option Nat)
  /-- The attempt was answered; there was none when there was nothing to send. -/
  | succeeded (handler : Option Nat)
  /-- An exception was raised. -/
  | failed
  deriving DecidableEq, Repr

/-- The sender and the frontend. -/
structure System where
  /-- The counters. -/
  counters : Counters
  /-- What is made of each attempt. -/
  handlers : List Handler
  /-- The sender. -/
  sender : Sender

/-- What happens. -/
inductive Event where
  /-- The sender makes the next attempt, which gets to the frontend or not. -/
  | send (arrives : Bool)
  /-- A `RequestRetryError`: the connection or the time is over, or the server has an error,
  whatever becomes of the attempt. -/
  | retry
  /-- A `RequestError`. -/
  | refuse
  /-- The answer of the frontend gets to the sender. -/
  | answer (handler : Nat)
  /-- A handler looks for the row. -/
  | select (handler : Nat)
  /-- A handler adds the row. -/
  | insert (handler : Nat)
  /-- A handler adds the hits to the counter. -/
  | commit (handler : Nat)
  /-- A handler is broken off. -/
  | crash (handler : Nat)
  /-- Another report adds a row. -/
  | otherInsert (name counterType : String)
  /-- Another report adds to a counter. -/
  | otherCommit (name : String) (count : Nat)
  deriving DecidableEq, Repr

/-- `SafeRequest.attempts`. -/
def attempts : Nat := 5

/-- A row is added; if someone was faster, it stays. -/
def Counters.insert (counters : Counters) (name counterType : String) : Counters :=
  Function.update counters name
    (some ((counters name).getD { counterType := counterType, counter := 0 }))

/-- The rows with a name are updated. -/
def Counters.add (counters : Counters) (name : String) (count : Nat) : Counters :=
  Function.update counters name
    ((counters name).map fun row => { row with counter := row.counter + count })

/-- The next hits of a handler, with the counter for them. -/
def Handler.next (hits : List (String × Nat)) (h : Handler) :
    Option ((CounterStatType × String) × Nat) :=
  if h.crashed then none
  else hits[h.done]?.bind fun hit => (readKey hit.1).map fun counter => (counter, hit.2)

/-- A handler goes on with its next hits if it is in the phase. -/
def System.handle (hits : List (String × Nat)) (s : System) (i : Nat) (phase : IncrPhase)
    (go : Handler → (CounterStatType × String) × Nat → Handler × Counters) : Option System :=
  s.handlers[i]?.bind fun h =>
    if h.phase = phase then
      (h.next hits).map fun next =>
        { s with handlers := s.handlers.set i (go h next).1, counters := (go h next).2 }
    else none

/-- One event. The sender tries indefinitely or a number of times. -/
def step (tryIndefinitely : Bool) (hits : List (String × Nat)) (s : System) : Event → Option System
  | .send arrives =>
    match s.sender with
    | .ready n =>
      if !tryIndefinitely && decide (attempts < n + 1) then some { s with sender := .failed }
      else if arrives then
        some { s with
          handlers := s.handlers ++ [⟨0, .select, false⟩]
          sender := .waiting (n + 1) (some s.handlers.length) }
      else some { s with sender := .waiting (n + 1) none }
    | _ => none
  | .retry =>
    match s.sender with
    | .waiting n _ => some { s with sender := .ready n }
    | _ => none
  | .refuse =>
    match s.sender with
    | .waiting _ _ => some { s with sender := .failed }
    | _ => none
  | .answer i =>
    match s.sender, s.handlers[i]? with
    | .waiting _ (some j), some h =>
      if i = j ∧ h.done = hits.length ∧ h.crashed = false then
        some { s with sender := .succeeded (some i) }
      else none
    | _, _ => none
  | .select i => s.handle hits i .select fun h next =>
      ({ h with phase := if (s.counters next.1.2).isSome then .update else .insert }, s.counters)
  | .insert i => s.handle hits i .insert fun h next =>
      ({ h with phase := .update }, s.counters.insert next.1.2 next.1.1.value)
  | .commit i => s.handle hits i .update fun h next =>
      (⟨h.done + 1, .select, false⟩, s.counters.add next.1.2 next.2)
  | .crash i => s.handlers[i]?.map fun h =>
      { s with handlers := s.handlers.set i { h with crashed := true } }
  | .otherInsert name counterType =>
    some { s with counters := s.counters.insert name counterType }
  | .otherCommit name count =>
    if (s.counters name).isSome then some { s with counters := s.counters.add name count } else none

/-- `update_frontend` begins with any counters. -/
def start (lib : Library) (accesses : List Access) (counters : Counters) : System where
  counters := counters
  handlers := []
  sender :=
    match getHitData lib accesses with
    | none => .failed
    | some none => .succeeded none
    | some (some _) => .ready 0

/-- A run of `update_frontend` with everything that happens meanwhile. -/
def run (lib : Library) (tryIndefinitely : Bool) (accesses : List Access) (counters : Counters)
    (events : List Event) : Option System :=
  Runs.exec (step tryIndefinitely (sentHits lib accesses)) (fun _ _ => true)
    (start lib accesses counters) events

/-- The value of a counter; a row that is missing counts nothing. -/
def Counters.value (counters : Counters) (name : String) : Nat :=
  (counters name).elim 0 CounterStat.counter

/-- What an event adds to a counter for another report. -/
def Event.adds (name : String) : Event → Nat
  | .otherCommit other count => if other = name then count else 0
  | _ => 0

/-- What other reports have added to a counter. -/
def addedByOthers (events : List Event) (name : String) : Nat := (events.map (Event.adds name)).sum

/-- The sender has succeeded. -/
def System.Succeeded (s : System) : Prop := ∃ handler, s.sender = .succeeded handler

/-! ## What one event does -/

/-- The hits that an attempt has added. -/
def System.done (s : System) (i : Nat) : Nat := s.handlers[i]?.elim 0 Handler.done

/-- The key is read as this counter. -/
def namedFor (name key : String) : Bool := decide ((readKey key).map Prod.snd = some name)

/-- What the attempts have added to a counter. -/
def System.delivered (s : System) (hits : List (String × Nat)) (name : String) : Nat :=
  (s.handlers.map fun h => weight (namedFor name) (hits.take h.done)).sum

variable {tryIndefinitely : Bool} {hits : List (String × Nat)} {s t : System} {e : Event}

/-- A handler that can go on has not crashed and stands before hits with a key that can be read. -/
theorem next_some {h : Handler} {next : (CounterStatType × String) × Nat}
    (here : h.next hits = some next) :
    h.crashed = false ∧ ∃ key, hits[h.done]? = some (key, next.2) ∧ readKey key = some next.1 := by
  unfold Handler.next at here
  split at here
  · contradiction
  · rename_i going
    obtain ⟨hit, there, rest⟩ := Option.bind_eq_some_iff.mp here
    obtain ⟨counter, read, rfl⟩ := Option.map_eq_some_iff.mp rest
    exact ⟨Bool.eq_false_iff.mpr going, hit.1, there, read⟩

/-- A handler goes on in the phase in which it is. -/
theorem handle_some {i : Nat} {phase : IncrPhase}
    {go : Handler → (CounterStatType × String) × Nat → Handler × Counters}
    (moved : s.handle hits i phase go = some t) :
    ∃ h next, s.handlers[i]? = some h ∧ h.phase = phase ∧ h.next hits = some next ∧
      t = { s with handlers := s.handlers.set i (go h next).1, counters := (go h next).2 } := by
  obtain ⟨h, here, rest⟩ := Option.bind_eq_some_iff.mp moved
  split at rest
  · rename_i same
    obtain ⟨next, there, rfl⟩ := Option.map_eq_some_iff.mp rest
    exact ⟨h, next, here, same, there, rfl⟩
  · contradiction

/-- The event changes the value of no counter. -/
def Event.quiet : Event → Bool
  | .commit _ => false
  | .otherCommit _ _ => false
  | _ => true

/-- A quiet event adds nothing for another report. -/
theorem Event.adds_of_quiet {e : Event} (quiet : e.quiet = true) (name : String) :
    e.adds name = 0 := by
  cases e with
  | otherCommit => contradiction
  | _ => rfl

/-- A quiet event is no commit. -/
theorem Event.ne_commit_of_quiet {e : Event} (quiet : e.quiet = true) (i : Nat) :
    e ≠ .commit i := by
  rintro rfl
  contradiction

/-- The counters are as they were, or have a row more that counts nothing. -/
def Counters.SameValues (old new : Counters) : Prop :=
  new = old ∨ ∃ name counterType, new = old.insert name counterType

/-- What an event does to the attempts and the counters. -/
inductive Effect (hits : List (String × Nat)) (s : System) (e : Event) (t : System) : Prop where
  /-- Nothing at all. -/
  | kept (quiet : e.quiet = true) (handlers : t.handlers = s.handlers)
      (counters : t.counters = s.counters)
  /-- An attempt gets to the frontend. -/
  | arrived (quiet : e.quiet = true) (handlers : t.handlers = s.handlers ++ [⟨0, .select, false⟩])
      (counters : t.counters = s.counters)
  /-- A handler goes on with the same hits, and is ready for the update only with a row. -/
  | moved (quiet : e.quiet = true) (i : Nat) (h h' : Handler) (here : s.handlers[i]? = some h)
      (handlers : t.handlers = s.handlers.set i h') (done : h'.done = h.done)
      (ready : h'.phase = .update → ∀ next, h'.next hits = some next →
        (t.counters next.1.2).isSome = true)
      (counters : s.counters.SameValues t.counters)
  /-- A handler commits the hits. -/
  | committed (i : Nat) (commits : e = .commit i) (h : Handler)
      (next : (CounterStatType × String) × Nat) (here : s.handlers[i]? = some h)
      (phase : h.phase = .update) (there : h.next hits = some next)
      (handlers : t.handlers = s.handlers.set i ⟨h.done + 1, .select, false⟩)
      (counters : t.counters = s.counters.add next.1.2 next.2)
  /-- Another report adds a row. -/
  | inserted (quiet : e.quiet = true) (handlers : t.handlers = s.handlers)
      (counters : s.counters.SameValues t.counters)
  /-- Another report adds to a counter. -/
  | added (name : String) (count : Nat) (adds : e = .otherCommit name count)
      (row : (s.counters name).isSome = true) (handlers : t.handlers = s.handlers)
      (counters : t.counters = s.counters.add name count)

/-- The rows of a table stay and one more is there. -/
theorem insert_isSome (counters : Counters) (name counterType other : String) :
    (counters.insert name counterType other).isSome = true ↔
      other = name ∨ (counters other).isSome = true := by
  unfold Counters.insert
  by_cases same : other = name
  · subst same
    rw [Function.update_self]
    simp
  · rw [Function.update_of_ne same]
    simp [same]

/-- A row that is added counts nothing. -/
theorem value_insert (counters : Counters) (name counterType other : String) :
    (counters.insert name counterType).value other = counters.value other := by
  unfold Counters.value Counters.insert
  by_cases same : other = name
  · subst same
    rw [Function.update_self]
    cases counters other <;> rfl
  · rw [Function.update_of_ne same]

/-- An update of a row adds to its counter. -/
theorem value_add {counters : Counters} {name : String} (count : Nat)
    (row : (counters name).isSome = true) (other : String) :
    (counters.add name count).value other =
      counters.value other + if name = other then count else 0 := by
  unfold Counters.value Counters.add
  by_cases same : name = other
  · subst same
    obtain ⟨old, found⟩ := Option.isSome_iff_exists.mp row
    rw [Function.update_self, found, if_pos rfl]
    rfl
  · rw [Function.update_of_ne (Ne.symm same), if_neg same, Nat.add_zero]

/-- An update neither adds nor removes rows. -/
theorem add_isSome (counters : Counters) (name : String) (count : Nat) (other : String) :
    (counters.add name count other).isSome = (counters other).isSome := by
  unfold Counters.add
  by_cases same : other = name
  · subst same
    rw [Function.update_self, Option.isSome_map]
  · rw [Function.update_of_ne same]

/-- The values are the same. -/
theorem Counters.SameValues.value {old new : Counters} (same : old.SameValues new) (name : String) :
    new.value name = old.value name := by
  rcases same with rfl | ⟨added, counterType, rfl⟩
  · rfl
  · exact value_insert _ _ _ _

/-- Counters with the same values have the same rows. -/
theorem Counters.SameValues.isSome {old new : Counters} (same : old.SameValues new) {name : String}
    (row : (old name).isSome = true) : (new name).isSome = true := by
  rcases same with rfl | ⟨added, counterType, rfl⟩
  · exact row
  · exact (insert_isSome _ _ _ _).mpr (Or.inr row)

/-- A handler that goes on within the hits moves. -/
theorem effect_of_handle {i : Nat} {phase : IncrPhase}
    {go : Handler → (CounterStatType × String) × Nat → Handler × Counters} (quiet : e.quiet = true)
    (moved : s.handle hits i phase go = some t)
    (done : ∀ h next, (go h next).1.done = h.done ∧ (go h next).1.crashed = h.crashed)
    (ready : ∀ h next, (go h next).1.phase = .update → ((go h next).2 next.1.2).isSome = true)
    (counters : ∀ h next, s.counters.SameValues (go h next).2) : Effect hits s e t := by
  obtain ⟨h, next, here, -, there, rfl⟩ := handle_some moved
  refine .moved quiet i h (go h next).1 here rfl (done h next).1 ?_ (counters h next)
  intro update again found
  have same : (go h next).1.next hits = h.next hits := by
    unfold Handler.next
    rw [(done h next).1, (done h next).2]
  rw [same, there] at found
  obtain rfl := Option.some.inj found
  exact ready h next update

/-- Every event has one of the effects. -/
theorem step_effect (stepped : step tryIndefinitely hits s e = some t) : Effect hits s e t := by
  cases e with
  | send arrives =>
    simp only [step] at stepped
    split at stepped
    · split at stepped
      · obtain rfl := Option.some.inj stepped
        exact .kept rfl rfl rfl
      · split at stepped
        · obtain rfl := Option.some.inj stepped
          exact .arrived rfl rfl rfl
        · obtain rfl := Option.some.inj stepped
          exact .kept rfl rfl rfl
    · contradiction
  | retry =>
    simp only [step] at stepped
    split at stepped
    · obtain rfl := Option.some.inj stepped
      exact .kept rfl rfl rfl
    · contradiction
  | refuse =>
    simp only [step] at stepped
    split at stepped
    · obtain rfl := Option.some.inj stepped
      exact .kept rfl rfl rfl
    · contradiction
  | answer i =>
    simp only [step] at stepped
    split at stepped
    · split at stepped
      · obtain rfl := Option.some.inj stepped
        exact .kept rfl rfl rfl
      · contradiction
    · contradiction
  | select i =>
    refine effect_of_handle rfl stepped
      (fun _ _ => ⟨rfl, rfl⟩) ?_ fun _ _ => .inl rfl
    intro h next update
    simp only at update ⊢
    split at update
    · assumption
    · contradiction
  | insert i =>
    refine effect_of_handle rfl stepped
      (fun _ _ => ⟨rfl, rfl⟩) ?_ fun _ next => .inr ⟨_, _, rfl⟩
    intro h next _
    exact (insert_isSome _ _ _ _).mpr (Or.inl rfl)
  | commit i =>
    obtain ⟨h, next, here, phase, there, rfl⟩ := handle_some stepped
    exact .committed i rfl h next here phase there rfl rfl
  | crash i =>
    obtain ⟨h, here, rfl⟩ := Option.map_eq_some_iff.mp stepped
    refine .moved rfl i h { h with crashed := true } here rfl
      rfl ?_ (.inl rfl)
    intro _ next found
    exact nomatch (next_some found).1
  | otherInsert name counterType =>
    obtain rfl := Option.some.inj stepped
    exact .inserted rfl rfl (.inr ⟨_, _, rfl⟩)
  | otherCommit name count =>
    simp only [step] at stepped
    split at stepped
    · rename_i row
      obtain rfl := Option.some.inj stepped
      exact .added name count rfl row rfl rfl
    · contradiction

/-! ## What a run does -/

/-- The counters, the attempts and the events so far agree. -/
structure Accounts (hits : List (String × Nat)) (counters : Counters) (events : List Event)
    (s : System) : Prop where
  /-- A counter has what was there, what other reports have added and what the attempts have. -/
  value : ∀ name, s.counters.value name =
    counters.value name + addedByOthers events name + s.delivered hits name
  /-- A handler is ready for the update only with a row. -/
  ready : ∀ (i : Nat) (h : Handler), s.handlers[i]? = some h → h.phase = .update → ∀ next,
    h.next hits = some next → (s.counters next.1.2).isSome = true
  /-- An attempt has added hits exactly when it has committed something. -/
  commits : ∀ i, .commit i ∈ events ↔ 0 < s.done i
  /-- No attempt has added more than the hits. -/
  within : ∀ i, s.done i ≤ hits.length

/-- One event more adds what it adds. -/
theorem addedByOthers_concat (events : List Event) (e : Event) (name : String) :
    addedByOthers (events ++ [e]) name = addedByOthers events name + e.adds name := by
  rw [addedByOthers, List.map_append, List.sum_append, List.map_singleton, List.sum_singleton]
  rfl

/-- With the same handlers each attempt has added the same. -/
theorem done_congr (handlers : t.handlers = s.handlers) (i : Nat) : t.done i = s.done i := by
  unfold System.done
  rw [handlers]

/-- With the same handlers the same is delivered. -/
theorem delivered_congr (handlers : t.handlers = s.handlers) (name : String) :
    t.delivered hits name = s.delivered hits name := by
  unfold System.delivered
  rw [handlers]

/-- A new attempt has added nothing. -/
theorem done_arrived (handlers : t.handlers = s.handlers ++ [⟨0, .select, false⟩]) (i : Nat) :
    t.done i = s.done i := by
  unfold System.done
  rw [handlers]
  by_cases old : i < s.handlers.length
  · rw [List.getElem?_append_left old]
  · have beyond : s.handlers.length ≤ i := Nat.le_of_not_lt old
    rw [List.getElem?_append_right beyond, List.getElem?_eq_none beyond]
    cases i - s.handlers.length <;> rfl

/-- What the attempts have added after a handler was set. -/
theorem done_set {i : Nat} {h h' : Handler} (here : s.handlers[i]? = some h)
    (handlers : t.handlers = s.handlers.set i h') (j : Nat) :
    t.done j = if i = j then h'.done else s.done j := by
  have inside : i < s.handlers.length := (List.getElem?_eq_some_iff.mp here).1
  unfold System.done
  rw [handlers, List.getElem?_set]
  by_cases same : i = j
  · subst same
    rw [if_pos rfl, if_pos inside, if_pos rfl]
    rfl
  · rw [if_neg same, if_neg same]

/-- What is delivered after a handler was set. -/
theorem delivered_set (hits : List (String × Nat)) {i : Nat} {h h' : Handler}
    (here : s.handlers[i]? = some h)
    (handlers : t.handlers = s.handlers.set i h') (name : String) :
    t.delivered hits name + weight (namedFor name) (hits.take h.done) =
      s.delivered hits name + weight (namedFor name) (hits.take h'.done) := by
  unfold System.delivered
  rw [handlers]
  exact sum_map_set (fun h => weight (namedFor name) (hits.take h.done)) here h'

/-- A handler of the new list is that which was set or an old one. -/
theorem getElem?_set_cases {i j : Nat} {h' x : Handler}
    (there : (s.handlers.set i h')[j]? = some x) : x = h' ∨ s.handlers[j]? = some x := by
  rw [List.getElem?_set] at there
  split at there
  · split at there
    · exact Or.inl (Option.some.inj there).symm
    · contradiction
  · exact Or.inr there

/-- At the start the counters, the attempts and the events agree. -/
theorem accounts_start (lib : Library) (accesses : List Access) (counters : Counters) :
    Accounts hits counters [] (start lib accesses counters) where
  value _ := rfl
  ready _ _ here := nomatch here
  commits _ := iff_of_false List.not_mem_nil (Nat.lt_irrefl 0)
  within _ := Nat.zero_le _

/-- A quiet event that changes no values and no attempts keeps the accounts. -/
theorem Accounts.quiet {counters : Counters} {events : List Event}
    (accounts : Accounts hits counters events s) (quiet : e.quiet = true)
    (values : s.counters.SameValues t.counters) (done : ∀ i, t.done i = s.done i)
    (delivered : ∀ name, t.delivered hits name = s.delivered hits name)
    (ready : ∀ (i : Nat) (h : Handler), t.handlers[i]? = some h → h.phase = .update → ∀ next,
      h.next hits = some next → (t.counters next.1.2).isSome = true) :
    Accounts hits counters (events ++ [e]) t where
  value name := by
    rw [addedByOthers_concat, Event.adds_of_quiet quiet, values.value, delivered, Nat.add_zero]
    exact accounts.value name
  ready := ready
  commits i := by
    rw [List.mem_append, List.mem_singleton, or_iff_left (Event.ne_commit_of_quiet quiet i).symm,
      done, accounts.commits]
  within i := (done i).trans_le (accounts.within i)

/-- Every effect keeps the accounts. -/
theorem Accounts.effect {counters : Counters} {events : List Event}
    (accounts : Accounts hits counters events s) (effect : Effect hits s e t) :
    Accounts hits counters (events ++ [e]) t := by
  cases effect with
  | kept quiet handlers same =>
    refine accounts.quiet quiet (.inl same) (done_congr handlers) (delivered_congr handlers) ?_
    rw [handlers, same]
    exact accounts.ready
  | arrived quiet handlers same =>
    refine accounts.quiet quiet (.inl same) (done_arrived handlers) ?_ ?_
    · intro name
      rw [System.delivered, handlers, List.map_append, List.sum_append, List.map_singleton,
        List.sum_singleton, List.take_zero]
      rfl
    · intro i h there update
      rw [same]
      rw [handlers] at there
      rcases List.mem_append.mp (List.mem_of_getElem? there) with old | new
      · obtain ⟨j, here⟩ := List.mem_iff_getElem?.mp old
        exact accounts.ready j h here update
      · obtain rfl := List.mem_singleton.mp new
        contradiction
  | moved quiet i h h' here handlers kept ready same =>
    refine accounts.quiet quiet same (fun j => ?_) (fun name => ?_) ?_
    · rw [done_set here handlers]
      split
      · rename_i equal
        rw [← equal, kept, System.done, here]
        rfl
      · rfl
    · have moved := delivered_set hits here handlers name
      rw [kept] at moved
      exact Nat.add_right_cancel moved
    · intro j x there update next found
      rw [handlers] at there
      rcases getElem?_set_cases there with rfl | old
      · exact ready update next found
      · exact same.isSome (accounts.ready j x old update next found)
  | committed i commits h next here phase there handlers same =>
    obtain ⟨-, key, hit, read⟩ := next_some there
    have row := accounts.ready i h here phase next there
    have done : ∀ j, t.done j = if i = j then h.done + 1 else s.done j := done_set here handlers
    refine ⟨fun name => ?_, ?_, fun j => ?_, fun j => ?_⟩
    · have moved := delivered_set hits here handlers name
      have value := accounts.value name
      have named : namedFor name key = decide (next.1.2 = name) := by
        rw [namedFor, read, Option.map_some]
        exact decide_eq_decide.mpr (Option.some_inj)
      rw [weight_take_succ hit, named] at moved
      rw [addedByOthers_concat, same, value_add _ row, value, commits]
      simp only [decide_eq_true_eq, Event.adds] at moved ⊢
      omega
    · intro j x listed update again found
      rw [same, add_isSome]
      rw [handlers] at listed
      rcases getElem?_set_cases listed with rfl | old
      · contradiction
      · exact accounts.ready j x old update again found
    · rw [List.mem_append, List.mem_singleton, accounts.commits, commits, Event.commit.injEq, done]
      split
      · rename_i equal
        exact iff_of_true (Or.inr equal.symm) (Nat.succ_pos _)
      · rename_i other
        exact or_iff_left (Ne.symm other)
    · rw [done]
      split
      · exact (List.getElem?_eq_some_iff.mp hit).1
      · exact accounts.within j
  | inserted quiet handlers same =>
    refine accounts.quiet quiet same (done_congr handlers) (delivered_congr handlers) ?_
    rw [handlers]
    exact fun i h here update next found => same.isSome (accounts.ready i h here update next found)
  | added name count adds row handlers same =>
    refine ⟨fun other => ?_, ?_, fun i => ?_, fun i => ?_⟩
    · rw [addedByOthers_concat, same, value_add _ row, accounts.value, delivered_congr handlers,
        adds]
      simp only [Event.adds]
      omega
    · rw [handlers, same]
      intro i h here update next found
      rw [add_isSome]
      exact accounts.ready i h here update next found
    · rw [List.mem_append, List.mem_singleton, adds, or_iff_left (fun same => nomatch same),
        done_congr handlers, accounts.commits]
    · rw [done_congr handlers]
      exact accounts.within i

/-- The sender does nothing any more. -/
def Sender.isOver : Sender → Bool
  | .succeeded _ => true
  | .failed => true
  | _ => false

/-- What an event does to the sender. -/
inductive SenderEffect (hits : List (String × Nat)) (s : System) (e : Event) (t : System) :
    Prop where
  /-- Nothing. -/
  | kept (other : ∀ i, e ≠ .answer i) (sender : t.sender = s.sender)
  /-- The sender goes on or fails. -/
  | tried (other : ∀ i, e ≠ .answer i) (before : s.sender.isOver = false)
      (after : ∀ handler, t.sender ≠ .succeeded handler)
  /-- The sender gets the answer. -/
  | answered (i : Nat) (answers : e = .answer i) (before : s.sender.isOver = false)
      (after : t.sender = .succeeded (some i)) (whole : s.done i = hits.length)

/-- A handler that goes on leaves the sender. -/
theorem sender_of_handle {i : Nat} {phase : IncrPhase}
    {go : Handler → (CounterStatType × String) × Nat → Handler × Counters}
    (moved : s.handle hits i phase go = some t) : t.sender = s.sender := by
  obtain ⟨h, next, -, -, -, rfl⟩ := handle_some moved
  rfl

/-- Every event has one of these effects on the sender. -/
theorem step_senderEffect (stepped : step tryIndefinitely hits s e = some t) :
    SenderEffect hits s e t := by
  cases e with
  | send arrives =>
    simp only [step] at stepped
    split at stepped
    · rename_i n ready
      refine .tried (fun _ same => by contradiction) (by rw [ready]; rfl) (fun _ same => ?_)
      split at stepped
      · obtain rfl := Option.some.inj stepped
        contradiction
      · split at stepped
        · obtain rfl := Option.some.inj stepped
          contradiction
        · obtain rfl := Option.some.inj stepped
          contradiction
    · contradiction
  | retry =>
    simp only [step] at stepped
    split at stepped
    · rename_i waiting
      obtain rfl := Option.some.inj stepped
      exact .tried (fun _ same => by contradiction) (by rw [waiting]; rfl)
        (fun _ same => by contradiction)
    · contradiction
  | refuse =>
    simp only [step] at stepped
    split at stepped
    · rename_i waiting
      obtain rfl := Option.some.inj stepped
      exact .tried (fun _ same => by contradiction) (by rw [waiting]; rfl)
        (fun _ same => by contradiction)
    · contradiction
  | answer i =>
    simp only [step] at stepped
    split at stepped
    · rename_i n j h waiting here
      split at stepped
      · rename_i whole
        obtain rfl := Option.some.inj stepped
        refine .answered i rfl (by rw [waiting]; rfl) rfl ?_
        rw [System.done, here]
        exact whole.2.1
      · contradiction
    · contradiction
  | select i => exact .kept (fun _ same => by contradiction) (sender_of_handle stepped)
  | insert i => exact .kept (fun _ same => by contradiction) (sender_of_handle stepped)
  | commit i => exact .kept (fun _ same => by contradiction) (sender_of_handle stepped)
  | crash i =>
    obtain ⟨h, here, rfl⟩ := Option.map_eq_some_iff.mp stepped
    exact .kept (fun _ same => by contradiction) rfl
  | otherInsert name counterType =>
    obtain rfl := Option.some.inj stepped
    exact .kept (fun _ same => by contradiction) rfl
  | otherCommit name count =>
    simp only [step] at stepped
    split at stepped
    · obtain rfl := Option.some.inj stepped
      exact .kept (fun _ same => by contradiction) rfl
    · contradiction

/-- The sender and the events so far agree. -/
structure Answered (hits : List (String × Nat)) (first : Sender) (events : List Event)
    (s : System) : Prop where
  /-- The sender has succeeded with the attempt that was answered. -/
  answered : ∀ i, .answer i ∈ events ↔ s.sender = .succeeded (some i)
  /-- That attempt has added all hits. -/
  whole : ∀ i, s.sender = .succeeded (some i) → s.done i = hits.length
  /-- Without an attempt there was nothing to send. -/
  nothing : s.sender = .succeeded none → hits = []
  /-- A sender that has failed at once does nothing. -/
  failed : first = .failed → s.sender = .failed

/-- At the start the sender and the events agree. -/
theorem answered_start (lib : Library) (accesses : List Access) (counters : Counters) :
    Answered (sentHits lib accesses) (start lib accesses counters).sender []
      (start lib accesses counters) := by
  have sender : ∀ handler, (start lib accesses counters).sender = .succeeded handler →
      handler = none ∧ sentHits lib accesses = [] := by
    intro handler succeeded
    unfold start at succeeded
    unfold sentHits
    cases found : getHitData lib accesses with
    | none =>
      rw [found] at succeeded
      contradiction
    | some result =>
      rw [found] at succeeded
      cases result with
      | none => exact ⟨(Sender.succeeded.inj succeeded).symm, rfl⟩
      | some data => contradiction
  refine ⟨fun i => iff_of_false List.not_mem_nil fun succeeded => ?_, fun i succeeded => ?_,
    fun succeeded => (sender none succeeded).2, id⟩
  · exact nomatch (sender _ succeeded).1
  · exact nomatch (sender _ succeeded).1

/-- Every event keeps the agreement, as no attempt loses hits. -/
theorem Answered.step {first : Sender} {events : List Event}
    (answered : Answered hits first events s) (effect : SenderEffect hits s e t)
    (grows : ∀ i, s.done i ≤ t.done i) (within : ∀ i, t.done i ≤ hits.length) :
    Answered hits first (events ++ [e]) t := by
  have going : s.sender.isOver = false → ∀ handler, s.sender ≠ .succeeded handler := by
    intro before handler succeeded
    rw [succeeded] at before
    contradiction
  have tried : s.sender.isOver = false → first ≠ .failed := by
    intro before failed
    rw [answered.failed failed] at before
    contradiction
  cases effect with
  | kept other sender =>
    refine ⟨fun i => ?_, fun i succeeded => ?_, fun succeeded => ?_, fun failed => ?_⟩
    · rw [List.mem_append, List.mem_singleton, or_iff_left (other i).symm, sender,
        answered.answered]
    · have whole := answered.whole i (sender ▸ succeeded)
      have more := grows i
      have most := within i
      omega
    · exact answered.nothing (sender ▸ succeeded)
    · rw [sender, answered.failed failed]
  | tried other before after =>
    refine ⟨fun i => ?_, fun i succeeded => absurd succeeded (after _),
      fun succeeded => absurd succeeded (after _), fun failed => absurd failed (tried before)⟩
    rw [List.mem_append, List.mem_singleton, or_iff_left (other i).symm, answered.answered]
    exact iff_of_false (going before _) (after _)
  | answered i answers before after whole =>
    refine ⟨fun j => ?_, fun j succeeded => ?_, fun succeeded => ?_,
      fun failed => absurd failed (tried before)⟩
    · rw [List.mem_append, List.mem_singleton, answered.answered, or_iff_right (going before _),
        answers, after, Event.answer.injEq, Sender.succeeded.injEq, Option.some_inj, eq_comm]
    · rw [after] at succeeded
      obtain rfl := Option.some.inj (Sender.succeeded.inj succeeded)
      have more := grows i
      have most := within i
      omega
    · rw [after] at succeeded
      exact nomatch Sender.succeeded.inj succeeded

/-- No event takes back what an attempt has counted. -/
theorem Effect.grows (effect : Effect hits s e t) (i : Nat) : s.done i ≤ t.done i := by
  cases effect with
  | kept _ handlers _ => exact (done_congr handlers i).ge
  | arrived _ handlers _ => exact (done_arrived handlers i).ge
  | moved _ j h h' here handlers kept _ _ =>
    rw [done_set here handlers]
    split
    · rename_i same
      rw [← same, kept, System.done, here]
      exact Nat.le_refl _
    · exact Nat.le_refl _
  | committed j _ h next here _ _ handlers _ =>
    rw [done_set here handlers]
    split
    · rename_i same
      rw [← same, System.done, here]
      exact Nat.le_succ _
    · exact Nat.le_refl _
  | inserted _ handlers _ => exact (done_congr handlers i).ge
  | added _ _ _ _ handlers _ => exact (done_congr handlers i).ge

/-- Every run keeps the accounts. -/
theorem run_accounts {lib : Library} {accesses : List Access} {counters : Counters}
    {events : List Event} (ran : run lib tryIndefinitely accesses counters events = some s) :
    Accounts (sentHits lib accesses) counters events s ∧
      Answered (sentHits lib accesses) (start lib accesses counters).sender events s := by
  induction events using List.reverseRecOn generalizing s with
  | nil =>
    obtain rfl := Option.some.inj ran
    exact ⟨accounts_start lib accesses counters, answered_start lib accesses counters⟩
  | append_singleton events e ih =>
    rw [run, Runs.exec_append] at ran
    obtain ⟨u, before, last⟩ := Option.bind_eq_some_iff.mp ran
    obtain ⟨accounts, answered⟩ := ih before
    rw [Runs.exec, if_pos rfl] at last
    obtain ⟨v, stepped, done⟩ := Option.bind_eq_some_iff.mp last
    obtain rfl := Option.some.inj done
    have effect := step_effect stepped
    have next := accounts.effect effect
    exact ⟨next, answered.step (step_senderEffect stepped) effect.grows next.within⟩

end Copr.CounterStats
