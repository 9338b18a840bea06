import Mathlib.Data.List.Nodup
import Mathlib.Logic.Function.Basic
import Copr.Lib.Lines
import Copr.Lib.Runs

/-!
# Concurrent changes to the list of redirects

`PulpHTTPRedirect.add` and `remove` of any number of processes on one file. Each step is a read of
the file, the acquisition or the release of the lock, the opening of the file for writing, or the
arrival of some of the printed pieces in the file: what is printed is buffered, so several pieces
can arrive at once and others read the file in between. The lock is exclusive.
-/

namespace Copr.RedirectList

open Runs Lines

/-- The two methods. -/
inductive Method
  /-- `add`. -/
  | add
  /-- `remove`. -/
  | remove
  deriving DecidableEq, Repr

/-- A call. -/
structure Call where
  /-- The method. -/
  method : Method
  /-- `owner`. -/
  owner : List Char
  /-- `project`, or `dirname`. -/
  project : List Char
  deriving DecidableEq, Repr

namespace Call

variable (call : Call)

/-- `fullname`. -/
def fullname : Line := call.owner ++ '/' :: call.project

/-- The test after which the method returns at once. -/
def isDone (projects : List Line) : Bool :=
  match call.method with
  | .add => decide (call.fullname ∈ projects)
  | .remove => decide (call.fullname ∉ projects)

/-- The lines that are printed; `add` does not use what it has read. -/
def printed (projects : List Line) : List Line :=
  match call.method with
  | .add => [call.fullname]
  | .remove => projects.filter fun p => p ≠ call.fullname

/-- The content just after `open`, with mode `"a"` or `"w"`. -/
def opened (text : List Char) : List Char :=
  match call.method with
  | .add => text
  | .remove => []

/-- The content after a call that no other call meets. -/
def run (text : List Char) : List Char :=
  if call.isDone (splitLines text) then text
  else call.opened text ++ printLines (call.printed (splitLines text))

end Call

/-- How far a call has come. -/
inductive Phase
  /-- Not called yet. -/
  | notCalled
  /-- The test has passed, the lock is awaited. -/
  | waiting
  /-- The lock is held. -/
  | locked
  /-- The file has been read again. -/
  | reread (projects : List Line)
  /-- The file is open for writing, and these pieces have not arrived in it. -/
  | writing (rest : List Line)
  /-- The call has returned. -/
  | returned
  deriving DecidableEq, Repr

/-- What a call does next. -/
inductive Action
  /-- Read the file and test. -/
  | test
  /-- Acquire the lock. -/
  | acquire
  /-- Read the file under the lock. -/
  | reread
  /-- Open the file for writing, and print. -/
  | opening
  /-- One piece more than given arrives in the file. -/
  | flush (more : Nat)
  /-- Close the file, release the lock, return. -/
  | release
  deriving DecidableEq, Repr

variable {ι : Type*}

/-- The file, the lock and the calls. -/
structure State (ι : Type*) where
  /-- The content, if there is such a file. -/
  file : Option (List Char)
  /-- The call that holds the lock. -/
  holder : Option ι
  /-- The phase of each call. -/
  phase : ι → Phase

namespace State

/-- The content; nothing, where there is no file. -/
def text (s : State ι) : List Char := s.file.getD []

/-- The pieces that have been printed and have not arrived. -/
def pending (s : State ι) : List Line :=
  match s.holder with
  | none => []
  | some i =>
    match s.phase i with
    | .writing rest => rest
    | _ => []

/-- The content once all that has been printed has arrived. -/
def settled (s : State ι) : List Char := s.text ++ s.pending.flatten

end State

/-- Nobody has called yet. -/
def start (text : List Char) : State ι :=
  { file := some text, holder := none, phase := fun _ => .notCalled }

variable [DecidableEq ι]

namespace State

/-- Set the phase of one call. -/
def set (s : State ι) (i : ι) (phase : Phase) : State ι :=
  { s with phase := Function.update s.phase i phase }

/-- A call returns and gives the lock back. -/
def leave (s : State ι) (i : ι) : State ι := { s.set i .returned with holder := none }

end State

/-- One step of one call. A missing file ends the call, since `FileNotFoundError` is ignored. -/
def step (calls : ι → Call) (s : State ι) : ι × Action → Option (State ι)
  | (i, action) => match action, s.phase i with
  | .test, .notCalled =>
    match s.file with
    | none => some (s.set i .returned)
    | some text =>
      some (s.set i (if (calls i).isDone (splitLines text) then .returned else .waiting))
  | .acquire, .waiting =>
    if s.holder = none then some { s.set i .locked with holder := some i } else none
  | .reread, .locked =>
    match s.file with
    | none => some (s.leave i)
    | some text => some (s.set i (.reread (splitLines text)))
  | .opening, .reread projects =>
    some { s.set i (.writing (pieces ((calls i).printed projects))) with
      file := some ((calls i).opened s.text) }
  | .flush more, .writing rest =>
    if rest = [] then none
    else some { s.set i (.writing (rest.drop (more + 1))) with
      file := some (s.text ++ (rest.take (more + 1)).flatten) }
  | .release, .writing [] => some (s.leave i)
  | _, _ => none

/-- Nothing goes wrong in this step: the name is one line; an `add` that reads the file under the
lock does not find its name there; a `remove` whose test does not find its name would not find it
in the file with all that was printed either. -/
def sound (calls : ι → Call) (s : State ι) (event : ι × Action) : Bool :=
  let call := calls event.1
  match event.2, call.method with
  | .test, .add => decide (Unbroken call.fullname)
  | .test, .remove => decide (Unbroken call.fullname) &&
      (decide (call.fullname ∈ splitLines s.text) ||
        decide (call.fullname ∉ splitLines s.settled))
  | .reread, .add => decide (call.fullname ∉ splitLines s.text)
  | _, _ => true

/-- Every call that was made has returned. -/
def Finished (s : State ι) : Prop := ∀ i, s.phase i = .notCalled ∨ s.phase i = .returned

/-- One call returned before the other one was made. -/
def Precedes (calls : ι → Call) (s : State ι) (trace : List (ι × Action)) (i j : ι) : Prop :=
  ∃ before after u, trace = before ++ after ∧
    exec (step calls) (fun _ _ => true) s before = some u ∧
    u.phase i = .returned ∧ u.phase j = .notCalled

/-- A file that holds a list: distinct lines, each with its end. -/
structure Listing where
  /-- The lines. -/
  lines : List Line
  /-- No line has a boundary inside. -/
  unbroken : ∀ line ∈ lines, Unbroken line
  /-- No line stands there twice. -/
  nodup : lines.Nodup

/-- The content of the file. -/
def Listing.text (listing : Listing) : List Char := printLines listing.lines

namespace Phase

/-- The call holds the lock. -/
def inside : Phase → Bool
  | .locked | .reread _ | .writing _ => true
  | _ => false

/-- The call has had its effect. -/
def effective : Phase → Bool
  | .writing _ | .returned => true
  | _ => false

end Phase

/-- What holds while the calls have had their effects in the given order: once all that was printed
has arrived, the file holds the listing. -/
structure Inv (calls : ι → Call) (initial : List Char) (order : List ι) (listing : Listing)
    (s : State ι) : Prop where
  /-- A part of the pieces of the listing has arrived. -/
  written : ∃ w, w ++ s.pending = pieces listing.lines ∧ s.file = some w.flatten
  /-- The listing is what the calls make one after another. -/
  sequential : listing.text = order.foldl (fun text i => (calls i).run text) initial
  /-- No call has its effect twice. -/
  nodup : order.Nodup
  /-- The calls in the order. -/
  members : ∀ i, i ∈ order ↔ (s.phase i).effective = true
  /-- The lock excludes. -/
  holds : ∀ i, (s.phase i).inside = true ↔ s.holder = some i
  /-- What was read under the lock is still so. -/
  current : ∀ i projects, s.phase i = .reread projects →
    projects = listing.lines ∧ ((calls i).method = .add → (calls i).fullname ∉ listing.lines)
  /-- The names of the calls are lines. -/
  unbroken : ∀ i, s.phase i ≠ .notCalled → Unbroken (calls i).fullname

variable {calls : ι → Call} {initial : List Char} {order : List ι} {listing : Listing}
  {s t : State ι} {i j : ι}

omit [DecidableEq ι] in
/-- The file of a listing is read back. -/
theorem Listing.read (listing : Listing) : splitLines listing.text = listing.lines :=
  splitLines_printLines listing.unbroken

/-- The phases after one was set. -/
theorem State.phase_set (s : State ι) (i j : ι) (phase : Phase) :
    (s.set i phase).phase j = if j = i then phase else s.phase j := by
  simp [State.set, Function.update_apply]

omit [DecidableEq ι] in
/-- Without a holder nothing is pending. -/
theorem State.pending_of_free (free : s.holder = none) : s.pending = [] := by
  simp [State.pending, free]

omit [DecidableEq ι] in
/-- The pending pieces are those of the holder. -/
theorem State.pending_of_holder (held : s.holder = some i) :
    s.pending = match s.phase i with
      | .writing rest => rest
      | _ => [] := by
  simp [State.pending, held]

/-- The pending pieces after a step of the holder. -/
theorem State.pending_after {file : Option (List Char)} {holder : Option ι}
    (held : holder = some i) (phase : Phase) :
    State.pending { s.set i phase with file, holder } = match phase with
      | .writing rest => rest
      | _ => [] := by
  rw [State.pending_of_holder held]
  have now : State.phase { s.set i phase with file, holder } i = phase := by
    simp [State.set]
  rw [now]

/-- A call outside the lock has no pending pieces. -/
theorem State.pending_set (outside : s.holder ≠ some i) (phase : Phase) :
    (s.set i phase).pending = s.pending := by
  have same : (s.set i phase).holder = s.holder := rfl
  cases held : s.holder with
  | none => rw [State.pending_of_free held, State.pending_of_free (same.trans held)]
  | some k =>
    have other : k ≠ i := by
      rintro rfl
      exact outside held
    rw [State.pending_of_holder held, State.pending_of_holder (same.trans held),
      State.phase_set, if_neg other]

namespace Inv

omit [DecidableEq ι] in
/-- With all that was printed, the file is the text of the listing. -/
theorem settled_eq (inv : Inv calls initial order listing s) : s.settled = listing.text := by
  obtain ⟨w, split, content⟩ := inv.written
  rw [State.settled, State.text, content, Option.getD_some, ← List.flatten_append, split]
  rfl

omit [DecidableEq ι] in
/-- The lines in the file are the first of the listing. -/
theorem lines_prefix (inv : Inv calls initial order listing s) :
    splitLines s.text <+: listing.lines := by
  obtain ⟨w, split, content⟩ := inv.written
  rw [State.text, content]
  exact splitLines_written listing.unbroken split

omit [DecidableEq ι] in
/-- With nothing pending the file holds the listing. -/
theorem text_eq (inv : Inv calls initial order listing s) (none : s.pending = []) :
    s.text = listing.text := by
  rw [← inv.settled_eq, State.settled, none, List.flatten_nil, List.append_nil]

omit [DecidableEq ι] in
/-- The file does not vanish. -/
theorem file_eq (inv : Inv calls initial order listing s) : s.file = some s.text := by
  obtain ⟨w, -, content⟩ := inv.written
  rw [State.text, content, Option.getD_some]

omit [DecidableEq ι] in
/-- A call outside the lock does not hold it. -/
theorem outside (inv : Inv calls initial order listing s) (phase : (s.phase i).inside = false) :
    s.holder ≠ some i := by
  intro held
  rw [(inv.holds i).mpr held] at phase
  contradiction

end Inv

/-! ## What a call does to a listing -/

namespace Call

variable (call : Call)

/-- The lines after the call, as a list without repetitions that stands for a set. -/
def changed (lines : List Line) : List Line :=
  match call.method with
  | .add => if call.fullname ∈ lines then lines else lines ++ [call.fullname]
  | .remove => lines.filter fun p => p ≠ call.fullname

/-- A call with nothing to do changes nothing. -/
theorem changed_of_isDone {lines : List Line} (done : call.isDone lines = true) :
    call.changed lines = lines := by
  cases method : call.method with
  | add =>
    simp only [isDone, method, decide_eq_true_eq] at done
    simp only [changed, method, if_pos done]
  | remove =>
    simp only [isDone, method, decide_eq_true_eq] at done
    simp only [changed, method]
    refine List.filter_eq_self.mpr fun p member => ?_
    rw [decide_eq_true_eq]
    rintro rfl
    exact done member

/-- What is opened and printed, where an addition is one. -/
theorem opened_printed {lines : List Line}
    (fresh : call.method = .add → call.fullname ∉ lines) :
    call.opened (printLines lines) ++ printLines (call.printed lines) =
      printLines (call.changed lines) := by
  cases method : call.method with
  | add =>
    simp only [opened, printed, changed, method, if_neg (fresh method), printLines_append]
  | remove => simp only [opened, printed, changed, method, List.nil_append]

/-- The lines of a call are lines. -/
theorem unbroken_changed {lines : List Line} (unbroken : ∀ line ∈ lines, Unbroken line)
    (name : Unbroken call.fullname) : ∀ line ∈ call.changed lines, Unbroken line := by
  intro line member
  cases method : call.method with
  | add =>
    simp only [changed, method] at member
    split at member
    · exact unbroken line member
    · rcases List.mem_append.mp member with old | new
      · exact unbroken line old
      · rw [List.mem_singleton.mp new]
        exact name
  | remove =>
    simp only [changed, method] at member
    exact unbroken line (List.mem_of_mem_filter member)

/-- What a call writes has no line twice if the lines that it has read have none. -/
theorem nodup_changed {lines : List Line} (nodup : lines.Nodup) : (call.changed lines).Nodup := by
  cases method : call.method with
  | add =>
    simp only [changed, method]
    split
    · exact nodup
    · rename_i fresh
      refine List.Nodup.append nodup (List.nodup_singleton _) ?_
      rw [List.disjoint_singleton]
      exact fresh
  | remove =>
    simp only [changed, method]
    exact nodup.filter _

end Call

/-- The listing after a call. -/
def Listing.after (listing : Listing) (call : Call) (name : Unbroken call.fullname) : Listing where
  lines := call.changed listing.lines
  unbroken := call.unbroken_changed listing.unbroken name
  nodup := call.nodup_changed listing.nodup

/-- A call alone makes the listing after it. -/
theorem Call.run_text (call : Call) (listing : Listing) (name : Unbroken call.fullname) :
    call.run listing.text = (listing.after call name).text := by
  rw [Call.run, listing.read]
  by_cases done : call.isDone listing.lines = true
  · rw [if_pos done]
    exact (congrArg printLines (call.changed_of_isDone done)).symm
  · rw [if_neg done]
    refine call.opened_printed fun add present => done ?_
    simp only [Call.isDone, add, decide_eq_true_eq]
    exact present

/-! ## What each step keeps -/

/-- The order after a call got a phase: the call comes last, if it has its effect now. -/
def extended (order : List ι) (i : ι) (before after : Phase) : List ι :=
  if after.effective && !before.effective then order ++ [i] else order

namespace Inv

/-- A step of one call: the content and the listing are as required, the lock is taken by this call
or given back by it, and the listing changes under the lock only. -/
theorem set (inv : Inv calls initial order listing s) {phase : Phase} {file : Option (List Char)}
    {holder : Option ι} {after : Listing} {order' : List ι}
    (written : ∃ w, w ++ State.pending { s.set i phase with file, holder } = pieces after.lines ∧
      file = some w.flatten)
    (sequential : after.text = order'.foldl (fun text i => (calls i).run text) initial)
    (longer : order' = extended order i (s.phase i) phase)
    (lasting : (s.phase i).effective = true → phase.effective = true)
    (holds : phase.inside = true ↔ holder = some i)
    (others : ∀ k, k ≠ i → (holder = some k ↔ s.holder = some k))
    (current : ∀ projects, phase = .reread projects →
      projects = after.lines ∧ ((calls i).method = .add → (calls i).fullname ∉ after.lines))
    (excluded : s.holder = some i ∨ after = listing) (name : Unbroken (calls i).fullname) :
    Inv calls initial order' after { s.set i phase with file, holder } := by
  have phases : ∀ k, State.phase { s.set i phase with file, holder } k =
      if k = i then phase else s.phase k := fun k => s.phase_set i k phase
  refine ⟨written, sequential, ?_, ?_, ?_, ?_, ?_⟩
  · rw [longer, extended]
    split
    · rename_i first
      rw [Bool.and_eq_true, Bool.not_eq_true'] at first
      refine List.Nodup.append inv.nodup (List.nodup_singleton i) ?_
      rw [List.disjoint_singleton, inv.members, first.2]
      exact Bool.false_ne_true
    · exact inv.nodup
  · intro k
    rw [phases, longer, extended]
    by_cases same : k = i
    · subst same
      rw [if_pos rfl]
      have known := inv.members k
      cases now : phase.effective <;> cases past : (s.phase k).effective <;>
        simp_all
    · rw [if_neg same, ← inv.members]
      split <;> simp [same]
  · intro k
    rw [phases]
    by_cases same : k = i
    · rw [same, if_pos rfl]
      exact holds
    · rw [if_neg same, inv.holds k]
      exact (others k same).symm
  · intro k projects read
    rw [phases] at read
    by_cases same : k = i
    · rw [if_pos same] at read
      rw [same]
      exact current projects read
    · rw [if_neg same] at read
      rcases excluded with held | unchanged
      · have inside : s.holder = some k := (inv.holds k).mp (by rw [read]; rfl)
        exact absurd (Option.some.inj (inside.symm.trans held)) same
      · rw [unchanged]
        exact inv.current k projects read
  · intro k called
    rw [phases] at called
    by_cases same : k = i
    · rw [same]
      exact name
    · rw [if_neg same] at called
      exact inv.unbroken k called

/-- The test: a call that finds nothing to do would find nothing to do in the listing either. -/
theorem test (inv : Inv calls initial order listing s)
    (ok : sound calls s (i, .test) = true) (fresh : s.phase i = .notCalled) {phase : Phase}
    (next : phase = if (calls i).isDone (splitLines s.text) then .returned else .waiting) :
    Inv calls initial (extended order i (s.phase i) phase) listing (s.set i phase) := by
  have name : Unbroken (calls i).fullname := by
    cases method : (calls i).method with
    | add => simpa [sound, method] using ok
    | remove =>
      simp only [sound, method, Bool.and_eq_true, decide_eq_true_eq] at ok
      exact ok.1
  have outside : s.holder ≠ some i := inv.outside (by rw [fresh]; rfl)
  have agrees : (calls i).isDone (splitLines s.text) = true →
      (calls i).isDone listing.lines = true := by
    intro nothing
    cases method : (calls i).method with
    | add =>
      simp only [Call.isDone, method, decide_eq_true_eq] at nothing ⊢
      exact inv.lines_prefix.subset nothing
    | remove =>
      simp only [Call.isDone, method, decide_eq_true_eq] at nothing ⊢
      simp only [sound, method, Bool.and_eq_true, Bool.or_eq_true, decide_eq_true_eq] at ok
      have settled := ok.2.resolve_left nothing
      rwa [inv.settled_eq, listing.read] at settled
  have plain : phase.inside = false ∧ ∀ projects, phase ≠ .reread projects := by
    rw [next]
    split <;> exact ⟨rfl, by intro projects same; cases same⟩
  refine inv.set ?_ ?_ rfl (by rw [fresh]; intro no; cases no) ?_ (fun k _ => Iff.rfl)
    (fun projects same => absurd same (plain.2 projects)) (Or.inr rfl) name
  · obtain ⟨w, split, content⟩ := inv.written
    have pending := State.pending_set outside phase
    exact ⟨w, by rw [← split, ← pending]; rfl, content⟩
  · rw [extended, fresh, inv.sequential, next]
    split
    · rename_i nothing
      have run : (calls i).run listing.text = listing.text := by
        rw [Call.run, listing.read, if_pos (agrees nothing)]
      change _ = (order ++ [i]).foldl _ initial
      rw [List.foldl_append, List.foldl_cons, List.foldl_nil, ← inv.sequential, run]
    · rfl
  · rw [plain.1]
    exact ⟨fun no => (nomatch no), fun held => absurd held outside⟩

/-- A waiting call takes the free lock and changes nothing else. -/
theorem acquire (inv : Inv calls initial order listing s) (waits : s.phase i = .waiting)
    (free : s.holder = none) :
    Inv calls initial order listing { s.set i .locked with holder := some i } := by
  refine inv.set ?_ inv.sequential (by rw [extended, waits]; rfl)
    (by rw [waits]; intro no; cases no) ⟨fun _ => rfl, fun _ => rfl⟩ ?_
    (fun projects no => nomatch no) (Or.inr rfl) (inv.unbroken i (by rw [waits]; simp))
  · obtain ⟨w, split, content⟩ := inv.written
    rw [State.pending_of_free free] at split
    exact ⟨w, (congrArg (w ++ ·) (State.pending_after rfl .locked)).trans split, content⟩
  · intro k other
    rw [free]
    exact ⟨fun same => absurd (Option.some.inj same).symm other, fun no => nomatch no⟩

omit [DecidableEq ι] in
/-- A holder that is not writing leaves nothing pending. -/
theorem pending_of_phase (inv : Inv calls initial order listing s)
    (inside : (s.phase i).inside = true) (quiet : ∀ rest, s.phase i ≠ .writing rest) :
    s.pending = [] := by
  rw [State.pending_of_holder ((inv.holds i).mp inside)]
  split
  · rename_i rest writing
    exact absurd writing (quiet rest)
  · rfl

/-- The call that holds the lock reads the file as it is. -/
theorem reread (inv : Inv calls initial order listing s)
    (ok : sound calls s (i, .reread) = true) (locked : s.phase i = .locked) :
    Inv calls initial order listing (s.set i (.reread (splitLines s.text))) := by
  have inside : (s.phase i).inside = true := by rw [locked]; rfl
  have held := (inv.holds i).mp inside
  have quiet : s.pending = [] := inv.pending_of_phase inside (by rw [locked]; simp)
  have read : splitLines s.text = listing.lines := by rw [inv.text_eq quiet, listing.read]
  refine inv.set ?_ inv.sequential (by rw [extended, locked]; rfl)
    (by rw [locked]; intro no; cases no) ⟨fun _ => held, fun _ => rfl⟩ (fun k _ => Iff.rfl) ?_
    (Or.inr rfl) (inv.unbroken i (by rw [locked]; simp))
  · obtain ⟨w, split, content⟩ := inv.written
    rw [quiet] at split
    exact ⟨w, (congrArg (w ++ ·) (State.pending_after held _)).trans split, content⟩
  · rintro projects ⟨rfl⟩
    refine ⟨read, fun add => ?_⟩
    rw [← read]
    simpa [sound, add] using ok

/-- The file is opened for writing: the call has its effect. -/
theorem opening (inv : Inv calls initial order listing s) {projects : List Line}
    (read : s.phase i = .reread projects) :
    ∃ after, Inv calls initial (order ++ [i]) after
      { s.set i (.writing (pieces ((calls i).printed projects))) with
        file := some ((calls i).opened s.text) } := by
  have inside : (s.phase i).inside = true := by rw [read]; rfl
  have held := (inv.holds i).mp inside
  have name := inv.unbroken i (by rw [read]; simp)
  have quiet : s.pending = [] := inv.pending_of_phase inside (by rw [read]; simp)
  obtain ⟨rfl, fresh⟩ := inv.current i projects read
  refine ⟨listing.after (calls i) name, inv.set ?_ ?_ (by rw [extended, read]; rfl)
    (fun _ => rfl) ⟨fun _ => held, fun _ => rfl⟩ (fun k _ => Iff.rfl)
    (fun projects no => nomatch no) (Or.inl held) name⟩
  · have pending : State.pending { s.set i (.writing (pieces ((calls i).printed listing.lines)))
        with file := some ((calls i).opened s.text) } =
        pieces ((calls i).printed listing.lines) := State.pending_after held _
    suffices opened : ∃ w, w ++ pieces ((calls i).printed listing.lines) =
        pieces ((calls i).changed listing.lines) ∧ (calls i).opened s.text = w.flatten by
      obtain ⟨w, split, content⟩ := opened
      exact ⟨w, (congrArg (w ++ ·) pending).trans split, congrArg some content⟩
    rw [inv.text_eq quiet]
    cases method : (calls i).method with
    | add =>
      refine ⟨pieces listing.lines, ?_, ?_⟩
      · have missing := fresh method
        simp only [Call.printed, Call.changed, method, if_neg missing, pieces_append]
      · simp only [Call.opened, method, Listing.text, printLines]
    | remove =>
      refine ⟨[], ?_, ?_⟩
      · simp only [Call.printed, Call.changed, method, List.nil_append]
      · simp only [Call.opened, method, List.flatten_nil]
  · rw [List.foldl_append, List.foldl_cons, List.foldl_nil, ← inv.sequential,
      Call.run_text _ _ name]

/-- Pieces of the text arrive in the file while the call holds the lock. -/
theorem flush (inv : Inv calls initial order listing s) {rest : List Line} {more : Nat}
    (writing : s.phase i = .writing rest) :
    Inv calls initial order listing { s.set i (.writing (rest.drop (more + 1))) with
      file := some (s.text ++ (rest.take (more + 1)).flatten) } := by
  have held := (inv.holds i).mp (by rw [writing]; rfl)
  have name := inv.unbroken i (by rw [writing]; simp)
  refine inv.set ?_ inv.sequential (by rw [extended, writing]; rfl) (fun _ => rfl)
    ⟨fun _ => held, fun _ => rfl⟩ (fun k _ => Iff.rfl) (fun projects no => nomatch no)
    (Or.inr rfl) name
  obtain ⟨w, split, content⟩ := inv.written
  rw [State.pending_of_holder held, writing] at split
  refine ⟨w ++ rest.take (more + 1), ?_, ?_⟩
  · refine (congrArg (w ++ rest.take (more + 1) ++ ·) (State.pending_after held _)).trans ?_
    change w ++ rest.take (more + 1) ++ rest.drop (more + 1) = pieces listing.lines
    rw [List.append_assoc, List.take_append_drop]
    exact split
  · rw [State.text, content, List.flatten_append, Option.getD_some]

/-- A call that has written everything returns and frees the lock. -/
theorem leave (inv : Inv calls initial order listing s) (writing : s.phase i = .writing []) :
    Inv calls initial order listing (s.leave i) := by
  have held := (inv.holds i).mp (by rw [writing]; rfl)
  have name := inv.unbroken i (by rw [writing]; simp)
  refine inv.set ?_ inv.sequential (by rw [extended, writing]; rfl) (fun _ => rfl)
    ⟨fun no => (nomatch no), fun no => (nomatch no)⟩ ?_ (fun projects no => nomatch no)
    (Or.inr rfl) name
  · obtain ⟨w, split, content⟩ := inv.written
    rw [State.pending_of_holder held, writing] at split
    exact ⟨w, (congrArg (w ++ ·) (State.pending_of_free rfl)).trans split, content⟩
  · intro k other
    rw [held]
    exact ⟨fun no => (nomatch no), fun same => absurd (Option.some.inj same).symm other⟩

/-- One sound step: the order is extended, and the file still holds a listing. -/
theorem step (inv : Inv calls initial order listing s) {event : ι × Action}
    (ok : sound calls s event = true) (moved : step calls s event = some t) :
    ∃ order' after, order <+: order' ∧ Inv calls initial order' after t := by
  obtain ⟨i, action⟩ := event
  have longer : ∀ before phase, order <+: extended order i before phase := by
    intro before phase
    rw [extended]
    split
    · exact List.prefix_append order [i]
    · exact List.prefix_rfl
  simp only [RedirectList.step] at moved
  split at moved
  · rename_i fresh
    rw [inv.file_eq] at moved
    obtain rfl := Option.some.inj moved
    exact ⟨_, listing, longer _ _, inv.test ok fresh rfl⟩
  · rename_i waits
    split at moved
    · rename_i free
      obtain rfl := Option.some.inj moved
      exact ⟨order, listing, List.prefix_rfl, inv.acquire waits free⟩
    · contradiction
  · rename_i locked
    rw [inv.file_eq] at moved
    obtain rfl := Option.some.inj moved
    exact ⟨order, listing, List.prefix_rfl, inv.reread ok locked⟩
  · rename_i projects read
    obtain rfl := Option.some.inj moved
    obtain ⟨after, kept⟩ := inv.opening read
    exact ⟨order ++ [i], after, List.prefix_append order [i], kept⟩
  · rename_i more rest writing
    split at moved
    · contradiction
    · obtain rfl := Option.some.inj moved
      exact ⟨order, listing, List.prefix_rfl, inv.flush writing⟩
  · rename_i writing
    obtain rfl := Option.some.inj moved
    exact ⟨order, listing, List.prefix_rfl, inv.leave writing⟩
  · contradiction

/-- Any number of sound steps: the order at every point of the run is a prefix of the last one. -/
theorem exec (inv : Inv calls initial order listing s) {trace : List (ι × Action)}
    (done : exec (RedirectList.step calls) (sound calls) s trace = some t) :
    ∃ order' after, order <+: order' ∧ Inv calls initial order' after t ∧
      ∀ before later u, trace = before ++ later →
        Runs.exec (RedirectList.step calls) (sound calls) s before = some u →
        ∃ early then_, early <+: order' ∧ Inv calls initial early then_ u := by
  induction trace generalizing s order listing with
  | nil =>
    obtain rfl := Option.some.inj done
    refine ⟨order, listing, List.prefix_rfl, inv, ?_⟩
    intro before later u split ran
    obtain ⟨rfl, -⟩ := List.append_eq_nil_iff.mp split.symm
    obtain rfl := Option.some.inj ran
    exact ⟨order, listing, List.prefix_rfl, inv⟩
  | cons event trace ih =>
    rw [Runs.exec] at done
    split at done
    · rename_i ok
      obtain ⟨v, moved, rest⟩ := Option.bind_eq_some_iff.mp done
      obtain ⟨order', after, longer, kept⟩ := inv.step ok moved
      obtain ⟨order'', last, further, final, points⟩ := ih kept rest
      refine ⟨order'', last, longer.trans further, final, ?_⟩
      intro before later u split ran
      cases before with
      | nil =>
        obtain rfl := Option.some.inj ran
        exact ⟨order, listing, longer.trans further, inv⟩
      | cons first before =>
        obtain ⟨rfl, same⟩ := List.cons.inj split
        rw [Runs.exec, if_pos ok, moved] at ran
        exact points before later u same ran
    · contradiction

end Inv

omit [DecidableEq ι] in
/-- Before any call the file holds the listing. -/
theorem inv_start (calls : ι → Call) (listing : Listing) :
    Inv calls listing.text [] listing (start listing.text) where
  written := ⟨pieces listing.lines, List.append_nil _, rfl⟩
  sequential := rfl
  nodup := List.nodup_nil
  members i := by simp [start, Phase.effective]
  holds i := by simp [start, Phase.inside]
  current i projects read := nomatch read
  unbroken i called := absurd rfl called

/-- A call that meets no other one runs through, and leaves what `Call.run` says. -/
theorem alone (calls : ι → Call) (text : List Char) (i : ι) :
    ∃ trace s, (∀ event ∈ trace, event.1 = i) ∧
      exec (step calls) (fun _ _ => true) (start text) trace = some s ∧
      s.phase i = .returned ∧ s.text = (calls i).run text := by
  by_cases nothing : (calls i).isDone (splitLines text) = true
  · refine ⟨[(i, .test)], (start text).set i .returned, by simp, ?_, ?_, ?_⟩
    · simp [exec, step, start, nothing]
    · rw [State.phase_set, if_pos rfl]
    · rw [Call.run, if_pos nothing]
      rfl
  · let rest := pieces ((calls i).printed (splitLines text))
    let opened : State ι := { (start text).set i (.writing rest) with
      file := some ((calls i).opened text), holder := some i }
    let last : State ι := { (start text).set i .returned with
      file := some ((calls i).opened text ++ rest.flatten), holder := none }
    have entered : exec (step calls) (fun _ _ => true) (start text)
        [(i, .test), (i, .acquire), (i, .reread), (i, .opening)] = some opened := by
      simp [exec, step, start, nothing, State.set, State.text, opened, rest]
    have result : last.text = (calls i).run text := by
      rw [Call.run, if_neg nothing]
      rfl
    have shut : last.phase i = .returned := by simp [last, State.set]
    -- Without a line to print nothing arrives, otherwise all pieces arrive at once.
    rcases cases : rest with _ | ⟨piece, pieces⟩
    · refine ⟨[(i, .test), (i, .acquire), (i, .reread), (i, .opening)] ++ [(i, .release)], last,
        by simp, ?_, shut, result⟩
      rw [exec_append, entered]
      simp [exec, step, State.leave, State.set, opened, last, cases]
    · refine ⟨[(i, .test), (i, .acquire), (i, .reread), (i, .opening)] ++
        [(i, .flush pieces.length), (i, .release)], last, by simp, ?_, shut, result⟩
      rw [exec_append, entered]
      simp [exec, step, State.leave, State.set, State.text, opened, last, cases]

/-- Among any number of sound steps, the file never holds a line twice; when every call has
returned, its content is that of the calls made one after another, in an order in which a call that
returned before another was made stands before it. -/
theorem redirects_form_a_set (calls : ι → Call) (listing : Listing) (trace : List (ι × Action))
    (s : State ι)
    (done : exec (step calls) (sound calls) (start listing.text) trace = some s) :
    (splitLines s.text).Nodup ∧
      (Finished s → ∃ order : List ι, order.Nodup ∧ (∀ i, i ∈ order ↔ s.phase i = .returned) ∧
        (∀ i j, s.phase j = .returned → Precedes calls (start listing.text) trace i j →
          [i, j].Sublist order) ∧
        s.text = order.foldl (fun text i => (calls i).run text) listing.text) := by
  obtain ⟨order, after, -, inv, points⟩ := (inv_start calls listing).exec done
  refine ⟨inv.lines_prefix.sublist.nodup after.nodup, fun finished => ?_⟩
  have effective : ∀ i, (s.phase i).effective = true ↔ s.phase i = .returned := by
    intro i
    rcases finished i with phase | phase <;> simp [phase, Phase.effective]
  refine ⟨order, inv.nodup, fun i => (inv.members i).trans (effective i), ?_, ?_⟩
  · rintro i j returned ⟨before, later, u, rfl, ran, first, second⟩
    have executed := done
    rw [exec_append] at executed
    obtain ⟨v, reached, -⟩ := Option.bind_eq_some_iff.mp executed
    obtain rfl := Option.some.inj ((exec_unguarded reached).symm.trans ran)
    -- The first call stands in the order of that point, the second one is added later.
    obtain ⟨early, then_, ⟨tail, rfl⟩, there⟩ := points before later v rfl reached
    have earlier : i ∈ early := by rw [there.members, first]; rfl
    have absent : j ∉ early := by rw [there.members, second]; exact Bool.false_ne_true
    have present : j ∈ early ++ tail := (inv.members j).mpr ((effective j).mpr returned)
    have added : j ∈ tail := (List.mem_append.mp present).resolve_left absent
    exact (List.singleton_sublist.mpr earlier).append (List.singleton_sublist.mpr added)
  · have quiet : s.pending = [] := by
      cases held : s.holder with
      | none => exact State.pending_of_free held
      | some k =>
        have inside := (inv.holds k).mpr held
        rcases finished k with phase | phase <;> rw [phase] at inside <;> contradiction
    rw [inv.text_eq quiet, inv.sequential]

/-! ## Runs -/

/-- An addition and a removal. -/
def additionAndRemoval : Bool → Call
  | false => { method := .add, owner := ['o'], project := ['q'] }
  | true => { method := .remove, owner := ['o'], project := ['p'] }

/-- A file with one project. -/
def oneProject : Listing where
  lines := [['o', '/', 'p']]
  unbroken := by decide
  nodup := by decide

/-- The removal tests first and gets the lock last. -/
def overlapping : List (Bool × Action) :=
  [(true, .test), (false, .test), (false, .acquire), (false, .reread), (false, .opening),
    (false, .flush 0), (false, .flush 0), (false, .release), (true, .acquire), (true, .reread),
    (true, .opening), (true, .flush 1), (true, .release)]

/-- The calls of such a run are sound. -/
theorem redirects_form_a_set_overlapping :
    ∃ s, exec (step additionAndRemoval) (sound additionAndRemoval) (start oneProject.text)
      overlapping = some s ∧ Finished s ∧ (splitLines s.text).Nodup := by
  refine ⟨_, rfl, ?_, (redirects_form_a_set additionAndRemoval oneProject overlapping _ rfl).1⟩
  intro i
  cases i <;> exact Or.inr rfl

/-- Two calls that add one name. -/
def sameAddition : Bool → Call := fun _ => { method := .add, owner := ['o'], project := ['p'] }

/-- Both calls test before one of them has the lock. -/
def bothTested : List (Bool × Action) :=
  [(false, .test), (true, .test), (false, .acquire), (false, .reread), (false, .opening),
    (false, .flush 1), (false, .release), (true, .acquire), (true, .reread), (true, .opening),
    (true, .flush 1), (true, .release)]

/-- Both have returned, and the name stands in the file twice: the second call has read it under the
lock and added it all the same. -/
theorem redirect_listed_twice :
    ∃ s, exec (step sameAddition) (fun _ _ => true) (start []) bothTested = some s ∧ Finished s ∧
      splitLines s.text = [['o', '/', 'p'], ['o', '/', 'p']] ∧ ¬ (splitLines s.text).Nodup := by
  refine ⟨_, rfl, ?_, ?_, ?_⟩
  · intro i
    cases i <;> exact Or.inr rfl
  · decide
  · decide

/-- A removal whose test reads the file while another removal rewrites it is lost. -/
example :
    let calls : Bool → Call := fun i =>
      { method := .remove, owner := ['o'], project := if i then ['p'] else ['q'] }
    (exec (step calls) (fun _ _ => true) (start (printLines [['o', '/', 'p'], ['o', '/', 'q']]))
      [(false, .test), (false, .acquire), (false, .reread), (false, .opening), (true, .test),
        (false, .flush 1), (false, .release)]).map
      (fun s => (splitLines s.text, s.phase true)) = some ([['o', '/', 'p']], .returned) := by
  decide

end Copr.RedirectList
