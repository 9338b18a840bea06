import Mathlib.Data.List.Infix
import Mathlib.Tactic.Common

/-!
# Reading the output of a process

`copr_common/subprocess_live_output.py`: two threads read the streams of a process and put what
they read into one queue, and `readchunks` takes it out and yields it. The kernel decides how the
output is cut into reads, and the scheduler in which order the threads get to the queue. Here is
for which reads a limit is kept exactly.
-/

namespace Copr

/-- A stream of the process. -/
inductive Stream
  /-- `stdout`. -/
  | stdout
  /-- `stderr`. -/
  | stderr
  deriving DecidableEq, Repr

/-- Why reading stops, and the other markers in the queue. -/
inductive StopReason
  /-- `EOF`. -/
  | eof
  /-- `CUT`. -/
  | cut
  /-- `LOOP`. -/
  | loop
  /-- `TIMEOUT`. -/
  | timeout
  /-- `ERR`. -/
  | err
  deriving DecidableEq, Repr

/-- What `read1(1024)` returns before the end of a stream. -/
structure Chunk where
  /-- The bytes. -/
  bytes : List UInt8
  /-- Something was read. -/
  nonempty : bytes ≠ []
  /-- No more is read at once. -/
  small : bytes.length ≤ 1024

/-- One round of a thread that reads a stream. -/
inductive Poll
  /-- `select` reports an exceptional condition. -/
  | exceptional
  /-- Nothing can be read yet. -/
  | idle
  /-- A chunk is read. -/
  | read (chunk : Chunk)

/-- What a thread puts into the queue, besides the sentinel. -/
inductive Item
  /-- A chunk of the output. -/
  | chunk (bytes : List UInt8)
  /-- A marker. -/
  | marker (reason : StopReason)
  deriving DecidableEq, Repr

/-- `_pipe_consumer_thread`, with what was counted so far. A limit of zero is no limit. At the end
of the list the stream ends. -/
def pipeConsumerThread (maxlen : Option Nat) : Nat → List Poll → List Item
  | _, [] => [.marker .eof]
  | _, .exceptional :: _ => [.marker .err]
  | counter, .idle :: rest => .marker .loop :: pipeConsumerThread maxlen counter rest
  | counter, .read chunk :: rest =>
    if maxlen.getD 0 = 0 then .chunk chunk.bytes :: pipeConsumerThread maxlen counter rest
    else
      let remains := maxlen.getD 0 - counter
      let counter := counter + chunk.bytes.length
      if maxlen.getD 0 < counter then [.chunk (chunk.bytes.take remains), .marker .cut]
      else .chunk chunk.bytes :: pipeConsumerThread maxlen counter rest

/-- An element of the queue; `none` is the sentinel that a thread puts last. -/
abbrev Queued := Option (Stream × Item)

/-- The queue gets what the two threads put into it, each in its own order. A thread that has
quit is `none`. -/
inductive Interleaved : Option (List Item) → Option (List Item) → List Queued → Prop
  /-- Both threads have quit. -/
  | done : Interleaved none none []
  /-- The first thread puts an item. -/
  | out (item : Item) {items : List Item} {err : Option (List Item)} {queue : List Queued} :
    Interleaved (some items) err queue →
      Interleaved (some (item :: items)) err (some (.stdout, item) :: queue)
  /-- The first thread quits. -/
  | outEnd {err : Option (List Item)} {queue : List Queued} :
    Interleaved none err queue → Interleaved (some []) err (none :: queue)
  /-- The second thread puts an item. -/
  | err (item : Item) {out : Option (List Item)} {items : List Item} {queue : List Queued} :
    Interleaved out (some items) queue →
      Interleaved out (some (item :: items)) (some (.stderr, item) :: queue)
  /-- The second thread quits. -/
  | errEnd {out : Option (List Item)} {queue : List Queued} :
    Interleaved out none queue → Interleaved out (some []) (none :: queue)

/-- What the reading process remembers, and what it has yielded. -/
structure Reader where
  /-- `_stopreason`. -/
  stopreason : StopReason := .eof
  /-- `killed`. -/
  killed : Bool := false
  /-- The yielded chunks. -/
  yielded : List (Stream × List UInt8) := []
  deriving DecidableEq, Repr

namespace Reader

/-- The setter of `stopreason`, which keeps the first reason, and `_kill`. -/
def stop (r : Reader) (reason : StopReason) : Reader :=
  { r with stopreason := if r.stopreason = .eof then reason else r.stopreason, killed := true }

/-- A chunk is yielded. -/
def yield (r : Reader) (fd : Stream) (bytes : List UInt8) : Reader :=
  { r with yielded := r.yielded ++ [(fd, bytes)] }

/-- `has_cut`. -/
def hasCut (r : Reader) : Bool := decide (r.stopreason = .cut)

/-- What was yielded for a stream. -/
def output (r : Reader) (fd : Stream) : List UInt8 :=
  (r.yielded.filter fun entry => decide (entry.1 = fd)).flatMap Prod.snd

end Reader

/-- How the loop of `readchunks` ends. -/
inductive Ending
  /-- Both sentinels were found. -/
  | ended
  /-- An assertion failed. -/
  | raised
  /-- The queue stays empty. -/
  | blocked
  deriving DecidableEq, Repr

/-- The loops of `readchunks`, with the number of sentinels that are still to be found. The
process has timed out or not when the elements of the queue are taken out. -/
def readchunks (timeouted : Nat → Bool) : Nat → Nat → List Queued → Reader → Ending × Reader
  | _, 0, _, r => (.ended, r)
  | _, _ + 1, [], r => (.blocked, r)
  | i, n + 1, none :: rest, r => readchunks timeouted (i + 1) n rest r
  | i, n + 1, some (fd, item) :: rest, r =>
    let r := if timeouted i then r.stop .timeout else r
    match item with
    | .chunk bytes =>
      if bytes.isEmpty then (.raised, r)
      else readchunks timeouted (i + 1) (n + 1) rest (r.yield fd bytes)
    | .marker .loop | .marker .eof => readchunks timeouted (i + 1) (n + 1) rest r
    | .marker .cut => readchunks timeouted (i + 1) (n + 1) rest (r.stop .cut)
    | .marker .err => readchunks timeouted (i + 1) (n + 1) rest (r.stop .err)
    | .marker .timeout => (.raised, r)

/-! ## What a thread puts into the queue -/

/-- The bytes of an item. -/
def Item.bytes : Item → List UInt8
  | .chunk bytes => bytes
  | .marker _ => []

/-- The bytes that were read in a round. -/
def Poll.bytes : Poll → List UInt8
  | .read chunk => chunk.bytes
  | .exceptional | .idle => []

/-- The bytes of a stream. -/
def delivered (polls : List Poll) : List UInt8 := polls.flatMap Poll.bytes

/-- The limit is reached exactly before a read, or is zero and something is read. -/
def MeetsLimit (limit : Option Nat) (polls : List Poll) : Prop :=
  ∃ before chunk after, polls = before ++ .read chunk :: after ∧
    limit = some (delivered before).length

/-- Nothing is read, or there is a first read. -/
theorem nothing_or_first (polls : List Poll) : delivered polls = [] ∨
    ∃ before chunk after, polls = before ++ .read chunk :: after ∧ delivered before = [] := by
  induction polls with
  | nil => exact Or.inl rfl
  | cons poll rest ih =>
    have skip (quiet : poll.bytes = []) : delivered (poll :: rest) = [] ∨
        ∃ before chunk after, poll :: rest = before ++ .read chunk :: after ∧
          delivered before = [] := by
      have more (polls : List Poll) : delivered (poll :: polls) = delivered polls := by
        show poll.bytes ++ delivered polls = _
        rw [quiet, List.nil_append]
      rw [more]
      apply ih.imp_right
      intro ⟨before, chunk, after, split, empty⟩
      exact ⟨poll :: before, chunk, after, by rw [split]; rfl, by rw [more, empty]⟩
    cases poll with
    | exceptional => exact skip rfl
    | idle => exact skip rfl
    | read chunk => exact Or.inr ⟨[], chunk, rest, rfl, rfl⟩

section Thread

variable {maxlen : Option Nat} {limit counter : Nat} {polls : List Poll} {items : List Item}

/-- Something was read, and the stream has more than its beginning. -/
theorem Chunk.length_pos (chunk : Chunk) : 0 < chunk.bytes.length :=
  List.length_pos_iff.mpr chunk.nonempty

/-- Without a limit everything is put into the queue as it was read. -/
theorem thread_unlimited (unlimited : maxlen.getD 0 = 0) (fine : Poll.exceptional ∉ polls) :
    (pipeConsumerThread maxlen counter polls).flatMap Item.bytes = delivered polls ∧
      Item.chunk [] ∉ pipeConsumerThread maxlen counter polls ∧
      Item.marker .cut ∉ pipeConsumerThread maxlen counter polls := by
  induction polls generalizing counter with
  | nil => simp [pipeConsumerThread, delivered, Item.bytes]
  | cons poll rest ih =>
    have ⟨first, others⟩ := List.ne_and_not_mem_of_not_mem_cons fine
    cases poll with
    | exceptional => exact absurd rfl first
    | idle =>
      have ⟨same, full, uncut⟩ := @ih counter others
      refine ⟨?_, ?_, ?_⟩
      · rw [pipeConsumerThread, List.flatMap_cons, same]
        rfl
      · simpa [pipeConsumerThread] using full
      · simpa [pipeConsumerThread] using uncut
    | read chunk =>
      have ⟨same, full, uncut⟩ := @ih counter others
      have some_ := chunk.nonempty
      rw [pipeConsumerThread, if_pos unlimited]
      refine ⟨?_, ?_, ?_⟩
      · rw [List.flatMap_cons, same]
        rfl
      · simpa [some_.symm] using full
      · simpa using uncut

/-- With a limit the beginning of the stream is put into the queue. The last chunk of it is empty
exactly when the limit is reached before a read. -/
theorem thread_limited (positive : limit ≠ 0) (within : counter ≤ limit)
    (fine : Poll.exceptional ∉ polls) :
    (pipeConsumerThread (some limit) counter polls).flatMap Item.bytes =
        (delivered polls).take (limit - counter) ∧
      (Item.chunk [] ∈ pipeConsumerThread (some limit) counter polls ↔
        ∃ before chunk after, polls = before ++ .read chunk :: after ∧
          limit = counter + (delivered before).length) ∧
      (Item.marker .cut ∈ pipeConsumerThread (some limit) counter polls ↔
        limit < counter + (delivered polls).length) := by
  induction polls generalizing counter with
  | nil => simp [pipeConsumerThread, delivered, Item.bytes, within]
  | cons poll rest ih =>
    have ⟨first, others⟩ := List.ne_and_not_mem_of_not_mem_cons fine
    cases poll with
    | exceptional => exact absurd rfl first
    | idle =>
      have ⟨same, full, cut⟩ := ih within others
      have less : delivered (.idle :: rest) = delivered rest := rfl
      rw [pipeConsumerThread, less]
      refine ⟨?_, ?_, ?_⟩
      · rw [List.flatMap_cons, same]
        rfl
      · rw [List.mem_cons, full]
        constructor
        · intro either
          cases either with
          | inl same => contradiction
          | inr later =>
            have ⟨before, chunk, after, split, meets⟩ := later
            exact ⟨.idle :: before, chunk, after, by rw [split]; rfl, meets⟩
        · intro ⟨before, chunk, after, split, meets⟩
          cases before with
          | nil => simp at split
          | cons poll before =>
            have ⟨same, tail⟩ := List.cons.inj split
            cases same
            exact Or.inr ⟨before, chunk, after, tail, meets⟩
      · simpa using cut
    | read chunk =>
      have some_ := chunk.length_pos
      have more : delivered (.read chunk :: rest) = chunk.bytes ++ delivered rest := rfl
      rw [pipeConsumerThread, if_neg (by simpa using positive), more]
      simp only [Option.getD_some]
      split
      · rename_i beyond
        refine ⟨?_, ?_, ?_⟩
        · have enough : limit - counter ≤ chunk.bytes.length := by omega
          simp [Item.bytes, List.take_append_of_le_length enough]
        · simp only [List.mem_cons, Item.chunk.injEq, List.not_mem_nil, or_false, reduceCtorEq]
          rw [eq_comm, List.take_eq_nil_iff, or_iff_left chunk.nonempty]
          constructor
          · intro none
            exact ⟨[], chunk, rest, rfl, by simp [delivered]; omega⟩
          · intro ⟨before, other, after, split, meets⟩
            cases before with
            | nil =>
              simp [delivered] at meets
              omega
            | cons poll before =>
              have ⟨same, tail⟩ := List.cons.inj split
              cases same
              have longer : delivered (.read chunk :: before) = chunk.bytes ++ delivered before :=
                rfl
              rw [longer, List.length_append] at meets
              omega
        · simp
          omega
      · rename_i within
        have ⟨same, full, cut⟩ := @ih (counter + chunk.bytes.length) (by omega) others
        refine ⟨?_, ?_, ?_⟩
        · rw [List.flatMap_cons, same, List.take_append]
          have all : chunk.bytes.take (limit - counter) = chunk.bytes :=
            List.take_of_length_le (by omega)
          have left : limit - (counter + chunk.bytes.length) =
              limit - counter - chunk.bytes.length := by omega
          rw [all, left]
          rfl
        · rw [List.mem_cons, full]
          constructor
          · intro either
            cases either with
            | inl same =>
              have same := Item.chunk.inj same
              exact absurd same.symm chunk.nonempty
            | inr later =>
              have ⟨before, other, after, split, meets⟩ := later
              refine ⟨.read chunk :: before, other, after, by rw [split]; rfl, ?_⟩
              have longer : delivered (.read chunk :: before) = chunk.bytes ++ delivered before :=
                rfl
              rw [longer, List.length_append]
              omega
          · intro ⟨before, other, after, split, meets⟩
            cases before with
            | nil =>
              cases split
              simp [delivered] at meets
              omega
            | cons poll before =>
              have ⟨same, tail⟩ := List.cons.inj split
              cases same
              have longer : delivered (.read chunk :: before) = chunk.bytes ++ delivered before :=
                rfl
              rw [longer, List.length_append] at meets
              exact Or.inr ⟨before, other, after, tail, by omega⟩
        · rw [List.mem_cons, cut, List.length_append]
          simp only [reduceCtorEq, false_or]
          omega

end Thread

/-! ## What is taken out of the queue -/

/-- The streams are read without a timeout, and neither of them has an exceptional condition. -/
def inTime : Nat → Bool := fun _ => false

/-- What a thread still has to put into the queue. -/
abbrev itemsLeft (thread : Option (List Item)) : List Item := thread.getD []

/-- How many of the two threads have not quit. -/
def threadsLeft (out err : Option (List Item)) : Nat :=
  (if out.isSome then 1 else 0) + if err.isSome then 1 else 0

section Queue

variable {out err : Option (List Item)} {queue : List Queued} {i : Nat} {r : Reader}

/-- The markers that do not come from a thread, and those of an exceptional condition. -/
def Item.Foreign (item : Item) : Prop :=
  item = .marker .err ∨ item = .marker .timeout

/-- What is yielded for a stream when a chunk is yielded. -/
theorem Reader.output_yield (r : Reader) (fd other : Stream) (bytes : List UInt8) :
    (r.yield fd bytes).output other = r.output other ++ if fd = other then bytes else [] := by
  by_cases same : fd = other
  · simp [Reader.output, Reader.yield, same]
  · simp [Reader.output, Reader.yield, same]

/-- What the process remembers after an item. -/
def Reader.take (r : Reader) (fd : Stream) : Item → Reader
  | .chunk bytes => r.yield fd bytes
  | .marker .cut => r.stop .cut
  | .marker _ => r

/-- What is yielded for a stream after an item. -/
theorem Reader.output_take (r : Reader) (fd other : Stream) (item : Item) :
    (r.take fd item).output other = r.output other ++ if fd = other then item.bytes else [] := by
  cases item with
  | chunk bytes => exact r.output_yield fd other bytes
  | marker reason =>
    have nothing : (if fd = other then (Item.marker reason).bytes else []) = [] := by
      split <;> rfl
    rw [nothing, List.append_nil]
    cases reason <;> rfl

/-- The reason why reading stopped, after an item. -/
theorem Reader.stopreason_take (r : Reader) (fd : Stream) (item : Item) :
    (r.take fd item).stopreason =
      if item = .marker .cut ∧ r.stopreason = .eof then .cut else r.stopreason := by
  cases item with
  | chunk bytes => simp [take, yield]
  | marker reason =>
    cases reason with
    | cut => simp [take, stop]
    | eof | loop | timeout | err => simp [take]

/-- An item of a thread is taken out. -/
theorem readchunks_item {n : Nat} {fd : Stream} {item : Item} (own : ¬ item.Foreign)
    (full : item ≠ .chunk []) : readchunks inTime i (n + 1) (some (fd, item) :: queue) r =
      readchunks inTime (i + 1) (n + 1) queue (r.take fd item) := by
  cases item with
  | chunk bytes =>
    have some_ : bytes.isEmpty = false := by simpa using full
    simp [readchunks, inTime, some_, Reader.take]
  | marker reason =>
    cases reason with
    | eof | loop | cut => rfl
    | timeout => exact absurd (Or.inr rfl) own
    | err => exact absurd (Or.inl rfl) own

/-- An empty chunk fails the assertion. -/
theorem readchunks_empty {n : Nat} {fd : Stream} :
    readchunks inTime i (n + 1) (some (fd, .chunk []) :: queue) r = (.raised, r) := rfl

/-- The items of a stream that are still to be put into the queue. -/
def itemsOf (out err : Option (List Item)) : Stream → List Item
  | .stdout => itemsLeft out
  | .stderr => itemsLeft err

/-- What happens until both sentinels are found: an empty chunk fails an assertion, and otherwise
everything is yielded and the first cut is remembered. -/
structure Consumed (out err : Option (List Item)) (r : Reader) (result : Ending × Reader) :
    Prop where
  /-- The loop ends. -/
  ended : (∀ fd, Item.chunk [] ∉ itemsOf out err fd) → result.1 = .ended
  /-- An assertion fails. -/
  raised : (∃ fd, Item.chunk [] ∈ itemsOf out err fd) → result.1 = .raised
  /-- What is yielded. -/
  output : (∀ fd, Item.chunk [] ∉ itemsOf out err fd) → ∀ fd,
    result.2.output fd = r.output fd ++ (itemsOf out err fd).flatMap Item.bytes
  /-- No chunk is empty. -/
  nonempty : ∀ entry ∈ result.2.yielded, entry ∈ r.yielded ∨ entry.2 ≠ []
  /-- Whether an output was cut. -/
  cut : (∀ fd, Item.chunk [] ∉ itemsOf out err fd) → (result.2.stopreason = .cut ↔
    r.stopreason = .cut ∨
      r.stopreason = .eof ∧ ∃ fd, Item.marker .cut ∈ itemsOf out err fd)

/-- An empty chunk is found. -/
theorem Consumed.of_empty (empty : ∃ fd, Item.chunk [] ∈ itemsOf out err fd) :
    Consumed out err r (.raised, r) where
  ended none := absurd empty (not_exists.mpr none)
  raised _ := rfl
  output none := absurd empty (not_exists.mpr none)
  nonempty _ member := Or.inl member
  cut none := absurd empty (not_exists.mpr none)

/-- A thread that has nothing left may quit. -/
theorem Consumed.congr {out' err' : Option (List Item)} {result : Ending × Reader}
    (rest : Consumed out err r result) (same : itemsOf out err = itemsOf out' err') :
    Consumed out' err' r result where
  ended := same ▸ rest.ended
  raised := same ▸ rest.raised
  output := same ▸ rest.output
  nonempty := rest.nonempty
  cut := same ▸ rest.cut

/-- One more item in front of the items of a stream. -/
theorem Consumed.item {out' err' : Option (List Item)} {result : Ending × Reader} {fd : Stream}
    {item : Item} (own : itemsOf out' err' fd = item :: itemsOf out err fd)
    (others : ∀ other, other ≠ fd → itemsOf out' err' other = itemsOf out err other)
    (full : item ≠ .chunk []) (rest : Consumed out err (r.take fd item) result) :
    Consumed out' err' r result := by
  have member {i : Item} : (∃ other, i ∈ itemsOf out' err' other) ↔
      i = item ∨ ∃ other, i ∈ itemsOf out err other := by
    constructor
    · intro ⟨other, inside⟩
      by_cases same : other = fd
      · rw [same, own] at inside
        cases List.mem_cons.mp inside with
        | inl same => exact Or.inl same
        | inr later => exact Or.inr ⟨fd, later⟩
      · rw [others other same] at inside
        exact Or.inr ⟨other, inside⟩
    · intro either
      cases either with
      | inl same => exact ⟨fd, by rw [own, same]; exact List.mem_cons_self⟩
      | inr later =>
        have ⟨other, inside⟩ := later
        by_cases same : other = fd
        · exact ⟨fd, by rw [own, ← same]; exact List.mem_cons_of_mem _ inside⟩
        · exact ⟨other, by rw [others other same]; exact inside⟩
  have empty : (∀ other, Item.chunk [] ∉ itemsOf out' err' other) ↔
      ∀ other, Item.chunk [] ∉ itemsOf out err other := by
    rw [← not_exists, ← not_exists, member, or_iff_right full.symm]
  constructor
  · exact fun none => rest.ended (empty.mp none)
  · intro some_
    rw [member, or_iff_right full.symm] at some_
    exact rest.raised some_
  · intro none other
    rw [rest.output (empty.mp none), r.output_take]
    by_cases same : fd = other
    · rw [if_pos same, ← same, own, List.flatMap_cons, List.append_assoc]
    · rw [if_neg same, others other (Ne.symm same), List.append_nil]
  · intro entry inside
    cases rest.nonempty entry inside with
    | inr some_ => exact Or.inr some_
    | inl before =>
      cases item with
      | chunk bytes =>
        cases List.mem_append.mp before with
        | inl before => exact Or.inl before
        | inr now =>
          right
          rw [List.mem_singleton.mp now]
          intro none
          exact full (congrArg Item.chunk none)
      | marker reason => cases reason <;> exact Or.inl before
  · intro none
    rw [rest.cut (empty.mp none), r.stopreason_take, member]
    by_cases cut : item = .marker .cut
    · by_cases fresh : r.stopreason = .eof
      · simp [cut, fresh]
      · simp [cut, fresh]
    · simp [cut, Ne.symm cut]

/-- Both sentinels are found, whatever the order in which the threads get to the queue. -/
theorem readchunks_consumed (interleaved : Interleaved out err queue)
    (own : ∀ fd, ∀ item ∈ itemsOf out err fd, ¬ item.Foreign) :
    Consumed out err r (readchunks inTime i (threadsLeft out err) queue r) := by
  induction interleaved generalizing i r with
  | done =>
    have none (item : Item) (fd : Stream) : item ∉ itemsOf none none fd := by
      cases fd <;> exact List.not_mem_nil
    constructor
    · exact fun _ => rfl
    · exact fun ⟨fd, member⟩ => absurd member (none _ fd)
    · intro _ fd
      cases fd <;> exact (List.append_nil _).symm
    · exact fun entry member => Or.inl member
    · intro _
      show r.stopreason = _ ↔ _
      simp [none]
  | @out item items err queue rest ih =>
    have first := own .stdout item List.mem_cons_self
    have later : ∀ fd, ∀ item ∈ itemsOf (some items) err fd, ¬ item.Foreign := by
      intro fd other member
      cases fd with
      | stdout => exact own .stdout other (List.mem_cons_of_mem _ member)
      | stderr => exact own .stderr other member
    have left : threadsLeft (some (item :: items)) err = (if err.isSome then 1 else 0) + 1 :=
      Nat.add_comm _ _
    by_cases full : item = .chunk []
    · rw [left, full, readchunks_empty]
      exact Consumed.of_empty ⟨.stdout, List.mem_cons_self⟩
    · rw [left, readchunks_item first full, ← left]
      refine Consumed.item rfl (fun other different => ?_) full (ih later)
      cases other with
      | stdout => exact absurd rfl different
      | stderr => rfl
  | @outEnd err queue rest ih =>
    have same : itemsOf none err = itemsOf (some []) err := by
      ext fd : 1
      cases fd <;> rfl
    have left : threadsLeft (some []) err = threadsLeft none err + 1 := by
      simp [threadsLeft, Nat.add_comm]
    rw [left, readchunks]
    exact (ih fun fd => same ▸ own fd).congr same
  | @err item out items queue rest ih =>
    have first := own .stderr item List.mem_cons_self
    have later : ∀ fd, ∀ item ∈ itemsOf out (some items) fd, ¬ item.Foreign := by
      intro fd other member
      cases fd with
      | stdout => exact own .stdout other member
      | stderr => exact own .stderr other (List.mem_cons_of_mem _ member)
    have left : threadsLeft out (some (item :: items)) = (if out.isSome then 1 else 0) + 1 := rfl
    by_cases full : item = .chunk []
    · rw [left, full, readchunks_empty]
      exact Consumed.of_empty ⟨.stderr, List.mem_cons_self⟩
    · rw [left, readchunks_item first full, ← left]
      refine Consumed.item rfl (fun other different => ?_) full (ih later)
      cases other with
      | stdout => rfl
      | stderr => exact absurd rfl different
  | @errEnd out queue rest ih =>
    have same : itemsOf out none = itemsOf out (some []) := by
      ext fd : 1
      cases fd <;> rfl
    have left : threadsLeft out (some []) = threadsLeft out none + 1 := rfl
    rw [left, readchunks]
    exact (ih fun fd => same ▸ own fd).congr same

end Queue

/-! ## When a limit is kept exactly -/

/-- What the two threads put into the queue. -/
def threadItems (limits : Stream → Option Nat) (polls : Stream → List Poll) (fd : Stream) :
    List Item := pipeConsumerThread (limits fd) 0 (polls fd)

/-- Reading ends without an exception, and what is yielded is exactly what the limits let
through. -/
structure ReadExactly (limits : Stream → Option Nat) (polls : Stream → List Poll)
    (result : Ending × Reader) : Prop where
  /-- The iteration ends without an exception. -/
  ended : result.1 = .ended
  /-- The beginning of each stream is yielded. -/
  output : ∀ fd, result.2.output fd =
    (delivered (polls fd)).take ((limits fd).getD (delivered (polls fd)).length)
  /-- Every chunk has something. -/
  nonempty : ∀ entry ∈ result.2.yielded, entry.2 ≠ []
  /-- `has_cut` tells whether a stream has more than its limit. -/
  cut : result.2.hasCut = true ↔
    ∃ fd limit, limits fd = some limit ∧ limit < (delivered (polls fd)).length

section Limits

variable {limits : Stream → Option Nat} {polls : Stream → List Poll} {fd : Stream}

/-- A thread uses no marker of others. -/
theorem threadItems_own (fine : Poll.exceptional ∉ polls fd) :
    ∀ item ∈ threadItems limits polls fd, ¬ item.Foreign := by
  have all (maxlen : Option Nat) (counter : Nat) (polls : List Poll)
      (fine : Poll.exceptional ∉ polls) :
      ∀ item ∈ pipeConsumerThread maxlen counter polls, ¬ item.Foreign := by
    induction polls generalizing counter with
    | nil =>
      intro item member
      rw [List.mem_singleton.mp member]
      simp [Item.Foreign]
    | cons poll rest ih =>
      have ⟨first, others⟩ := List.ne_and_not_mem_of_not_mem_cons fine
      intro item member
      cases poll with
      | exceptional => exact absurd rfl first
      | idle =>
        cases List.mem_cons.mp member with
        | inl same => simp [same, Item.Foreign]
        | inr later => exact ih counter others item later
      | read chunk =>
        rw [pipeConsumerThread] at member
        split at member
        · cases List.mem_cons.mp member with
          | inl same => simp [same, Item.Foreign]
          | inr later => exact ih counter others item later
        · dsimp only at member
          split at member
          · simp only [List.mem_cons, List.not_mem_nil, or_false] at member
            cases member with
            | inl same => simp [same, Item.Foreign]
            | inr same => simp [same, Item.Foreign]
          · cases List.mem_cons.mp member with
            | inl same => simp [same, Item.Foreign]
            | inr later => exact ih _ others item later
  exact all (limits fd) 0 (polls fd) fine

/-- A stream that does not meet its limit puts its beginning into the queue, without an empty
chunk, and is cut exactly when it has more. -/
theorem threadItems_of_apart (fine : Poll.exceptional ∉ polls fd)
    (apart : ¬ MeetsLimit (limits fd) (polls fd)) :
    (threadItems limits polls fd).flatMap Item.bytes =
        (delivered (polls fd)).take ((limits fd).getD (delivered (polls fd)).length) ∧
      Item.chunk [] ∉ threadItems limits polls fd ∧
      (Item.marker .cut ∈ threadItems limits polls fd ↔
        ∃ limit, limits fd = some limit ∧ limit < (delivered (polls fd)).length) := by
  unfold threadItems
  cases given : limits fd with
  | none =>
    have ⟨same, full, uncut⟩ := @thread_unlimited none 0 (polls fd) rfl fine
    refine ⟨?_, full, ?_⟩
    · rw [same, Option.getD_none, List.take_length]
    · simp [uncut]
  | some limit =>
    rw [given] at apart
    by_cases zero : limit = 0
    · -- Nothing is read, since the limit is met before the first read.
      have nothing : delivered (polls fd) = [] := by
        cases nothing_or_first (polls fd) with
        | inl nothing => exact nothing
        | inr first =>
          have ⟨before, chunk, after, split, empty⟩ := first
          exact absurd ⟨before, chunk, after, split, by rw [empty, zero]; rfl⟩ apart
      have ⟨same, full, uncut⟩ := @thread_unlimited (some limit) 0 (polls fd) zero fine
      refine ⟨?_, full, ?_⟩
      · rw [same, nothing, List.take_nil]
      · simp [uncut, nothing]
    · have ⟨same, full, cut⟩ := thread_limited zero (Nat.zero_le limit) fine
      refine ⟨same, fun empty => apart ?_, ?_⟩
      · have ⟨before, chunk, after, split, meets⟩ := full.mp empty
        exact ⟨before, chunk, after, split, congrArg some (by omega)⟩
      · rw [cut, Nat.zero_add]
        simp

/-- A stream that meets its limit puts an empty chunk into the queue, or more than the limit lets
through. -/
theorem threadItems_of_meets (fine : Poll.exceptional ∉ polls fd)
    (meets : MeetsLimit (limits fd) (polls fd)) :
    Item.chunk [] ∈ threadItems limits polls fd ∨
      (threadItems limits polls fd).flatMap Item.bytes ≠
        (delivered (polls fd)).take ((limits fd).getD (delivered (polls fd)).length) := by
  have ⟨before, chunk, after, split, given⟩ := meets
  unfold threadItems
  rw [given]
  by_cases zero : (delivered before).length = 0
  · right
    have ⟨same, _, _⟩ := @thread_unlimited (some (delivered before).length) 0 (polls fd) zero fine
    rw [same, Option.getD_some, zero, List.take_zero]
    intro nothing
    have some_ : chunk.bytes <:+: delivered (polls fd) :=
      ⟨delivered before, delivered after, by simp [split, delivered, Poll.bytes]⟩
    rw [nothing] at some_
    exact chunk.nonempty (List.infix_nil.mp some_)
  · left
    have ⟨_, full, _⟩ := thread_limited zero (Nat.zero_le _) fine
    exact full.mpr ⟨before, chunk, after, split, by omega⟩

end Limits

/-- Reading is exact, in whatever order the threads get to the queue, exactly when no stream is
read on after its limit was reached at the end of a read; a limit of zero is reached before the
first one. -/
theorem limited_reading_exact_iff (limits : Stream → Option Nat) (polls : Stream → List Poll)
    (fine : ∀ fd, Poll.exceptional ∉ polls fd) (queue : List Queued)
    (interleaved : Interleaved (some (threadItems limits polls .stdout))
      (some (threadItems limits polls .stderr)) queue) :
    ReadExactly limits polls (readchunks inTime 0 2 queue {}) ↔
      ∀ fd, ¬ MeetsLimit (limits fd) (polls fd) := by
  have items : itemsOf (some (threadItems limits polls .stdout))
      (some (threadItems limits polls .stderr)) = threadItems limits polls := by
    ext fd : 1
    cases fd <;> rfl
  have consumed : Consumed _ _ {} (readchunks inTime 0 2 queue {}) :=
    readchunks_consumed interleaved fun fd => by
      rw [items]
      exact threadItems_own (fine fd)
  have ⟨ended, raised, output, nonempty, cut⟩ := consumed
  rw [items] at ended raised output cut
  constructor
  · intro exact_ fd meets
    have full : ∀ fd, Item.chunk [] ∉ threadItems limits polls fd := by
      intro fd empty
      have failed := raised ⟨fd, empty⟩
      rw [exact_.ended] at failed
      contradiction
    cases threadItems_of_meets (fine fd) meets with
    | inl empty => exact full fd empty
    | inr different =>
      have yielded := output full fd
      rw [exact_.output fd] at yielded
      exact different yielded.symm
  · intro apart
    have threads (fd : Stream) := threadItems_of_apart (fine fd) (apart fd)
    have full : ∀ fd, Item.chunk [] ∉ threadItems limits polls fd := fun fd => (threads fd).2.1
    constructor
    · exact ended full
    · intro fd
      rw [output full fd, (threads fd).1]
      rfl
    · intro entry member
      cases nonempty entry member with
      | inl before => exact absurd before List.not_mem_nil
      | inr some_ => exact some_
    · rw [Reader.hasCut, decide_eq_true_eq, cut full]
      have start : ({} : Reader).stopreason = .eof := rfl
      rw [start]
      simp only [reduceCtorEq, false_or, true_and]
      exact exists_congr fun fd => (threads fd).2.2

namespace Sample

/-- A read of two bytes. -/
def twoBytes : Chunk := ⟨[104, 105], by decide, by decide⟩

/-- `stdout` is read twice, `stderr` is empty. -/
def twoReads : Stream → List Poll
  | .stdout => [.read twoBytes, .idle, .read twoBytes]
  | .stderr => []

/-- `stdout` is limited. -/
def limited (limit : Nat) : Stream → Option Nat
  | .stdout => some limit
  | .stderr => none

/-- The first thread is faster. -/
theorem interleaved (limits : Stream → Option Nat) (polls : Stream → List Poll) :
    ∃ queue, Interleaved (some (threadItems limits polls .stdout))
      (some (threadItems limits polls .stderr)) queue := by
  have second (items : List Item) : ∃ queue, Interleaved none (some items) queue := by
    induction items with
    | nil => exact ⟨_, .errEnd .done⟩
    | cons item rest ih =>
      have ⟨queue, later⟩ := ih
      exact ⟨_, .err item later⟩
  have both (first items : List Item) :
      ∃ queue, Interleaved (some first) (some items) queue := by
    induction first with
    | nil =>
      have ⟨queue, later⟩ := second items
      exact ⟨_, .outEnd later⟩
    | cons item rest ih =>
      have ⟨queue, later⟩ := ih
      exact ⟨_, .out item later⟩
  exact both _ _

end Sample

/-- The limit of three bytes is exceeded in the middle of a read. -/
theorem limited_reading_exact_iff_three : ∃ queue,
    ReadExactly (Sample.limited 3) Sample.twoReads (readchunks inTime 0 2 queue {}) := by
  have ⟨queue, order⟩ := Sample.interleaved (Sample.limited 3) Sample.twoReads
  have fine : ∀ fd, Poll.exceptional ∉ Sample.twoReads fd := by
    intro fd
    cases fd <;> simp [Sample.twoReads]
  refine ⟨queue, (limited_reading_exact_iff _ _ fine queue order).mpr fun fd meets => ?_⟩
  cases fd with
  | stdout =>
    have ⟨before, chunk, after, split, limit⟩ := meets
    have three : (delivered before).length = 3 := (Option.some.inj limit).symm
    have cut : before ∈ (Sample.twoReads .stdout).inits :=
      (List.mem_inits _ _).mpr ⟨_, split.symm⟩
    have even : ∀ polls ∈ (Sample.twoReads .stdout).inits, (delivered polls).length % 2 = 0 := by
      decide
    have whole := even before cut
    omega
  | stderr =>
    have ⟨before, chunk, after, split, limit⟩ := meets
    contradiction

/-- The limit of two bytes is reached at the end of the first read, and the next one raises. -/
theorem limited_reading_raises : ¬ ∀ (limits : Stream → Option Nat) (polls : Stream → List Poll)
    (queue : List Queued), (∀ fd, Poll.exceptional ∉ polls fd) →
      Interleaved (some (threadItems limits polls .stdout))
        (some (threadItems limits polls .stderr)) queue →
      ReadExactly limits polls (readchunks inTime 0 2 queue {}) := by
  intro claimed
  have fine : ∀ fd, Poll.exceptional ∉ Sample.twoReads fd := by
    intro fd
    cases fd <;> simp [Sample.twoReads]
  have exact_ := claimed (Sample.limited 2) Sample.twoReads _ fine
    (.out _ (.out _ (.out _ (.out _ (.outEnd (.err _ (.errEnd .done)))))))
  have ended := exact_.ended
  revert ended
  decide

end Copr
