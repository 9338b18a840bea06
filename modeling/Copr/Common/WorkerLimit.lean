import Mathlib.Data.List.AList
import Mathlib.Data.Finset.Card
import Mathlib.Data.Finset.Filter

/-!
# Limits on concurrently processed tasks

`PredicateWorkerLimit`, `StringCounter` and `HashWorkerLimit` of
`copr_common/worker_manager.py`. The two kinds of limit count differently: one keeps the set
of worker ids whose task matched, the other the number of times a group was seen. Both are
cleared and refilled by the manager and never decremented, so what they promise is an
over-approximation: `Covers` says of which workers a limit has taken notice.
-/

namespace Copr

/-- `StringCounter`. -/
structure StringCounter where
  /-- Occurrences of each string seen so far. -/
  counter : AList fun _ : String => Nat

namespace StringCounter

/-- `StringCounter()`. -/
def empty : StringCounter := ⟨∅⟩

/-- `count`; the `None` key never occurs, so its count is the default. -/
def count (c : StringCounter) : Option String → Nat
  | none => 0
  | some string => (c.counter.lookup string).getD 0

/-- `add`; nothing is counted for `None`. -/
def add (c : StringCounter) : Option String → StringCounter
  | none => c
  | some string => ⟨c.counter.insert string ((c.counter.lookup string).getD 0 + 1)⟩

/-- Adding a string counts it once more and changes no other count. -/
theorem count_add (c : StringCounter) (string : String) (added : Option String) :
    (c.add added).count (some string) =
      c.count (some string) + if added = some string then 1 else 0 := by
  cases added with
  | none => simp [add]
  | some other =>
    by_cases same : string = other
    · subst same
      simp [add, count]
    · have apart : other ≠ string := fun h => same h.symm
      simp [add, count, AList.lookup_insert_ne same, apart]

end StringCounter

/-- A `WorkerLimit` object. -/
inductive WorkerLimit (τ : Type)
  /-- `PredicateWorkerLimit`: `_predicate`, `_limit` and the keys of `_refs`. -/
  | predicate (pred : τ → Bool) (limit : Int) (refs : Finset String)
  /-- `HashWorkerLimit`: `_hasher`, `_limit` and `_groups`. -/
  | hash (hasher : τ → Option String) (limit : Int) (groups : StringCounter)

namespace WorkerLimit

variable {τ : Type}

/-- `clear`. -/
def clear : WorkerLimit τ → WorkerLimit τ
  | .predicate pred limit _ => .predicate pred limit ∅
  | .hash hasher limit _ => .hash hasher limit .empty

/-- `worker_added`. -/
def workerAdded (workerId : String) (task : τ) : WorkerLimit τ → WorkerLimit τ
  | .predicate pred limit refs =>
    .predicate pred limit (if pred task then insert workerId refs else refs)
  | .hash hasher limit groups => .hash hasher limit (groups.add (hasher task))

/-- `check`: whether the task can be added without crossing the limit. -/
def check (task : τ) : WorkerLimit τ → Bool
  | .predicate pred limit refs => if pred task then decide ((refs.card : Int) < limit) else true
  | .hash hasher limit groups => decide ((groups.count (hasher task) : Int) < limit)

/-- Clearing forgets everything that was added. -/
@[simp] theorem clear_workerAdded (l : WorkerLimit τ) (workerId : String) (task : τ) :
    (l.workerAdded workerId task).clear = l.clear := by
  cases l <;> rfl

/-- Clearing twice is clearing. -/
@[simp] theorem clear_clear (l : WorkerLimit τ) : l.clear.clear = l.clear := by
  cases l <;> rfl

/-! ## What the counters know

The worker id names the task, so as long as no two of the tasks in question share an id, a
predicate or a hash of the task can be read off the worker id: `p` and `g` below are these
readings, and `known` holds of the tasks in question. -/

variable (workerId : τ → String) (known : τ → Prop)

/-- The limit has counted every worker of `seen` that it is about, whichever reading of the
worker ids agrees with the predicate or the hash on the known tasks. -/
def Covers (seen : Finset String) : WorkerLimit τ → Prop
  | .predicate pred _ refs => ∀ p : String → Bool,
      (∀ task, known task → pred task = p (workerId task)) → ∀ w ∈ seen, p w = true → w ∈ refs
  | .hash hasher _ groups => ∀ g : String → Option String,
      (∀ task, known task → hasher task = g (workerId task)) →
      ∀ group, (seen.filter fun w => g w = some group).card ≤ groups.count (some group)

/-- The workers of `tracked` respect the limit, or those of `adopted` already did not, for every
reading of the worker ids that agrees with the predicate or the hash on the known tasks. -/
def Respected (tracked adopted : Finset String) : WorkerLimit τ → Prop
  | .predicate pred limit _ => ∀ p : String → Bool,
      (∀ task, known task → pred task = p (workerId task)) →
      ((tracked.filter fun w => p w = true).card : Int) ≤
        max limit (adopted.filter fun w => p w = true).card
  | .hash hasher limit _ => ∀ g : String → Option String,
      (∀ task, known task → hasher task = g (workerId task)) →
      ∀ group, ((tracked.filter fun w => g w = some group).card : Int) ≤
        max limit (adopted.filter fun w => g w = some group).card

variable {workerId known}

/-- Having counted more workers covers fewer. -/
theorem Covers.mono {l : WorkerLimit τ} {seen fewer : Finset String}
    (covers : l.Covers workerId known seen) (sub : fewer ⊆ seen) :
    l.Covers workerId known fewer := by
  cases l with
  | predicate pred limit refs =>
    intro p reads w member
    exact covers p reads w (sub member)
  | hash hasher limit groups =>
    intro g reads group
    exact (Finset.card_le_card (Finset.filter_subset_filter _ sub)).trans (covers g reads group)

/-- A cleared limit has counted nobody. -/
theorem covers_empty (l : WorkerLimit τ) : l.Covers workerId known ∅ := by
  cases l <;> simp [Covers]

/-- Adding the worker of a task covers it as well. -/
theorem Covers.workerAdded {l : WorkerLimit τ} {seen : Finset String}
    (covers : l.Covers workerId known seen) {task : τ} (fetched : known task) :
    (l.workerAdded (workerId task) task).Covers workerId known (insert (workerId task) seen) := by
  cases l with
  | predicate pred limit refs =>
    intro p reads w member matched
    rcases Finset.mem_insert.mp member with rfl | member
    · rw [reads task fetched, if_pos matched]
      exact Finset.mem_insert_self _ _
    · have counted := covers p reads w member matched
      split
      · exact Finset.mem_insert_of_mem counted
      · exact counted
  | hash hasher limit groups =>
    intro g reads group
    have before := covers g reads group
    show _ ≤ (groups.add (hasher task)).count (some group)
    rw [StringCounter.count_add, reads task fetched, Finset.filter_insert]
    split
    · have grown := Finset.card_insert_le (workerId task) (seen.filter fun w => g w = some group)
      omega
    · omega

/-- Fewer tracked workers respect the same limit. -/
theorem Respected.mono {l : WorkerLimit τ} {tracked fewer adopted : Finset String}
    (respected : l.Respected workerId known tracked adopted) (sub : fewer ⊆ tracked) :
    l.Respected workerId known fewer adopted := by
  cases l with
  | predicate pred limit refs =>
    intro p reads
    have shrunk := Finset.card_le_card (Finset.filter_subset_filter (fun w => p w = true) sub)
    have bound := respected p reads
    omega
  | hash hasher limit groups =>
    intro g reads group
    have shrunk := Finset.card_le_card (Finset.filter_subset_filter (fun w => g w = some group) sub)
    have bound := respected g reads group
    omega

/-- The workers adopted at the start respect their own number. -/
theorem respected_adopted (l : WorkerLimit τ) (adopted : Finset String) :
    l.Respected workerId known adopted adopted := by
  cases l with
  | predicate pred limit refs => exact fun p _ => le_max_right _ _
  | hash hasher limit groups => exact fun g _ group => le_max_right _ _

/-- What the limit has counted does not matter for what it demands. -/
theorem respected_iff_clear (l : WorkerLimit τ) (tracked adopted : Finset String) :
    l.clear.Respected workerId known tracked adopted ↔
      l.Respected workerId known tracked adopted := by
  cases l <;> rfl

/-- A limit that covers the tracked workers and admits a task is respected with the worker of
the task, too. -/
theorem Respected.start {l : WorkerLimit τ} {tracked adopted : Finset String} {task : τ}
    (respected : l.Respected workerId known tracked adopted)
    (covers : l.Covers workerId known tracked) (fetched : known task)
    (admitted : l.check task = true) :
    l.Respected workerId known (insert (workerId task) tracked) adopted := by
  cases l with
  | predicate pred limit refs =>
    intro p reads
    rw [Finset.filter_insert]
    split
    · rename_i matched
      have counted : (tracked.filter fun w => p w = true) ⊆ refs := by
        intro w member
        obtain ⟨inside, own⟩ := Finset.mem_filter.mp member
        exact covers p reads w inside own
      have below := Finset.card_le_card counted
      have room : (refs.card : Int) < limit := by
        simpa [check, reads task fetched, matched] using admitted
      have grown := Finset.card_insert_le (workerId task) (tracked.filter fun w => p w = true)
      omega
    · exact respected p reads
  | hash hasher limit groups =>
    intro g reads group
    rw [Finset.filter_insert]
    split
    · rename_i matched
      have below := covers g reads group
      have room : (groups.count (some group) : Int) < limit := by
        simpa [check, reads task fetched, matched] using admitted
      have grown := Finset.card_insert_le (workerId task) (tracked.filter fun w => g w = some group)
      omega
    · exact respected g reads group

end WorkerLimit

end Copr
