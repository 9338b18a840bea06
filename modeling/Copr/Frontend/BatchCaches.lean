import Copr.Lib.Ancestry
import Copr.Frontend.Batches
import Copr.Frontend.ReopenedBuilds

/-!
# Blocked batches and what is remembered of finished ones

`Batch.finished` remembers its answer in the loaded row, and `finished_slow` remembers in Redis
that a batch is finished; `Batch.blocked` asks from the batch upwards. A request of the queue
asks about one build after another and so fills both caches. Its answers are those of the
properties without the row's memory, because no row changes while it is answered.
-/

namespace Copr

open Ancestry

/-- What is remembered of batches while a request is answered. -/
structure FinishedCaches where
  /-- The batches for which Redis has a `batch_finished_<id>`. -/
  redis : List Nat
  /-- `_is_finished` of the loaded rows. -/
  isFinished : List (Nat × Bool)
  deriving DecidableEq, Repr

namespace Database

/-- `Batch.finished_slow`. -/
def finishedSlow (db : Database) (batchId : Nat) (redis : List Nat) : Bool × List Nat :=
  if batchId ∈ redis then (true, redis)
  else if (db.batchBuilds batchId).isEmpty then (false, redis)
  else if (db.batchBuilds batchId).all Build.finished then (true, batchId :: redis)
  else (false, redis)

/-- `Batch.finished`. -/
def askFinished (db : Database) (batchId : Nat) (caches : FinishedCaches) :
    Bool × FinishedCaches :=
  match caches.isFinished.lookup batchId with
  | some answer => (answer, caches)
  | none =>
    let (answer, redis) := db.finishedSlow batchId caches.redis
    (answer, ⟨redis, (batchId, answer) :: caches.isFinished⟩)

/-- `blocked_by` of the batch with this id. -/
def blockedBy (db : Database) (batchId : Nat) : Option Nat :=
  (db.batches.find? (·.id = batchId)).bind Batch.blockedById

/-- `Batch.blocked`, in no more calls than there are batches and one. -/
def askBlocked (db : Database) (batchId : Nat) (caches : FinishedCaches) :
    Option (Bool × FinishedCaches) :=
  waits db.blockedBy db.askFinished (db.batches.length + 1) batchId caches

/-- `Build.blocked`. -/
def askBuildBlocked (db : Database) (b : Build) (caches : FinishedCaches) :
    Option (Bool × FinishedCaches) :=
  match b.batchId with
  | none => some (false, caches)
  | some batchId => db.askBlocked batchId caches

/-- The loops of `pending_jobs` over the tasks. -/
def streamJobs (db : Database) :
    List (Build × JobRecord) → FinishedCaches → Option (List JobRecord × FinishedCaches)
  | [], caches => some ([], caches)
  | (b, record) :: rest, caches =>
    (db.askBuildBlocked b caches).bind fun (blocked, caches) =>
      (db.streamJobs rest caches).map fun (records, caches) =>
        (if blocked then records else record :: records, caches)

/-- The tasks that `pending_jobs` goes through. -/
def pendingTasks (db : Database) : List (Build × JobRecord) :=
  ((BuildsLogic.getPendingSrpmBuildTasks db).map fun b => (b, getSrpmBuildRecord b)) ++
    (BuildsLogic.getPendingBuildTasks db).map fun task => (task.1, getBuildRecord task)

/-- `pending_jobs`: the answer, and what Redis remembers then. -/
def pendingJobsResponse (db : Database) (redis : List Nat) :
    Option (List JobRecord × List Nat) :=
  (db.streamJobs db.pendingTasks ⟨redis, []⟩).map fun (records, caches) => (records, caches.redis)

/-! ## The order of the batches -/

/-- The batch is blocked by the other one, its parent. -/
def BlockedBy (db : Database) (later earlier : Nat) : Prop :=
  ∃ batch ∈ db.batches, batch.id = later ∧ batch.blockedById = some earlier

/-- The second batch transitively precedes the first one. -/
abbrev Behind (db : Database) : Nat → Nat → Prop := Relation.TransGen db.BlockedBy

/-- Batch ids are unique, and a batch is younger than its parent. -/
structure BatchesOrdered (db : Database) : Prop where
  /-- The primary key. -/
  distinct : (db.batches.map Batch.id).Nodup
  /-- `blocked_by_id`. -/
  younger : ∀ batch ∈ db.batches, ∀ parent, batch.blockedById = some parent → parent < batch.id

variable {db db' : Database}

/-- The parent is the one of the row. -/
theorem blockedBy_iff (ordered : db.BatchesOrdered) {later earlier : Nat} :
    db.blockedBy later = some earlier ↔ db.BlockedBy later earlier := by
  unfold blockedBy BlockedBy
  constructor
  · intro above
    obtain ⟨batch, found, parent⟩ := Option.bind_eq_some_iff.mp above
    have same : batch.id = later := by simpa using List.find?_some found
    exact ⟨batch, List.mem_of_find?_eq_some found, same, parent⟩
  · rintro ⟨batch, member, same, parent⟩
    obtain ⟨other, inside, found⟩ := find?_batch ⟨batch, member, same⟩
    have sameOther : other.id = later := by simpa using List.find?_some found
    have equal : other = batch :=
      List.inj_on_of_nodup_map ordered.distinct inside member (sameOther.trans same.symm)
    rw [found, Option.bind_some, equal]
    exact parent

/-- The ancestors are the batches that transitively precede. -/
theorem ancestor_eq (ordered : db.BatchesOrdered) : Ancestor db.blockedBy = db.Behind := by
  have same : IsParent db.blockedBy = db.BlockedBy := by
    funext later earlier
    exact propext (blockedBy_iff ordered)
  unfold Ancestor Behind
  rw [same]

/-- Ids fall from a batch to its parent. -/
theorem blockedBy_falls (ordered : db.BatchesOrdered) (later earlier : Nat)
    (above : db.blockedBy later = some earlier) : earlier < later := by
  obtain ⟨batch, member, rfl, parent⟩ := (blockedBy_iff ordered).mp above
  exact ordered.younger batch member earlier parent

/-- A new batch is the youngest one. -/
theorem newBatch_ordered (known : db.BatchesKnown) (ordered : db.BatchesOrdered)
    {blockedById : Option Nat} (behind : ∀ parent, blockedById = some parent → db.HasBatch parent) :
    (db.newBatch blockedById).2.BatchesOrdered := by
  constructor
  · have apart : db.batches.length + 1 ∉ db.batches.map Batch.id := by
      intro listed
      obtain ⟨batch, member, same⟩ := List.mem_map.mp listed
      have bound := known.bounded batch member
      omega
    simp only [newBatch, List.map_append, List.map_singleton]
    rw [← List.concat_eq_append]
    exact ordered.distinct.concat apart
  · intro batch member parent before
    simp only [newBatch, List.mem_append, List.mem_singleton] at member
    rcases member with old | rfl
    · exact ordered.younger batch old parent before
    · obtain ⟨other, inside, rfl⟩ := behind parent before
      have bound := known.bounded other inside
      exact Nat.lt_succ_of_le bound

/-- The batch of a build keeps the order. -/
theorem getBatchOrCreate_ordered (known : db.BatchesKnown) (ordered : db.BatchesOrdered)
    {cached : Nat → Bool} {buildId batchId : Nat} {modify allowed : Bool}
    (got : db.getBatchOrCreate cached buildId modify allowed = some (batchId, db')) :
    db'.BatchesOrdered := by
  unfold getBatchOrCreate at got
  split at got
  · contradiction
  · split at got <;> [contradiction; skip]
    split at got
    · obtain ⟨-, rfl⟩ := Prod.mk.inj (Option.some.inj got)
      exact ordered
    · obtain ⟨-, rfl⟩ := Prod.mk.inj (Option.some.inj got)
      have grown : (db.newBatch none).2.BatchesOrdered := newBatch_ordered known ordered (by simp)
      exact ⟨grown.distinct, grown.younger⟩

/-- The batch options keep the order. -/
theorem setupBatch_ordered (known : db.BatchesKnown) (ordered : db.BatchesOrdered)
    {cached : Nat → Bool} {batching : Option Batching} {batchId : Option Nat}
    (set : db.setupBatch cached batching = some (batchId, db')) : db'.BatchesOrdered := by
  unfold setupBatch at set
  split at set
  · obtain ⟨-, rfl⟩ := Prod.mk.inj (Option.some.inj set)
    exact ordered
  · obtain ⟨⟨n, grown⟩, got, same⟩ := Option.map_eq_some_iff.mp set
    obtain ⟨-, rfl⟩ := Prod.mk.inj same
    exact getBatchOrCreate_ordered known ordered got
  · obtain ⟨⟨n, grown⟩, got, same⟩ := Option.map_eq_some_iff.mp set
    obtain ⟨-, rfl⟩ := Prod.mk.inj same
    obtain ⟨-, known', there⟩ := getBatchOrCreate_joined known got
    refine newBatch_ordered known' (getBatchOrCreate_ordered known ordered got) fun m equal => ?_
    exact Option.some.inj equal ▸ there

/-- Every operation keeps the order. -/
theorem operate_ordered {op : Operation} (known : db.BatchesKnown) (ordered : db.BatchesOrdered)
    (operated : db.operate op = some db') : db'.BatchesOrdered := by
  cases operate_operated operated with
  | message m => exact ⟨ordered.distinct, ordered.younger⟩
  | add cached s grown batchId set =>
    have kept := setupBatch_ordered known ordered set
    exact ⟨kept.distinct, kept.younger⟩
  | fork b chroots member => exact ⟨ordered.distinct, ordered.younger⟩
  | rawhideToRelease buildId rawhide dest => exact ⟨ordered.distinct, ordered.younger⟩
  | markAsFailed buildId => exact ⟨ordered.distinct, ordered.younger⟩
  | deleteBuild buildId finished => exact ⟨ordered.distinct, ordered.younger⟩

/-! ## The answers -/

/-- `Batch.finished` when Redis remembers these batches. -/
def finishedBy (db : Database) (redis : List Nat) (batchId : Nat) : Bool :=
  db.batchFinished (fun n => decide (n ∈ redis)) batchId

/-- The caches remember what was there at the start and true answers. -/
structure Remembers (db : Database) (redis : List Nat) (caches : FinishedCaches) : Prop where
  /-- Nothing is forgotten. -/
  kept : ∀ n ∈ redis, n ∈ caches.redis
  /-- Redis. -/
  right : ∀ n ∈ caches.redis, db.finishedBy redis n = true
  /-- `_is_finished`. -/
  rows : ∀ n answer, caches.isFinished.lookup n = some answer → answer = db.finishedBy redis n

/-- A request starts with what Redis remembers. -/
theorem remembers_start (db : Database) (redis : List Nat) : db.Remembers redis ⟨redis, []⟩ := by
  refine ⟨fun n listed => listed, fun n listed => ?_, fun n answer found => ?_⟩
  · simp [finishedBy, batchFinished, listed]
  · simp at found

/-- The slow answer is the right one, and Redis then remembers nothing wrong. -/
theorem finishedSlow_answers {redis now : List Nat} (kept : ∀ n ∈ redis, n ∈ now)
    (right : ∀ n ∈ now, db.finishedBy redis n = true) (batchId : Nat) :
    (db.finishedSlow batchId now).1 = db.finishedBy redis batchId ∧
      (∀ n ∈ redis, n ∈ (db.finishedSlow batchId now).2) ∧
      ∀ n ∈ (db.finishedSlow batchId now).2, db.finishedBy redis n = true := by
  unfold finishedSlow
  by_cases listed : batchId ∈ now
  · rw [if_pos listed]
    exact ⟨(right batchId listed).symm, kept, right⟩
  · have unknown : batchId ∉ redis := fun before => listed (kept batchId before)
    have slow : db.finishedBy redis batchId =
        (!(db.batchBuilds batchId).isEmpty && (db.batchBuilds batchId).all Build.finished) := by
      simp [finishedBy, batchFinished, unknown]
    rw [if_neg listed]
    by_cases empty : (db.batchBuilds batchId).isEmpty = true
    · rw [if_pos empty]
      exact ⟨by simp [slow, empty], kept, right⟩
    · rw [if_neg empty]
      by_cases all : (db.batchBuilds batchId).all Build.finished = true
      · have answer : db.finishedBy redis batchId = true := by simp [slow, empty, all]
        rw [if_pos all]
        refine ⟨answer.symm, fun n before => List.mem_cons_of_mem _ (kept n before), ?_⟩
        intro n member
        rcases List.mem_cons.mp member with rfl | old
        · exact answer
        · exact right n old
      · rw [if_neg all]
        exact ⟨by simp [slow, all], kept, right⟩

/-- `Batch.finished` gives the right answer, and the caches then remember nothing wrong. -/
theorem askFinished_answers {redis : List Nat} (batchId : Nat) (caches : FinishedCaches)
    (remembers : db.Remembers redis caches) :
    (db.askFinished batchId caches).1 = db.finishedBy redis batchId ∧
      db.Remembers redis (db.askFinished batchId caches).2 := by
  unfold askFinished
  split
  · rename_i answer found
    exact ⟨remembers.rows batchId answer found, remembers⟩
  · obtain ⟨answer, kept, right⟩ := finishedSlow_answers remembers.kept remembers.right batchId
    refine ⟨answer, kept, right, fun n said found => ?_⟩
    rw [List.lookup_cons] at found
    split at found
    · rename_i same
      have equal : n = batchId := by simpa using same
      rw [equal, ← answer]
      exact (Option.some.inj found).symm
    · exact remembers.rows n said found

/-- `Batch.blocked` returns, and its answer is no exactly when all batches that transitively
precede the batch are finished. -/
theorem askBlocked_answers (ordered : db.BatchesOrdered) {redis : List Nat} {batchId : Nat}
    (bounded : batchId ≤ db.batches.length) {caches : FinishedCaches}
    (remembers : db.Remembers redis caches) :
    ∃ blocked caches', db.askBlocked batchId caches = some (blocked, caches') ∧
      db.Remembers redis caches' ∧
      (blocked = false ↔ ∀ n, db.Behind batchId n → db.finishedBy redis n = true) := by
  rw [← ancestor_eq ordered]
  exact waits_answers (fun n => n) (blockedBy_falls ordered)
    (fun n caches remembers => askFinished_answers n caches remembers)
    (Nat.lt_succ_of_le bounded) remembers

/-- Without caches the property is the same question. -/
theorem waits_chainBlocked {finished : Nat → Bool} {fuel batchId : Nat} {blocked : Bool}
    (asked : waits db.blockedBy (fun n (none : Unit) => (finished n, none)) fuel batchId () =
      some (blocked, ())) : chainBlocked db.batches finished fuel batchId = blocked := by
  induction fuel generalizing batchId blocked with
  | zero => simp [waits] at asked
  | succ fuel ih =>
    unfold waits blockedBy at asked
    unfold chainBlocked
    cases found : db.batches.find? (·.id = batchId) with
    | none => simpa [found] using asked
    | some batch =>
      cases parent : batch.blockedById with
      | none => simpa [found, parent] using asked
      | some above =>
        simp only [found, Option.bind_some, parent] at asked ⊢
        obtain ⟨⟨waiting, _⟩, before, rest⟩ := Option.bind_eq_some_iff.mp asked
        rw [ih before]
        cases waiting <;> simpa using rest

/-- A batch is not blocked exactly when all batches that transitively precede it are finished. -/
theorem batchBlocked_iff (ordered : db.BatchesOrdered) {batchId : Nat}
    (bounded : batchId ≤ db.batches.length) (cached : Nat → Bool) :
    db.batchBlocked cached batchId = false ↔
      ∀ n, db.Behind batchId n → db.batchFinished cached n = true := by
  have answers : ∀ n (none : Unit), True →
      (db.batchFinished cached n, none).1 = db.batchFinished cached n ∧ True :=
    fun n none _ => ⟨rfl, trivial⟩
  obtain ⟨blocked, _, asked, -, answer⟩ :=
    waits_answers (fun n => n) (blockedBy_falls ordered) answers (Nat.lt_succ_of_le bounded) trivial
  rw [← ancestor_eq ordered, ← answer, batchBlocked, waits_chainBlocked asked]

/-- A build is not blocked exactly when all batches that transitively precede its own are
finished. -/
theorem blocked_iff (known : db.BatchesKnown) (ordered : db.BatchesOrdered) {b : Build}
    (member : b ∈ db.builds) (cached : Nat → Bool) :
    db.blocked cached b = false ↔
      ∀ batchId, b.batchId = some batchId →
        ∀ n, db.Behind batchId n → db.batchFinished cached n = true := by
  unfold blocked
  cases joined : b.batchId with
  | none => simp
  | some batchId =>
    obtain ⟨batch, inside, same⟩ := known.builds b member batchId joined
    have bounded : batchId ≤ db.batches.length := same ▸ known.bounded batch inside
    simpa using batchBlocked_iff ordered bounded cached

/-- `Build.blocked` returns the answer that needs no caches. -/
theorem askBuildBlocked_answers (known : db.BatchesKnown) (ordered : db.BatchesOrdered)
    {redis : List Nat} {b : Build} (member : b ∈ db.builds) {caches : FinishedCaches}
    (remembers : db.Remembers redis caches) :
    ∃ caches', db.askBuildBlocked b caches =
        some (db.blocked (fun n => decide (n ∈ redis)) b, caches') ∧
      db.Remembers redis caches' := by
  unfold askBuildBlocked blocked
  cases joined : b.batchId with
  | none => exact ⟨caches, rfl, remembers⟩
  | some batchId =>
    obtain ⟨batch, inside, same⟩ := known.builds b member batchId joined
    have bounded : batchId ≤ db.batches.length := same ▸ known.bounded batch inside
    obtain ⟨answer, caches', asked, remembers', right⟩ :=
      askBlocked_answers ordered bounded remembers
    have both : answer = false ↔ db.batchBlocked (fun n => decide (n ∈ redis)) batchId = false :=
      right.trans (batchBlocked_iff ordered bounded _).symm
    have equal : answer = db.batchBlocked (fun n => decide (n ∈ redis)) batchId := by
      rwa [← Bool.not_eq_true, ← Bool.not_eq_true, not_iff_not, ← Bool.eq_iff_iff] at both
    refine ⟨caches', ?_, remembers'⟩
    dsimp only
    rw [← equal]
    exact asked

/-- The stream ends, and it lists the tasks of the builds that are not blocked. -/
theorem streamJobs_answers (known : db.BatchesKnown) (ordered : db.BatchesOrdered)
    {redis : List Nat} {tasks : List (Build × JobRecord)}
    (members : ∀ task ∈ tasks, task.1 ∈ db.builds) {caches : FinishedCaches}
    (remembers : db.Remembers redis caches) :
    ∃ caches', db.streamJobs tasks caches =
        some ((tasks.filter fun task =>
          !db.blocked (fun n => decide (n ∈ redis)) task.1).map Prod.snd, caches') ∧
      db.Remembers redis caches' := by
  induction tasks generalizing caches with
  | nil => exact ⟨caches, rfl, remembers⟩
  | cons task rest ih =>
    obtain ⟨b, first⟩ := task
    rw [List.forall_mem_cons] at members
    obtain ⟨caches', asked, remembers'⟩ :=
      askBuildBlocked_answers known ordered members.1 remembers
    obtain ⟨caches'', streamed, remembers''⟩ := ih members.2 remembers'
    refine ⟨caches'', ?_, remembers''⟩
    simp only [streamJobs, asked, streamed, Option.bind_some, Option.map_some]
    cases answer : db.blocked (fun n => decide (n ∈ redis)) b <;> simp [answer]

/-- The tasks belong to builds. -/
theorem pendingTasks_members : ∀ task ∈ db.pendingTasks, task.1 ∈ db.builds := by
  intro task listed
  simp only [pendingTasks, BuildsLogic.getPendingSrpmBuildTasks, BuildsLogic.getPendingBuildTasks,
    List.mem_append, List.mem_map, List.mem_filter, List.mem_flatMap] at listed
  rcases listed with ⟨b, ⟨member, -⟩, rfl⟩ | ⟨_, ⟨b, ⟨member, -⟩, c, -, rfl⟩, rfl⟩
  · exact member
  · exact member

/-- `/pending-jobs/` is answered with the jobs of the builds that are not blocked, and Redis then
remembers what it did before and batches that are finished. -/
theorem pendingJobsResponse_answers (known : db.BatchesKnown) (ordered : db.BatchesOrdered)
    (redis : List Nat) :
    ∃ redis', db.pendingJobsResponse redis =
        some (db.pendingJobs fun n => decide (n ∈ redis), redis') ∧
      ∀ n ∈ redis', db.finishedBy redis n = true := by
  obtain ⟨caches, streamed, remembers⟩ :=
    streamJobs_answers known ordered pendingTasks_members (remembers_start db redis)
  refine ⟨caches.redis, ?_, remembers.right⟩
  rw [pendingJobsResponse, streamed]
  simp [pendingTasks, pendingJobs, List.filter_map, Function.comp_def]

end Database

end Copr
