import Copr.Frontend.BatchCaches

/-!
# Dependencies between batches

The frontend together with what Redis remembers of finished batches, for every history of
submissions with batch options, of reports, cancelations and deletions. Batches are only ever
put behind older ones. A batch that was once found finished counts as finished as long as Redis
remembers it, so the queue respects the dependencies as long as no late message reopens a build
of such a batch.
-/

namespace Copr

open Runs

namespace Database

/-- `add` once the batch is known. -/
def addInto (db : Database) (batchId : Option Nat) (s : Submission) : Option Database :=
  if s.package.isSome ∧ s.chroots.chroots = [] then none
  else if s.skipImport = true ∧ s.package = none ∧ s.chroots.chroots ≠ [] then none
  else
    some { db with
      builds := db.builds ++ [skipPreviouslySkipped s.skipped (addedBuild db.nextBuildId batchId s)]
      nextBuildId := db.nextBuildId + 1 }

/-- `setup_batch` with `always_create`. -/
def alwaysCreate (db : Database) (cached : Nat → Bool) (batching : Option Batching) :
    Option (Option Nat × Database) :=
  match batching with
  | none =>
    let (batchId, grown) := db.newBatch none
    some (some batchId, grown)
  | some option => db.setupBatch cached (some option)

/-- `batch_build`: all builds come into one batch. -/
def batchBuild (db : Database) (cached : Nat → Bool) (batching : Option Batching)
    (submissions : List Submission) : Option Database :=
  (db.alwaysCreate cached batching).bind fun (batchId, grown) =>
    submissions.foldlM (fun db s => db.addInto batchId s) grown

/-- A submission sets up its batch first. -/
theorem add_eq (db : Database) (cached : Nat → Bool) (s : Submission) :
    db.add cached s =
      (db.setupBatch cached s.batching).bind fun (batchId, grown) => grown.addInto batchId s := by
  unfold add addInto
  split
  · cases db.setupBatch cached s.batching <;> rfl
  · split
    · cases db.setupBatch cached s.batching <;> rfl
    · cases db.setupBatch cached s.batching <;> rfl

end Database

/-- The submission asks Redis about batches as it is. -/
def Operation.asking (redis : List Nat) : Operation → Operation
  | .add _ s => .add (fun n => decide (n ∈ redis)) s
  | op => op

/-- The database and the batches that Redis remembers as finished. -/
structure BatchState where
  /-- The tables. -/
  db : Database
  /-- The batches with a `batch_finished_<id>`. -/
  redis : List Nat
  deriving DecidableEq, Repr

/-- What happens to them. -/
inductive BatchEvent
  /-- One operation on builds. -/
  | operation (op : Operation)
  /-- `batch_build`. -/
  | batchBuild (batching : Option Batching) (submissions : List Submission)
  /-- The backend asks for the queue. -/
  | pendingJobs
  /-- A form or a page asks whether a batch is finished. -/
  | askFinished (batchId : Nat)
  /-- Redis forgets a batch. -/
  | expire (batchId : Nat)

namespace BatchState

open Database

/-- Nothing is there. -/
def initial : BatchState := ⟨Database.empty, []⟩

/-- One event; `none` is an error response. -/
def step (s : BatchState) : BatchEvent → Option BatchState
  | .operation op => (s.db.operate (op.asking s.redis)).map fun db => { s with db := db }
  | .batchBuild batching submissions =>
    (s.db.batchBuild (fun n => decide (n ∈ s.redis)) batching submissions).map fun db =>
      { s with db := db }
  | .pendingJobs =>
    (s.db.pendingJobsResponse s.redis).map fun (_, redis) => { s with redis := redis }
  | .askFinished batchId => some { s with redis := (s.db.finishedSlow batchId s.redis).2 }
  | .expire batchId => some { s with redis := s.redis.filter fun n => decide (n ≠ batchId) }

/-- Redis remembers the batch of the build as finished. -/
def remembered (s : BatchState) (b : Build) : Bool :=
  s.redis.any fun n => decide (b.batchId = some n)

/-- A message reopens no build of a batch that Redis remembers as finished. -/
def admits (s : BatchState) : BatchEvent → Bool
  | .operation (.message m) =>
    s.db.builds.all fun b => !s.remembered b || !b.addressed m || !b.reopens m
  | _ => true

/-- Redis remembers finished batches only. -/
def CacheRight (s : BatchState) : Prop :=
  ∀ n ∈ s.redis, ∀ b ∈ s.db.builds, b.batchId = some n → b.finished = true

/-- What holds in every state. -/
structure Orderly (s : BatchState) : Prop where
  /-- Build ids. -/
  ids : s.db.IdsKnown
  /-- References to batches. -/
  known : s.db.BatchesKnown
  /-- The order of batches. -/
  ordered : s.db.BatchesOrdered
  /-- Redis remembers batches that exist. -/
  bounded : ∀ n ∈ s.redis, n ≤ s.db.batches.length

/-! ## Setting up batches -/

section Batches

variable {s : BatchState} {db' : Database} (orderly : s.Orderly)

include orderly

/-- A new batch is not remembered. -/
theorem newBatch_fresh : s.db.batches.length + 1 ∉ s.redis := by
  intro listed
  have bound := orderly.bounded _ listed
  omega

/-- A new batch keeps the order. -/
theorem newBatch_orderly {blockedById : Option Nat}
    (behind : ∀ parent, blockedById = some parent → s.db.HasBatch parent) :
    Orderly ⟨(s.db.newBatch blockedById).2, s.redis⟩ := by
  refine ⟨⟨orderly.ids.distinct, orderly.ids.bounded⟩, newBatch_known orderly.known behind,
    newBatch_ordered orderly.known orderly.ordered behind, fun n listed => ?_⟩
  have bound := orderly.bounded n listed
  simp only [newBatch, List.length_append, List.length_singleton]
  omega

/-- Batch options keep the order. -/
theorem setupBatch_orderly {cached : Nat → Bool} {batching : Option Batching}
    {batchId : Option Nat} (set : s.db.setupBatch cached batching = some (batchId, db')) :
    Orderly ⟨db', s.redis⟩ := by
  obtain ⟨joined, known', -⟩ := setupBatch_joined orderly.known set
  have rebatched := setupBatch_rebatched set
  obtain ⟨batch, builds⟩ := rebatched.builds
  obtain ⟨added, batches⟩ := joined.batches
  refine ⟨orderly.ids.map (fun _ => ?_) builds rebatched.nextBuildId, known',
    setupBatch_ordered orderly.known orderly.ordered set, fun n listed => ?_⟩
  · rfl
  · have bound := orderly.bounded n listed
    show n ≤ db'.batches.length
    rw [batches, List.length_append]
    omega

/-- The batch of a build is a new one, or one that is there. A batch to be modified is not
remembered. -/
theorem getBatchOrCreate_right (right : s.CacheRight) {buildId batchId : Nat}
    {modify allowed : Bool}
    (got : s.db.getBatchOrCreate (fun n => decide (n ∈ s.redis)) buildId modify allowed =
      some (batchId, db')) :
    CacheRight ⟨db', s.redis⟩ ∧ (modify = true → batchId ∉ s.redis) := by
  have fresh := newBatch_fresh orderly
  unfold getBatchOrCreate at got
  split at got
  · contradiction
  · split at got <;> [contradiction; rename_i free]
    split at got
    · rename_i old joined
      obtain ⟨rfl, rfl⟩ := Prod.mk.inj (Option.some.inj got)
      refine ⟨right, fun modifies listed => free ?_⟩
      simp [batchingUserError, joined, modifies, batchFinished, listed]
    · obtain ⟨rfl, rfl⟩ := Prod.mk.inj (Option.some.inj got)
      refine ⟨fun n listed b member joined => ?_, fun _ => fresh⟩
      obtain ⟨old, inside, rfl⟩ := List.mem_map.mp member
      split at joined
      · have same : s.db.batches.length + 1 = n := Option.some.inj joined
        rw [← same] at listed
        exact absurd listed fresh
      · rename_i other
        rw [if_neg other]
        exact right n listed old inside joined

/-- No submission comes into a batch that Redis remembers. -/
theorem setupBatch_right (right : s.CacheRight) {batching : Option Batching}
    {batchId : Option Nat}
    (set : s.db.setupBatch (fun n => decide (n ∈ s.redis)) batching = some (batchId, db')) :
    CacheRight ⟨db', s.redis⟩ ∧ ∀ n, batchId = some n → n ∉ s.redis := by
  unfold setupBatch at set
  split at set
  · obtain ⟨rfl, rfl⟩ := Prod.mk.inj (Option.some.inj set)
    exact ⟨right, by simp⟩
  · obtain ⟨⟨n, grown⟩, got, same⟩ := Option.map_eq_some_iff.mp set
    obtain ⟨rfl, rfl⟩ := Prod.mk.inj same
    obtain ⟨right', free⟩ := getBatchOrCreate_right orderly right got
    refine ⟨right', fun m equal => ?_⟩
    rw [← Option.some.inj equal]
    exact free rfl
  · obtain ⟨⟨n, grown⟩, got, same⟩ := Option.map_eq_some_iff.mp set
    obtain ⟨rfl, rfl⟩ := Prod.mk.inj same
    obtain ⟨right', -⟩ := getBatchOrCreate_right orderly right got
    obtain ⟨joined, -⟩ := getBatchOrCreate_joined orderly.known got
    obtain ⟨added, batches⟩ := joined.batches
    refine ⟨right', fun m equal listed => ?_⟩
    have bound := orderly.bounded m listed
    have next : grown.batches.length + 1 = m := Option.some.inj equal
    rw [batches, List.length_append] at next
    omega

end Batches

/-- A build is added to a batch that is not remembered. -/
theorem addInto_kept {s : BatchState} {db' : Database} (orderly : s.Orderly)
    {batchId : Option Nat} {submission : Submission}
    (there : ∀ n, batchId = some n → s.db.HasBatch n)
    (added : s.db.addInto batchId submission = some db') :
    Orderly ⟨db', s.redis⟩ ∧ db'.batches = s.db.batches ∧
      (s.CacheRight → (∀ n, batchId = some n → n ∉ s.redis) → CacheRight ⟨db', s.redis⟩) := by
  unfold addInto at added
  split at added
  · contradiction
  · split at added
    · contradiction
    · obtain rfl := Option.some.inj added
      refine ⟨⟨orderly.ids.snoc rfl, ⟨orderly.known.bounded, orderly.known.parents, ?_⟩,
        ⟨orderly.ordered.distinct, orderly.ordered.younger⟩, orderly.bounded⟩, rfl, ?_⟩
      · intro b member n own
        rcases List.mem_append.mp member with old | new
        · exact orderly.known.builds b old n own
        · rw [List.mem_singleton.mp new] at own
          exact there n own
      · intro right free n listed b member own
        rcases List.mem_append.mp member with old | new
        · exact right n listed b old own
        · rw [List.mem_singleton.mp new] at own
          exact absurd listed (free n own)

/-- Builds are added to a batch that is not remembered. -/
theorem foldAdd_kept {s : BatchState} {db' : Database} (orderly : s.Orderly)
    {batchId : Option Nat} {submissions : List Submission}
    (there : ∀ n, batchId = some n → s.db.HasBatch n)
    (added : submissions.foldlM (fun db s => db.addInto batchId s) s.db = some db') :
    Orderly ⟨db', s.redis⟩ ∧
      (s.CacheRight → (∀ n, batchId = some n → n ∉ s.redis) → CacheRight ⟨db', s.redis⟩) := by
  induction submissions generalizing s with
  | nil =>
    obtain rfl := Option.some.inj added
    exact ⟨orderly, fun right _ => right⟩
  | cons first rest ih =>
    rw [List.foldlM_cons] at added
    obtain ⟨db, before, later⟩ := Option.bind_eq_some_iff.mp added
    obtain ⟨orderly', batches, right'⟩ := addInto_kept orderly there before
    have there' : ∀ n, batchId = some n → db.HasBatch n := by
      intro n own
      exact (there n own).grow ⟨[], by rw [batches, List.append_nil]⟩
    obtain ⟨ends, rightEnds⟩ := ih orderly' there' later
    exact ⟨ends, fun right free => rightEnds (right' right free) free⟩

/-- A submission keeps the order, and no batch that Redis remembers grows. -/
theorem add_kept {s : BatchState} {db' : Database} (orderly : s.Orderly) {submission : Submission}
    (added : s.db.add (fun n => decide (n ∈ s.redis)) submission = some db') :
    Orderly ⟨db', s.redis⟩ ∧ (s.CacheRight → CacheRight ⟨db', s.redis⟩) := by
  rw [add_eq] at added
  obtain ⟨⟨batchId, grown⟩, set, into⟩ := Option.bind_eq_some_iff.mp added
  obtain ⟨-, -, there⟩ := setupBatch_joined orderly.known set
  obtain ⟨ends, -, right'⟩ := addInto_kept (setupBatch_orderly orderly set) there into
  refine ⟨ends, fun right => ?_⟩
  obtain ⟨before, free⟩ := setupBatch_right orderly right set
  exact right' before free

/-- The same for the builds of one batch. -/
theorem batchBuild_kept {s : BatchState} {db' : Database} (orderly : s.Orderly)
    {batching : Option Batching} {submissions : List Submission}
    (built : s.db.batchBuild (fun n => decide (n ∈ s.redis)) batching submissions = some db') :
    Orderly ⟨db', s.redis⟩ ∧ (s.CacheRight → CacheRight ⟨db', s.redis⟩) := by
  obtain ⟨⟨batchId, grown⟩, set, into⟩ := Option.bind_eq_some_iff.mp built
  cases batching with
  | none =>
    obtain ⟨rfl, rfl⟩ := Prod.mk.inj (Option.some.inj set)
    have fresh := newBatch_fresh orderly
    have there : ∀ n, some (s.db.newBatch none).1 = some n → (s.db.newBatch none).2.HasBatch n := by
      intro n same
      rw [← Option.some.inj same]
      exact ⟨_, List.mem_of_find?_eq_some (newBatch_find? orderly.known none), rfl⟩
    have grown : Orderly ⟨(s.db.newBatch none).2, s.redis⟩ := newBatch_orderly orderly (by simp)
    obtain ⟨ends, right'⟩ := foldAdd_kept grown there into
    refine ⟨ends, fun right => right' right fun n same listed => ?_⟩
    rw [← Option.some.inj same] at listed
    exact fresh listed
  | some option =>
    obtain ⟨-, -, there⟩ := setupBatch_joined orderly.known set
    obtain ⟨ends, right'⟩ := foldAdd_kept (setupBatch_orderly orderly set) there into
    refine ⟨ends, fun right => ?_⟩
    obtain ⟨before, free⟩ := setupBatch_right orderly right set
    exact right' before free

/-! ## The other operations -/

/-- Changing builds one by one keeps what Redis remembers right exactly if the builds of
remembered batches stay finished. -/
theorem right_map {s : BatchState} {db' : Database} {f : Build → Build}
    (same : ∀ b, (f b).batchId = b.batchId) (builds : db'.builds = s.db.builds.map f) :
    CacheRight ⟨db', s.redis⟩ ↔
      ∀ b ∈ s.db.builds, s.remembered b = true → (f b).finished = true := by
  unfold CacheRight remembered
  simp only [builds, List.forall_mem_map, same, List.any_eq_true, decide_eq_true_eq]
  constructor
  · rintro all b member ⟨n, listed, own⟩
    exact all n listed b member own
  · intro all n listed b member own
    exact all b member ⟨n, listed, own⟩

/-- What Redis remembers is right. -/
theorem right_iff {s : BatchState} :
    s.CacheRight ↔ ∀ b ∈ s.db.builds, s.remembered b = true → b.finished = true :=
  right_map (f := id) (fun _ => rfl) (List.map_id _).symm

/-- Messages leave the batch of a build alone. -/
theorem receive_batchId (b : Build) (m : Message) : (b.receive m).batchId = b.batchId := by
  rcases b.receive_row m with row | ⟨-, same⟩
  · exact row.batchId
  · rw [same]

/-- A message keeps what Redis remembers right exactly if it is admitted. -/
theorem message_right {s : BatchState} (right : s.CacheRight) (m : Message) :
    CacheRight ⟨s.db.receive m, s.redis⟩ ↔ s.admits (.operation (.message m)) = true := by
  rw [right_map (f := fun b => b.receive m) (fun b => receive_batchId b m) rfl, admits,
    List.all_eq_true]
  refine forall₂_congr fun b member => ?_
  by_cases known : s.remembered b = true
  · have finished : b.finished = true := right_iff.mp right b member known
    rw [Build.receive_finished finished]
    by_cases addressed : b.addressed m = true <;> simp [known, addressed]
  · simp [known]

/-- An operation keeps the order, and what Redis remembers right exactly if it is admitted. -/
theorem operate_kept {s : BatchState} {db' : Database} (orderly : s.Orderly) {op : Operation}
    (operated : s.db.operate (op.asking s.redis) = some db') :
    Orderly ⟨db', s.redis⟩ ∧
      (s.CacheRight → (CacheRight ⟨db', s.redis⟩ ↔ s.admits (.operation op) = true)) := by
  have orderly' : Orderly ⟨db', s.redis⟩ := by
    obtain ⟨known', added, batches⟩ := operate_batches orderly.known operated
    refine ⟨operate_idsKnown orderly.ids operated, known',
      operate_ordered orderly.known orderly.ordered operated, fun n listed => ?_⟩
    have bound := orderly.bounded n listed
    show n ≤ db'.batches.length
    rw [batches, List.length_append]
    omega
  refine ⟨orderly', fun right => ?_⟩
  cases op with
  | message m =>
    obtain rfl := Option.some.inj operated
    exact message_right right m
  | add cached submission => exact iff_of_true ((add_kept orderly operated).2 right) rfl
  | fork buildId chroots =>
    cases operate_operated operated with
    | fork b chroots member =>
      refine iff_of_true (fun n listed c inside own => ?_) rfl
      rcases List.mem_append.mp inside with old | new
      · exact right n listed c old own
      · rw [List.mem_singleton.mp new]
        exact Build.forkBuild_finished _ b chroots
  | rawhideToRelease buildId rawhide dest =>
    obtain rfl := Option.some.inj operated
    refine iff_of_true ((right_map (fun b => ?_) rfl).mpr fun b member known => ?_) rfl
    · obtain ⟨added, same⟩ := forkRawhideChroot_adds rawhide dest b
      split
      · rw [same]
      · rfl
    · have finished := right_iff.mp right b member known
      split
      · exact Build.forkRawhideChroot_finished finished rawhide dest
      · exact finished
  | markAsFailed buildId =>
    obtain rfl := Option.some.inj operated
    refine iff_of_true ((right_map (fun b => ?_) rfl).mpr fun b member known => ?_) rfl
    · split <;> rfl
    · have finished := right_iff.mp right b member known
      split
      · exact Build.markAsFailed_finished finished
      · exact finished
  | deleteBuild buildId =>
    cases operate_operated operated with
    | deleteBuild buildId all =>
      refine iff_of_true (fun n listed b member own => ?_) rfl
      exact right n listed b (List.mem_of_mem_filter member) own

/-! ## Runs -/

/-- Redis gets to remember finished batches only. -/
theorem remember_kept {s : BatchState} {redis : List Nat} (orderly : s.Orderly)
    (new : ∀ n ∈ redis, s.db.finishedBy s.redis n = true) :
    Orderly ⟨s.db, redis⟩ ∧ (s.CacheRight → CacheRight ⟨s.db, redis⟩) := by
  have known : ∀ n ∈ redis, n ∈ s.redis ∨
      (s.db.batchBuilds n ≠ [] ∧ ∀ b ∈ s.db.batchBuilds n, b.finished = true) := by
    intro n listed
    simpa [finishedBy, batchFinished] using new n listed
  refine ⟨⟨orderly.ids, orderly.known, orderly.ordered, fun n listed => ?_⟩, ?_⟩
  · rcases known n listed with old | ⟨inhabited, -⟩
    · exact orderly.bounded n old
    · obtain ⟨b, member⟩ := List.exists_mem_of_ne_nil _ inhabited
      simp only [batchBuilds, List.mem_filter, decide_eq_true_eq] at member
      obtain ⟨batch, inside, same⟩ := orderly.known.builds b member.1 n member.2
      exact same ▸ orderly.known.bounded batch inside
  · intro right n listed b member own
    rcases known n listed with old | ⟨-, all⟩
    · exact right n old b member own
    · refine all b ?_
      simp [batchBuilds, member, own]

/-- Every event keeps the order, and what Redis remembers right exactly if it is admitted. -/
theorem step_kept {s t : BatchState} {e : BatchEvent} (orderly : s.Orderly)
    (stepped : s.step e = some t) :
    t.Orderly ∧ (s.CacheRight → (t.CacheRight ↔ s.admits e = true)) := by
  cases e with
  | operation op =>
    obtain ⟨db, operated, rfl⟩ := Option.map_eq_some_iff.mp stepped
    exact operate_kept orderly operated
  | batchBuild batching submissions =>
    obtain ⟨db, built, rfl⟩ := Option.map_eq_some_iff.mp stepped
    obtain ⟨orderly', right'⟩ := batchBuild_kept orderly built
    exact ⟨orderly', fun right => iff_of_true (right' right) rfl⟩
  | pendingJobs =>
    obtain ⟨redis, answered, new⟩ :=
      pendingJobsResponse_answers orderly.known orderly.ordered s.redis
    simp only [step, answered, Option.map_some] at stepped
    obtain rfl := Option.some.inj stepped
    obtain ⟨orderly', right'⟩ := remember_kept orderly new
    exact ⟨orderly', fun right => iff_of_true (right' right) rfl⟩
  | askFinished batchId =>
    obtain rfl := Option.some.inj stepped
    have start := remembers_start s.db s.redis
    obtain ⟨-, -, new⟩ := finishedSlow_answers start.kept start.right batchId
    obtain ⟨orderly', right'⟩ := remember_kept orderly new
    exact ⟨orderly', fun right => iff_of_true (right' right) rfl⟩
  | expire batchId =>
    obtain rfl := Option.some.inj stepped
    refine ⟨⟨orderly.ids, orderly.known, orderly.ordered, fun n listed => ?_⟩, fun right => ?_⟩
    · exact orderly.bounded n (List.mem_of_mem_filter listed)
    · refine iff_of_true (fun n listed b member own => ?_) rfl
      exact right n (List.mem_of_mem_filter listed) b member own

/-- Nothing is out of order at the start. -/
theorem initial_orderly : initial.Orderly := by
  refine ⟨⟨List.nodup_nil, ?_⟩, ⟨?_, ?_, ?_⟩, ⟨List.nodup_nil, ?_⟩, ?_⟩ <;>
    simp [initial, Database.empty]

/-- Batch dependencies are respected. -/
structure Respected (s : BatchState) : Prop where
  /-- No batch transitively precedes itself. -/
  acyclic : ∀ n, ¬ s.db.Behind n n
  /-- `Batch.blocked` returns, whatever rows the request has loaded, and its answer is no exactly
  when all batches that transitively precede the batch are finished. -/
  blocked : ∀ batch ∈ s.db.batches, ∀ caches, s.db.Remembers s.redis caches →
    ∃ blocked caches', s.db.askBlocked batch.id caches = some (blocked, caches') ∧
      (blocked = false ↔ ∀ n, s.db.Behind batch.id n → s.db.finishedBy s.redis n = true)
  /-- `/pending-jobs/` is answered, and it lists a task of a build only if all builds of all
  batches that transitively precede its batch are finished. -/
  queue : ∃ records redis', s.db.pendingJobsResponse s.redis = some (records, redis') ∧
    ∀ b ∈ s.db.builds, ∀ record ∈ records, record.buildId = b.id →
      ∀ batchId n, b.batchId = some batchId → s.db.Behind batchId n →
        ∀ c ∈ s.db.builds, c.batchId = some n → c.finished = true

/-- Dependencies are respected where Redis remembers finished batches only. -/
theorem respected_of_right {s : BatchState} (orderly : s.Orderly) (right : s.CacheRight) :
    s.Respected := by
  refine ⟨fun n around => ?_, fun batch member caches remembers => ?_, ?_⟩
  · rw [← ancestor_eq orderly.ordered] at around
    exact Ancestry.acyclic (fun n => n) (blockedBy_falls orderly.ordered) n around
  · obtain ⟨blocked, caches', asked, -, answer⟩ :=
      askBlocked_answers orderly.ordered (orderly.known.bounded batch member) remembers
    exact ⟨blocked, caches', asked, answer⟩
  · obtain ⟨redis', answered, -⟩ :=
      pendingJobsResponse_answers orderly.known orderly.ordered s.redis
    refine ⟨_, redis', answered, fun b member record listed own batchId n joined behind c inside
      other => ?_⟩
    obtain ⟨listedBuild, listedMember, -, free, kind⟩ := mem_pendingJobs.mp listed
    have ownId : record.buildId = listedBuild.id := by
      rcases kind with ⟨rfl, -⟩ | ⟨d, -, rfl, -⟩
      · rfl
      · rfl
    have same : listedBuild = b := orderly.ids.eq listedMember member (ownId.symm.trans own)
    rw [same] at free
    have finished := (blocked_iff orderly.known orderly.ordered member _).mp free batchId joined n
      behind
    by_cases known : n ∈ s.redis
    · exact right n known c inside other
    · simp only [batchFinished, known, decide_false, Bool.false_or, Bool.and_eq_true,
        List.all_eq_true] at finished
      refine finished.2 c ?_
      simp [batchBuilds, inside, other]

/-- In every run in which no message reopens a build of a batch that Redis remembers as
finished, batch dependencies are respected; and from the state reached an event leads to one in
which Redis remembers finished batches only exactly if it is admitted as well. -/
theorem dependencies_respected {s : BatchState}
    (run : Run step (fun s e => s.admits e = true) initial s) :
    s.Respected ∧
      ∀ e t, s.step e = some t →
        ((∀ n ∈ t.redis, ∀ b ∈ t.db.builds, b.batchId = some n → b.finished = true) ↔
          s.admits e = true) := by
  obtain ⟨orderly, right⟩ : s.Orderly ∧ s.CacheRight := by
    refine run_invariant (fun s => s.Orderly ∧ s.CacheRight) ?_ run
      ⟨initial_orderly, by simp [initial, CacheRight]⟩
    rintro s e t ⟨orderly, right⟩ admitted stepped
    obtain ⟨orderly', right'⟩ := step_kept orderly stepped
    exact ⟨orderly', (right' right).mpr admitted⟩
  exact ⟨respected_of_right orderly right, fun e t stepped => (step_kept orderly stepped).2 right⟩

/-- A build in one chroot. -/
def leading : Submission := { Sample.submission with chroots := ⟨[Sample.fedora], by decide⟩ }

/-- A build in another chroot, behind the batch of the first one. -/
def following : Submission :=
  { Sample.submission with
    chroots := ⟨[Sample.epel], by decide⟩
    batching := some (.afterBuild 1 true) }

/-- What a state shows of its builds, its batches and its queue. -/
def shown (s : BatchState) : List (Nat × Option Nat × Bool) × List Batch × Option (List Nat) :=
  (s.db.builds.map fun b => (b.id, b.batchId, b.finished), s.db.batches,
    (s.db.pendingJobsResponse s.redis).map fun (records, _) => records.map JobRecord.buildId)

/-- The second build is listed once the first one has failed. -/
theorem dependencies_respected_failed :
    ∃ s : BatchState, s.shown =
        ([(1, some 1, true), (2, some 2, false)], [⟨1, none⟩, ⟨2, some 1⟩], some [2]) ∧
      s.Respected := by
  obtain ⟨s, run, seen⟩ := exec_observe step admits initial
    [.operation (.add (fun _ => false) leading), .operation (.add (fun _ => false) following),
      .pendingJobs, .operation (.message (Sample.sourceReport .running)),
      .operation (.message (Sample.sourceReport .failed)), .pendingJobs]
    shown ([(1, some 1, true), (2, some 2, false)], [⟨1, none⟩, ⟨2, some 1⟩], some [2]) rfl
  exact ⟨s, seen, (dependencies_respected run).1⟩

/-- The chroot of the first build reaches the end of its life while the sources are imported.
The build is finished, the queue is asked, and Redis remembers the batch. The import then hands
the chroot to the backend after all, and yet the second build stays in the queue. -/
theorem reopened_batch_released : ¬ ∀ s : BatchState, Run step anyEvent initial s →
    s.Respected := by
  intro claimed
  obtain ⟨s, run, seen⟩ := exec_observe step (fun _ _ => true) initial
    [.operation (.add (fun _ => false) leading), .operation (.add (fun _ => false) following),
      .operation (.message (Sample.sourceReport .succeeded)),
      .operation (.message (.cancelBuildChrootsByMock Sample.fedora)), .pendingJobs,
      .operation (.message (.importCompleted 1 [("f39", "c0ffee")]))]
    shown ([(1, some 1, false), (2, some 2, false)], [⟨1, none⟩, ⟨2, some 1⟩], some [2, 1]) rfl
  simp only [shown, Prod.mk.injEq] at seen
  obtain ⟨builds, batches, listed⟩ := seen
  obtain ⟨records, redis', answered, queue⟩ :=
    (claimed s (run_weaken (fun _ _ _ => trivial) run)).queue
  rw [answered, Option.map_some] at listed
  have ids : records.map JobRecord.buildId = [2, 1] := Option.some.inj listed
  obtain ⟨first, memberFirst, firstIs⟩ :=
    List.mem_map.mp (builds ▸ List.mem_cons_self : (1, some 1, false) ∈ s.db.builds.map _)
  obtain ⟨second, memberSecond, secondIs⟩ := List.mem_map.mp
    (builds ▸ List.mem_cons_of_mem _ List.mem_cons_self : (2, some 2, false) ∈ s.db.builds.map _)
  obtain ⟨record, inside, recordIs⟩ := List.mem_map.mp (ids ▸ List.mem_cons_self : 2 ∈ _)
  simp only [Prod.mk.injEq] at firstIs secondIs
  have behind : s.db.Behind 2 1 :=
    .single ⟨⟨2, some 1⟩, by simp [batches], rfl, rfl⟩
  have finished := queue second memberSecond record inside (recordIs.trans secondIs.1.symm) 2 1
    secondIs.2.1 behind first memberFirst firstIs.2.1
  rw [firstIs.2.2] at finished
  contradiction

end BatchState

end Copr
