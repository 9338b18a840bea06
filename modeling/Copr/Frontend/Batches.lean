import Copr.Frontend.Operations

/-!
# Batches

Batches are only ever added, and a batch keeps its parent. So a build whose batch is not
blocked stays so as long as the batches before it that were finished still count as finished.
-/

namespace Copr

namespace Database

variable {db db' : Database}

/-- The batch exists. -/
def HasBatch (db : Database) (batchId : Nat) : Prop := ∃ batch ∈ db.batches, batch.id = batchId

/-- References to batches lead somewhere, and ids are not ahead of the sequence. -/
structure BatchesKnown (db : Database) : Prop where
  /-- The sequence. -/
  bounded : ∀ batch ∈ db.batches, batch.id ≤ db.batches.length
  /-- `blocked_by_id`. -/
  parents : ∀ batch ∈ db.batches, ∀ parent, batch.blockedById = some parent → db.HasBatch parent
  /-- `batch_id`. -/
  builds : ∀ b ∈ db.builds, ∀ batchId, b.batchId = some batchId → db.HasBatch batchId

/-- A reference to an existing batch is found. -/
theorem find?_batch {batches : List Batch} {batchId : Nat}
    (there : ∃ batch ∈ batches, batch.id = batchId) :
    ∃ batch ∈ batches, batches.find? (·.id = batchId) = some batch := by
  obtain ⟨batch, member, same⟩ := there
  have found : (batches.find? (·.id = batchId)).isSome = true :=
    List.find?_isSome.mpr ⟨batch, member, decide_eq_true same⟩
  obtain ⟨first, isFirst⟩ := Option.isSome_iff_exists.mp found
  exact ⟨first, List.mem_of_find?_eq_some isFirst, isFirst⟩

/-- A chain of batches that is not blocked stays so when batches are added and more of them are
finished. -/
theorem chainBlocked_grow {batches : List Batch} (more : List Batch)
    {finished finished' : Nat → Bool}
    (parents : ∀ batch ∈ batches, ∀ parent, batch.blockedById = some parent →
      ∃ other ∈ batches, other.id = parent)
    (better : ∀ batch ∈ batches, finished batch.id = true → finished' batch.id = true)
    {fuel fuel' batchId : Nat} (enough : fuel ≤ fuel')
    (there : ∃ batch ∈ batches, batch.id = batchId)
    (free : chainBlocked batches finished fuel batchId = false) :
    chainBlocked (batches ++ more) finished' fuel' batchId = false := by
  induction fuel generalizing fuel' batchId with
  | zero => simp [chainBlocked] at free
  | succ fuel ih =>
    obtain ⟨fuel', rfl⟩ : ∃ n, fuel' = n + 1 := ⟨fuel' - 1, by omega⟩
    obtain ⟨batch, member, found⟩ := find?_batch there
    have found' : (batches ++ more).find? (·.id = batchId) = some batch := by
      rw [List.find?_append, found, Option.some_or]
    simp only [chainBlocked, found, found'] at free ⊢
    cases behind : batch.blockedById with
    | none => rfl
    | some parent =>
      simp only [behind, Bool.or_eq_false_iff, Bool.not_eq_false'] at free ⊢
      obtain ⟨other, inside, rfl⟩ := parents batch member parent behind
      exact ⟨ih (by omega) ⟨other, inside, rfl⟩ free.1, better other inside free.2⟩

/-- A batch without a parent is not blocked. -/
theorem chainBlocked_free {batches : List Batch} {finished : Nat → Bool} {fuel batchId : Nat}
    (free : batches.find? (·.id = batchId) = some ⟨batchId, none⟩) :
    chainBlocked batches finished (fuel + 1) batchId = false := by
  simp [chainBlocked, free]

/-- The batch of the build is behind batches that are all in a list. -/
def Ready (db : Database) (done : List Nat) (b : Build) : Prop :=
  ∀ batchId, b.batchId = some batchId →
    chainBlocked db.batches (fun n => decide (n ∈ done)) (db.batches.length + 1) batchId = false

/-- A build that is not blocked is behind finished batches. -/
theorem ready_of_not_blocked (known : db.BatchesKnown) {cached : Nat → Bool} {done : List Nat}
    {b : Build} (member : b ∈ db.builds) (free : db.blocked cached b = false)
    (all : ∀ batch ∈ db.batches, db.batchFinished cached batch.id = true → batch.id ∈ done) :
    db.Ready done b := by
  intro batchId joined
  simp only [blocked, joined, batchBlocked] at free
  have grown : chainBlocked (db.batches ++ []) (fun n => decide (n ∈ done))
      (db.batches.length + 1) batchId = false :=
    chainBlocked_grow [] known.parents
      (fun batch inside finished => decide_eq_true (all batch inside finished))
      (Nat.le_refl _) (known.builds b member batchId joined) free
  rwa [List.append_nil] at grown

/-- A build behind batches that are finished is not blocked. -/
theorem not_blocked_of_ready (known : db.BatchesKnown) {cached : Nat → Bool} {done : List Nat}
    {b : Build} (member : b ∈ db.builds) (ready : db.Ready done b)
    (still : ∀ n ∈ done, db.batchFinished cached n = true) : db.blocked cached b = false := by
  unfold blocked
  split
  · rfl
  · rename_i batchId joined
    have grown := chainBlocked_grow [] known.parents
      (fun batch _ listed => still batch.id (of_decide_eq_true listed))
      (Nat.le_refl _) (known.builds b member batchId joined) (ready batchId joined)
    rwa [List.append_nil] at grown

/-- A build stays ready when batches are added and more of them are in the list. -/
theorem Ready.grow {done done' : List Nat} {b b' : Build} (ready : db.Ready done b)
    (known : db.BatchesKnown) (member : b ∈ db.builds) (same : b'.batchId = b.batchId)
    (batches : ∃ added, db'.batches = db.batches ++ added) (fewer : ∀ n ∈ done, n ∈ done') :
    db'.Ready done' b' := by
  intro batchId joined
  obtain ⟨added, batches⟩ := batches
  rw [same] at joined
  rw [batches]
  refine chainBlocked_grow added known.parents (fun batch _ listed => ?_) ?_
    (known.builds b member batchId joined) (ready batchId joined)
  · exact decide_eq_true (fewer _ (of_decide_eq_true listed))
  · rw [List.length_append]
    omega

/-! ## What operations do to batches -/

/-- Batches are added, and a build is in the batch in which it was or, if it was in none, in a
new one without a parent. -/
structure Joined (db db' : Database) : Prop where
  /-- Old batches stay. -/
  batches : ∃ added, db'.batches = db.batches ++ added
  /-- Builds stay, apart from their batches. -/
  builds : ∀ b ∈ db.builds, ∃ batchId, { b with batchId := batchId } ∈ db'.builds ∧
    (batchId = b.batchId ∨
      ∃ n, batchId = some n ∧ db'.batches.find? (·.id = n) = some ⟨n, none⟩)

/-- A database that has not changed has every build in the batch in which it was. -/
theorem Joined.refl (db : Database) : db.Joined db :=
  ⟨⟨[], (List.append_nil _).symm⟩, fun b member => ⟨b.batchId, member, .inl rfl⟩⟩

/-- Batches that exist are not lost. -/
theorem HasBatch.grow {batchId : Nat} (there : db.HasBatch batchId)
    (batches : ∃ added, db'.batches = db.batches ++ added) : db'.HasBatch batchId := by
  obtain ⟨added, same⟩ := batches
  obtain ⟨batch, member, rfl⟩ := there
  exact ⟨batch, same ▸ List.mem_append_left _ member, rfl⟩

/-- A new batch comes behind an existing one or none. -/
theorem newBatch_known (known : db.BatchesKnown) {blockedById : Option Nat}
    (behind : ∀ parent, blockedById = some parent → db.HasBatch parent) :
    (db.newBatch blockedById).2.BatchesKnown := by
  have grown : ∃ added, (db.newBatch blockedById).2.batches = db.batches ++ added := ⟨_, rfl⟩
  refine ⟨fun batch member => ?_, fun batch member parent before => ?_, fun b member n joined => ?_⟩
  · simp only [newBatch, List.mem_append, List.mem_singleton, List.length_append,
      List.length_singleton] at member ⊢
    rcases member with old | rfl
    · have bound := known.bounded batch old
      omega
    · exact Nat.le_refl _
  · simp only [newBatch, List.mem_append, List.mem_singleton] at member
    rcases member with old | rfl
    · exact (known.parents batch old parent before).grow grown
    · exact (behind parent before).grow grown
  · exact (known.builds b member n joined).grow grown

/-- A new batch has an id of its own. -/
theorem newBatch_find? (known : db.BatchesKnown) (blockedById : Option Nat) :
    (db.newBatch blockedById).2.batches.find? (·.id = (db.newBatch blockedById).1) =
      some ⟨(db.newBatch blockedById).1, blockedById⟩ := by
  have unused : db.batches.find? (·.id = db.batches.length + 1) = none := by
    rw [List.find?_eq_none]
    intro batch member
    have bound := known.bounded batch member
    simp only [decide_eq_true_eq]
    omega
  unfold newBatch
  rw [List.find?_append, unused, Option.none_or]
  simp

/-- A new batch disturbs no build. -/
theorem Joined.newBatch (joined : db.Joined db') (blockedById : Option Nat) :
    db.Joined (db'.newBatch blockedById).2 := by
  obtain ⟨added, batches⟩ := joined.batches
  refine ⟨⟨added ++ [⟨db'.batches.length + 1, blockedById⟩], ?_⟩, fun b member => ?_⟩
  · simp [Database.newBatch, batches]
  · obtain ⟨batchId, inside, kept⟩ := joined.builds b member
    refine ⟨batchId, inside, kept.imp_right fun ⟨n, same, found⟩ => ⟨n, same, ?_⟩⟩
    simp only [Database.newBatch, List.find?_append, found, Option.some_or]

/-- The batch of a build, or a new one, is there. -/
theorem getBatchOrCreate_joined (known : db.BatchesKnown) {cached : Nat → Bool}
    {buildId batchId : Nat} {modify allowed : Bool}
    (got : db.getBatchOrCreate cached buildId modify allowed = some (batchId, db')) :
    db.Joined db' ∧ db'.BatchesKnown ∧ db'.HasBatch batchId := by
  unfold getBatchOrCreate at got
  split at got
  · contradiction
  · rename_i b found
    split at got <;> [contradiction; skip]
    split at got
    · rename_i old joined
      obtain ⟨rfl, rfl⟩ := Prod.mk.inj (Option.some.inj got)
      exact ⟨.refl db, known, known.builds b (List.mem_of_find?_eq_some found) _ joined⟩
    · have grown : (db.newBatch none).2.BatchesKnown := newBatch_known known (by simp)
      have find? := newBatch_find? known none
      obtain ⟨rfl, rfl⟩ := Prod.mk.inj (Option.some.inj got)
      have there : (db.newBatch none).2.HasBatch (db.newBatch none).1 :=
        ⟨_, List.mem_of_find?_eq_some find?, rfl⟩
      refine ⟨⟨⟨_, rfl⟩, fun other member => ?_⟩, ⟨grown.bounded, grown.parents, ?_⟩, there⟩
      · by_cases same : other.id = buildId
        · refine ⟨some (db.newBatch none).1, ?_, .inr ⟨_, rfl, find?⟩⟩
          exact List.mem_map.mpr ⟨other, member, if_pos same⟩
        · exact ⟨other.batchId, List.mem_map.mpr ⟨other, member, if_neg same⟩, .inl rfl⟩
      · intro other member n joined
        obtain ⟨old, inside, rfl⟩ := List.mem_map.mp member
        split at joined
        · cases joined
          exact there
        · exact grown.builds old inside n joined

/-- The batch options lead to an existing batch. -/
theorem setupBatch_joined (known : db.BatchesKnown) {cached : Nat → Bool}
    {batching : Option Batching} {batchId : Option Nat}
    (set : db.setupBatch cached batching = some (batchId, db')) :
    db.Joined db' ∧ db'.BatchesKnown ∧ ∀ n, batchId = some n → db'.HasBatch n := by
  unfold setupBatch at set
  split at set
  · obtain ⟨rfl, rfl⟩ := Prod.mk.inj (Option.some.inj set)
    exact ⟨.refl db, known, by simp⟩
  · obtain ⟨⟨n, grown⟩, got, same⟩ := Option.map_eq_some_iff.mp set
    obtain ⟨rfl, rfl⟩ := Prod.mk.inj same
    obtain ⟨joined, known', there⟩ := getBatchOrCreate_joined known got
    exact ⟨joined, known', fun m equal => Option.some.inj equal ▸ there⟩
  · obtain ⟨⟨n, grown⟩, got, same⟩ := Option.map_eq_some_iff.mp set
    obtain ⟨rfl, rfl⟩ := Prod.mk.inj same
    obtain ⟨joined, known', there⟩ := getBatchOrCreate_joined known got
    refine ⟨joined.newBatch _, newBatch_known known' fun m equal => ?_, fun m equal => ?_⟩
    · exact Option.some.inj equal ▸ there
    · have find? := newBatch_find? known' (some n)
      exact Option.some.inj equal ▸ ⟨_, List.mem_of_find?_eq_some find?, rfl⟩

/-- Operations only add batches. -/
theorem operate_batches {op : Operation} (known : db.BatchesKnown)
    (operated : db.operate op = some db') :
    db'.BatchesKnown ∧ ∃ added, db'.batches = db.batches ++ added := by
  have same : ∃ added, db.batches = db.batches ++ added := ⟨[], (List.append_nil _).symm⟩
  cases operate_operated operated with
  | message m =>
    refine ⟨⟨known.bounded, known.parents, fun b member n joined => ?_⟩, same⟩
    obtain ⟨old, inside, rfl⟩ := List.mem_map.mp member
    rcases old.receive_row m with row | ⟨-, same⟩
    · exact known.builds old inside n (row.batchId ▸ joined)
    · exact known.builds old inside n (by rwa [same] at joined)
  | add cached s grown batchId set =>
    obtain ⟨joined, known', there⟩ := setupBatch_joined known set
    refine ⟨⟨known'.bounded, known'.parents, fun b member n own => ?_⟩, joined.batches⟩
    rcases List.mem_append.mp member with old | new
    · exact known'.builds b old n own
    · rw [List.mem_singleton.mp new] at own
      exact there n own
  | fork b chroots member =>
    refine ⟨⟨known.bounded, known.parents, fun c inside n own => ?_⟩, same⟩
    rcases List.mem_append.mp inside with old | new
    · exact known.builds c old n own
    · rw [List.mem_singleton.mp new] at own
      exact known.builds b member n own
  | rawhideToRelease buildId rawhide dest =>
    refine ⟨⟨known.bounded, known.parents, fun b member n joined => ?_⟩, same⟩
    obtain ⟨old, inside, rfl⟩ := List.mem_map.mp member
    refine known.builds old inside n ?_
    obtain ⟨added, same⟩ := forkRawhideChroot_adds rawhide dest old
    rw [← joined]
    split
    · rw [same]
    · rfl
  | markAsFailed buildId =>
    refine ⟨⟨known.bounded, known.parents, fun b member n joined => ?_⟩, same⟩
    obtain ⟨old, inside, rfl⟩ := List.mem_map.mp member
    refine known.builds old inside n ?_
    rw [← joined]
    split <;> rfl
  | deleteBuild buildId finished =>
    exact ⟨⟨known.bounded, known.parents, fun b member n joined =>
      known.builds b (List.mem_of_mem_filter member) n joined⟩, same⟩

end Database

end Copr
