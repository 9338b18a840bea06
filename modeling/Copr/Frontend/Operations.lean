import Copr.Frontend.Reports

/-!
# What an operation does to the builds

The effect of each operation on the rows, with the batch options of a submission reduced to
what they may do: change the batches of builds. Build ids come from a sequence, so no two
builds of a reachable database have one id.
-/

namespace Copr

namespace Database

variable {db db' : Database} {op : Operation}

/-- Batches change, and with them the batches of some builds. -/
structure Rebatched (db db' : Database) : Prop where
  /-- Only the column of the batch changes. -/
  builds : ∃ batch : Build → Option Nat,
    db'.builds = db.builds.map fun b => { b with batchId := batch b }
  /-- The cancel requests stay. -/
  cancelRequests : db'.cancelRequests = db.cancelRequests
  /-- The sequence stays. -/
  nextBuildId : db'.nextBuildId = db.nextBuildId

/-- A database that has not changed has the batches that it had. -/
theorem Rebatched.refl (db : Database) : db.Rebatched db :=
  ⟨⟨Build.batchId, (List.map_id _).symm⟩, rfl, rfl⟩

/-- A new batch leaves builds where they are. -/
theorem Rebatched.newBatch (rebatched : db.Rebatched db') (blockedById : Option Nat) :
    db.Rebatched (db'.newBatch blockedById).2 :=
  ⟨rebatched.builds, rebatched.cancelRequests, rebatched.nextBuildId⟩

/-- The batch of a build changes at most the batches of builds. -/
theorem getBatchOrCreate_rebatched {cached : Nat → Bool} {buildId batchId : Nat}
    {modify allowed : Bool}
    (got : db.getBatchOrCreate cached buildId modify allowed = some (batchId, db')) :
    db.Rebatched db' := by
  unfold getBatchOrCreate at got
  split at got
  · contradiction
  · split at got <;> [contradiction; skip]
    split at got
    · obtain ⟨-, rfl⟩ := Prod.mk.inj (Option.some.inj got)
      exact .refl db
    · rename_i b found batchless
      obtain ⟨-, rfl⟩ := Prod.mk.inj (Option.some.inj got)
      refine ⟨⟨fun b => if b.id = buildId then some (db.newBatch none).1 else b.batchId, ?_⟩,
        rfl, rfl⟩
      refine List.map_congr_left fun b _ => ?_
      dsimp only
      split <;> rfl

/-- The batch options change at most the batches of builds. -/
theorem setupBatch_rebatched {cached : Nat → Bool} {batching : Option Batching}
    {batchId : Option Nat} (set : db.setupBatch cached batching = some (batchId, db')) :
    db.Rebatched db' := by
  unfold setupBatch at set
  split at set
  · obtain ⟨-, rfl⟩ := Prod.mk.inj (Option.some.inj set)
    exact .refl db
  · obtain ⟨⟨_, grown⟩, got, same⟩ := Option.map_eq_some_iff.mp set
    obtain ⟨-, rfl⟩ := Prod.mk.inj same
    exact getBatchOrCreate_rebatched got
  · obtain ⟨⟨_, grown⟩, got, same⟩ := Option.map_eq_some_iff.mp set
    obtain ⟨-, rfl⟩ := Prod.mk.inj same
    exact (getBatchOrCreate_rebatched got).newBatch _

/-- The effects of the operations. -/
inductive Operated (db : Database) : Operation → Database → Prop
  /-- A message arrives. -/
  | message (m : Message) : Operated db (.message m) (db.receive m)
  /-- A build is added, once its batch is set up. -/
  | add (cached : Nat → Bool) (s : Submission) (grown : Database) (batchId : Option Nat)
      (set : db.setupBatch cached s.batching = some (batchId, grown)) :
      Operated db (.add cached s)
        { grown with
          builds := grown.builds ++
            [skipPreviouslySkipped s.skipped (addedBuild grown.nextBuildId batchId s)]
          nextBuildId := grown.nextBuildId + 1 }
  /-- A build is forked. -/
  | fork (b : Build) (chroots : List String) (member : b ∈ db.builds) :
      Operated db (.fork b.id chroots)
        { db with
          builds := db.builds ++ [forkBuild db.nextBuildId b chroots]
          nextBuildId := db.nextBuildId + 1 }
  /-- A rawhide chroot is copied. -/
  | rawhideToRelease (buildId : Nat) (rawhide dest : MockChroot) :
      Operated db (.rawhideToRelease buildId rawhide dest)
        { db with
          builds := db.builds.map fun b =>
            if b.id = buildId then forkRawhideChroot rawhide dest b else b }
  /-- A build is marked as failed. -/
  | markAsFailed (buildId : Nat) :
      Operated db (.markAsFailed buildId)
        { db with
          builds := db.builds.map fun b =>
            if b.id = buildId then BuildsLogic.markAsFailed b else b }
  /-- A finished build is deleted. -/
  | deleteBuild (buildId : Nat)
      (finished : ∀ b ∈ db.builds, b.id = buildId → b.finished = true) :
      Operated db (.deleteBuild buildId)
        { db with builds := db.builds.filter fun b => decide (b.id ≠ buildId) }

/-- An operation that succeeds has its effect. -/
theorem operate_operated (operated : db.operate op = some db') : Operated db op db' := by
  cases op with
  | message m =>
    obtain rfl := Option.some.inj operated
    exact .message m
  | add cached s =>
    simp only [operate, add] at operated
    split at operated
    · contradiction
    · split at operated
      · contradiction
      · obtain ⟨⟨batchId, grown⟩, set, rfl⟩ := Option.map_eq_some_iff.mp operated
        exact .add cached s grown batchId set
  | fork buildId chroots =>
    obtain ⟨b, found, rfl⟩ := Option.map_eq_some_iff.mp operated
    obtain rfl : b.id = buildId := by simpa using List.find?_some found
    exact .fork b chroots (List.mem_of_find?_eq_some found)
  | rawhideToRelease buildId rawhide dest =>
    obtain rfl := Option.some.inj operated
    exact .rawhideToRelease buildId rawhide dest
  | markAsFailed buildId =>
    obtain rfl := Option.some.inj operated
    exact .markAsFailed buildId
  | deleteBuild buildId =>
    simp only [operate] at operated
    split at operated
    · rename_i all
      obtain rfl := Option.some.inj operated
      refine .deleteBuild buildId fun b member same => ?_
      simpa [same] using List.all_eq_true.mp all b member
    · contradiction

/-! ## The list of jobs -/

/-- What is listed is a task in a status for the backend, of a build that is neither canceled
nor blocked. -/
theorem mem_pendingJobs {cached : Nat → Bool} {record : JobRecord} :
    record ∈ db.pendingJobs cached ↔
      ∃ b ∈ db.builds, b.canceled = false ∧ db.blocked cached b = false ∧
        ((record = getSrpmBuildRecord b ∧ b.sourceStatus.Todo) ∨
          ∃ c ∈ b.buildChroots, record = getBuildRecord (b, c) ∧ c.status.Todo) := by
  simp only [pendingJobs, BuildsLogic.getPendingSrpmBuildTasks, BuildsLogic.getPendingBuildTasks,
    List.mem_append, List.mem_map, List.mem_filter, List.mem_flatMap, Bool.and_eq_true,
    Bool.not_eq_true', decide_eq_true_eq]
  constructor
  · rintro (⟨b, ⟨⟨member, active, todo⟩, free⟩, rfl⟩ |
      ⟨task, ⟨⟨b, ⟨member, active⟩, c, ⟨inside, todo⟩, rfl⟩, free⟩, rfl⟩)
    · exact ⟨b, member, active, free, .inl ⟨rfl, todo⟩⟩
    · exact ⟨b, member, active, free, .inr ⟨c, inside, rfl, todo⟩⟩
  · rintro ⟨b, member, active, free, ⟨rfl, todo⟩ | ⟨c, inside, rfl, todo⟩⟩
    · exact .inl ⟨b, ⟨⟨member, active, todo⟩, free⟩, rfl⟩
    · exact .inr ⟨(b, c), ⟨⟨b, ⟨member, active⟩, c, ⟨inside, todo⟩, rfl⟩, free⟩, rfl⟩

/-! ## Build ids -/

/-- No two builds have one id, and the sequence is ahead of all of them. -/
structure IdsKnown (db : Database) : Prop where
  /-- The primary key. -/
  distinct : (db.builds.map Build.id).Nodup
  /-- The sequence. -/
  bounded : ∀ b ∈ db.builds, b.id < db.nextBuildId

/-- Builds of one id are the same build. -/
theorem IdsKnown.eq (ids : db.IdsKnown) {a b : Build} (memberA : a ∈ db.builds)
    (memberB : b ∈ db.builds) (same : a.id = b.id) : a = b :=
  List.inj_on_of_nodup_map ids.distinct memberA memberB same

/-- Changing builds one by one keeps their ids. -/
theorem IdsKnown.map (ids : db.IdsKnown) {f : Build → Build} (keeps : ∀ b, (f b).id = b.id)
    (builds : db'.builds = db.builds.map f) (next : db'.nextBuildId = db.nextBuildId) :
    db'.IdsKnown := by
  constructor
  · have same : Build.id ∘ f = Build.id := funext keeps
    rw [builds, List.map_map, same]
    exact ids.distinct
  · intro b member
    rw [builds] at member
    obtain ⟨old, inside, rfl⟩ := List.mem_map.mp member
    rw [keeps, next]
    exact ids.bounded old inside

/-- A build with the next id of the sequence is known apart from all others. -/
theorem IdsKnown.snoc (ids : db.IdsKnown) {b : Build} (fresh : b.id = db.nextBuildId) :
    IdsKnown { db with
      builds := db.builds ++ [b]
      nextBuildId := db.nextBuildId + 1 } := by
  constructor
  · rw [List.map_append, List.nodup_append]
    refine ⟨ids.distinct, List.nodup_singleton _, ?_⟩
    rintro n memberN m memberM same
    obtain ⟨old, inside, rfl⟩ := List.mem_map.mp memberN
    rw [List.map_singleton, List.mem_singleton] at memberM
    have bound := ids.bounded old inside
    omega
  · intro c member
    rcases List.mem_append.mp member with old | new
    · exact Nat.lt_succ_of_lt (ids.bounded c old)
    · rw [List.mem_singleton.mp new, fresh]
      exact Nat.lt_succ_self _

/-- Forking a chroot adds it to the build, or does nothing. -/
theorem forkRawhideChroot_adds (rawhide dest : MockChroot) (b : Build) :
    ∃ added, forkRawhideChroot rawhide dest b =
      { b with buildChroots := b.buildChroots ++ added } := by
  have nothing : b = { b with buildChroots := b.buildChroots ++ [] } := by rw [List.append_nil]
  unfold forkRawhideChroot
  split
  · exact ⟨[], nothing⟩
  · split
    · exact ⟨_, rfl⟩
    · exact ⟨[], nothing⟩

/-- Every operation keeps ids known. -/
theorem operate_idsKnown (ids : db.IdsKnown) (operated : db.operate op = some db') :
    db'.IdsKnown := by
  cases operate_operated operated with
  | message m => exact ids.map (fun b => b.receive_id m) rfl rfl
  | add cached s grown batchId set =>
    have rebatched := setupBatch_rebatched set
    obtain ⟨batch, builds⟩ := rebatched.builds
    have grownIds : grown.IdsKnown := by
      refine ids.map ?_ builds rebatched.nextBuildId
      exact fun _ => rfl
    exact grownIds.snoc rfl
  | fork b chroots member => exact ids.snoc rfl
  | rawhideToRelease buildId rawhide dest =>
    refine ids.map (fun b => ?_) rfl rfl
    obtain ⟨added, same⟩ := forkRawhideChroot_adds rawhide dest b
    split
    · rw [same]
    · rfl
  | markAsFailed buildId => exact ids.map (fun b => by split <;> rfl) rfl rfl
  | deleteBuild buildId finished =>
    refine ⟨?_, fun b member => ids.bounded b (List.mem_of_mem_filter member)⟩
    exact ids.distinct.sublist (List.filter_sublist.map _)

end Database

end Copr
