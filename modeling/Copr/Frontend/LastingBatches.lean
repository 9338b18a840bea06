import Copr.Frontend.BatchDependencies

/-!
# Finished batches

`finished_slow` remembers a finished batch for an hour, on the ground that nothing can switch a
finished batch back. What Redis remembers may get lost at any time, so the ground has to be true
of the builds themselves. Here is exactly which events switch a finished batch back: a late
message that reopens a build, the deletion of the last build, and a submission whose check of the
batch is overtaken.
-/

namespace Copr

open Runs

namespace Database

/-- What `finished_slow` computes from the builds of a batch. -/
def batchDone (db : Database) (batchId : Nat) : Bool := db.batchFinished (fun _ => false) batchId

/-- The build is in a batch all of whose builds are finished. -/
def inDone (db : Database) (b : Build) : Bool := b.batchId.any db.batchDone

/-- Every batch all of whose builds are finished stays so. -/
def DoneStays (db db' : Database) : Prop :=
  ∀ n, db.batchDone n = true → db'.batchDone n = true

/-- The build that a submission adds to the batch. -/
def joining (db : Database) (batchId : Nat) (s : Submission) : Build :=
  skipPreviouslySkipped s.skipped (addedBuild db.nextBuildId (some batchId) s)

end Database

/-- The frontend with submissions whose batch was checked and that are not yet added to it. -/
structure BatchSystem where
  /-- The tables and Redis. -/
  frontend : BatchState
  /-- The batches that were checked, and for what. -/
  checked : List (Nat × Submission)
  deriving DecidableEq, Repr

/-- What happens there. -/
inductive BatchSystemEvent
  /-- An event at one moment. -/
  | event (e : BatchEvent)
  /-- `get_batch_or_create` checks the batch of a build for a submission that is to join it. -/
  | check (buildId : Nat) (submission : Submission)
  /-- The submission is added to the batch. -/
  | join (batchId : Nat) (submission : Submission)

namespace BatchSystem

open Database

/-- Nothing is there. -/
def initial : BatchSystem := ⟨BatchState.initial, []⟩

/-- The batch of a build that may be joined. -/
def joinable (s : BatchSystem) (buildId : Nat) : Option Nat :=
  ((s.frontend.db.builds.find? fun b => decide (b.id = buildId)).bind Build.batchId).filter
    fun n => !s.frontend.db.batchFinished (fun m => decide (m ∈ s.frontend.redis)) n

/-- One event; `none` is an error response. A batch that is joined has to exist. -/
def step (s : BatchSystem) : BatchSystemEvent → Option BatchSystem
  | .event e => (s.frontend.step e).map fun frontend => { s with frontend := frontend }
  | .check buildId submission =>
    (s.joinable buildId).map fun n => { s with checked := (n, submission) :: s.checked }
  | .join n submission =>
    if (n, submission) ∈ s.checked ∧
        s.frontend.db.batches.any fun batch => decide (batch.id = n) then
      (s.frontend.db.addInto (some n) submission).map fun db =>
        { s with
          frontend := { s.frontend with db := db }
          checked := s.checked.erase (n, submission) }
    else none

/-- `finished_slow` of a batch. -/
def finishedSlow (s : BatchSystem) (batchId : Nat) : Bool :=
  (s.frontend.db.finishedSlow batchId s.frontend.redis).1

/-- Redis forgets a batch. -/
def forget (s : BatchSystem) (batchId : Nat) : BatchSystem :=
  { s with
    frontend := { s.frontend with redis := s.frontend.redis.filter fun n => decide (n ≠ batchId) } }

/-- In a batch all of whose builds are finished a message reopens no build, a deletion leaves a
build, and a build that joins it late is finished. -/
def admits (s : BatchSystem) : BatchSystemEvent → Bool
  | .event (.operation (.message m)) =>
    s.frontend.db.builds.all fun b =>
      !s.frontend.db.inDone b || !b.addressed m || !b.reopens m
  | .event (.operation (.deleteBuild buildId)) =>
    s.frontend.db.builds.all fun b =>
      decide (b.id ≠ buildId) || !s.frontend.db.inDone b ||
        s.frontend.db.builds.any fun c => decide (c.batchId = b.batchId ∧ c.id ≠ buildId)
  | .join n submission =>
    !s.frontend.db.batchDone n || (s.frontend.db.joining n submission).finished
  | _ => true

end BatchSystem

/-! ## Batches that are done -/

namespace Database

variable {db db' : Database}

/-- A batch is done if it has a build and all its builds are finished. -/
theorem batchDone_iff {n : Nat} : db.batchDone n = true ↔
    (∃ b ∈ db.builds, b.batchId = some n) ∧
      ∀ b ∈ db.builds, b.batchId = some n → b.finished = true := by
  have members : ∀ b, b ∈ db.batchBuilds n ↔ b ∈ db.builds ∧ b.batchId = some n := by
    intro b
    simp [batchBuilds]
  unfold batchDone batchFinished
  simp only [Bool.false_or, Bool.and_eq_true, Bool.not_eq_true', List.all_eq_true, members,
    and_imp, List.isEmpty_eq_false_iff]
  refine and_congr_left fun _ => ?_
  constructor
  · intro inhabited
    obtain ⟨b, member⟩ := List.exists_mem_of_ne_nil _ inhabited
    exact ⟨b, (members b).mp member⟩
  · rintro ⟨b, member⟩
    exact List.ne_nil_of_mem ((members b).mpr member)

/-- A build in a batch that is done. -/
theorem inDone_iff {b : Build} :
    db.inDone b = true ↔ ∃ n, b.batchId = some n ∧ db.batchDone n = true := by
  unfold inDone
  cases b.batchId <;> simp

/-- Builds changed one by one. -/
theorem doneStays_map {f : Build → Build} (same : ∀ b, (f b).batchId = b.batchId)
    (builds : db'.builds = db.builds.map f) :
    db.DoneStays db' ↔ ∀ b ∈ db.builds, db.inDone b = true → (f b).finished = true := by
  have done' : ∀ n, db'.batchDone n = true ↔ (∃ b ∈ db.builds, b.batchId = some n) ∧
      ∀ b ∈ db.builds, b.batchId = some n → (f b).finished = true := by
    intro n
    simp only [batchDone_iff, builds, List.mem_map, exists_exists_and_eq_and, forall_exists_index,
      and_imp, forall_apply_eq_imp_iff₂, same]
  constructor
  · intro stays b member inside
    obtain ⟨n, own, done⟩ := inDone_iff.mp inside
    exact ((done' n).mp (stays n done)).2 b member own
  · intro finished n done
    refine (done' n).mpr ⟨(batchDone_iff.mp done).1, fun b member own => ?_⟩
    exact finished b member (inDone_iff.mpr ⟨n, own, done⟩)

/-- Builds of batches that are done are kept, and what else comes into such a batch is
finished. -/
theorem doneStays_of_kept
    (kept : ∀ b ∈ db.builds, db.inDone b = true → b ∈ db'.builds)
    (others : ∀ b ∈ db'.builds, db.inDone b = true → b ∈ db.builds ∨ b.finished = true) :
    db.DoneStays db' := by
  intro n done
  obtain ⟨⟨b, member, own⟩, finished⟩ := batchDone_iff.mp done
  refine batchDone_iff.mpr ⟨⟨b, kept b member (inDone_iff.mpr ⟨n, own, done⟩), own⟩, ?_⟩
  intro c inside joined
  rcases others c inside (inDone_iff.mpr ⟨n, joined, done⟩) with old | ended
  · exact finished c old joined
  · exact ended

/-- A batch that does not exist is not done. -/
theorem not_done_of_new (known : db.BatchesKnown) {n : Nat} (new : db.batches.length < n) :
    db.batchDone n = false := by
  apply eq_false_of_ne_true
  intro done
  obtain ⟨⟨b, member, own⟩, -⟩ := batchDone_iff.mp done
  obtain ⟨batch, inside, same⟩ := known.builds b member n own
  have bound := known.bounded batch inside
  omega

/-! ## Submissions -/

/-- The builds of old batches stay where they are. -/
structure OldBatchesStay (db db' : Database) : Prop where
  /-- Builds in batches are kept. -/
  kept : ∀ b ∈ db.builds, b.batchId.isSome = true → b ∈ db'.builds
  /-- A changed build is in a new batch. -/
  others : ∀ b ∈ db'.builds, b ∈ db.builds ∨ ∃ n, b.batchId = some n ∧ db.batches.length < n

/-- A database that has not changed keeps the builds of its batches. -/
theorem OldBatchesStay.refl (db : Database) : db.OldBatchesStay db :=
  ⟨fun _ member _ => member, fun _ member => Or.inl member⟩

/-- A new batch changes no build. -/
theorem OldBatchesStay.newBatch (stay : db.OldBatchesStay db') (blockedById : Option Nat) :
    db.OldBatchesStay (db'.newBatch blockedById).2 := ⟨stay.kept, stay.others⟩

/-- The batch of a build is an old one, which is not done if it is to be modified, or a new
one. -/
theorem getBatchOrCreate_stays (ids : db.IdsKnown) {cached : Nat → Bool} {buildId n : Nat}
    {modify allowed : Bool}
    (got : db.getBatchOrCreate cached buildId modify allowed = some (n, db')) :
    db.OldBatchesStay db' ∧
      (modify = true → db.batchDone n = false ∨ db.batches.length < n) := by
  unfold getBatchOrCreate at got
  split at got
  · contradiction
  · rename_i b found
    split at got <;> [contradiction; rename_i free]
    split at got
    · rename_i joined
      obtain ⟨rfl, rfl⟩ := Prod.mk.inj (Option.some.inj got)
      refine ⟨.refl db, fun modifies => Or.inl ?_⟩
      rw [batchingUserError, joined, modifies] at free
      simp only [Bool.true_and, Bool.or_eq_true, not_or, Bool.not_eq_true] at free
      have unfinished := free.1
      unfold batchFinished at unfinished
      unfold batchDone batchFinished
      exact (Bool.or_eq_false_iff.mp unfinished).2
    · rename_i batchless
      obtain ⟨rfl, rfl⟩ := Prod.mk.inj (Option.some.inj got)
      have own : b.id = buildId := by simpa using List.find?_some found
      have member := List.mem_of_find?_eq_some found
      refine ⟨⟨fun other inside joined => ?_, fun other inside => ?_⟩, fun _ => Or.inr ?_⟩
      · refine List.mem_map.mpr ⟨other, inside, if_neg fun same => ?_⟩
        rw [ids.eq inside member (same.trans own.symm), batchless] at joined
        contradiction
      · obtain ⟨old, before, rfl⟩ := List.mem_map.mp inside
        split
        · exact Or.inr ⟨_, rfl, Nat.lt_succ_self _⟩
        · exact Or.inl before
      · exact Nat.lt_succ_self _

/-- The batch of a submission is an old one that is not done, or a new one. -/
theorem setupBatch_stays (ids : db.IdsKnown) (known : db.BatchesKnown) {cached : Nat → Bool}
    {batching : Option Batching} {batchId : Option Nat}
    (set : db.setupBatch cached batching = some (batchId, db')) :
    db.OldBatchesStay db' ∧ ∀ n, batchId = some n → db.batchDone n = false := by
  unfold setupBatch at set
  split at set
  · obtain ⟨rfl, rfl⟩ := Prod.mk.inj (Option.some.inj set)
    exact ⟨.refl db, by simp⟩
  · obtain ⟨⟨n, grown⟩, got, same⟩ := Option.map_eq_some_iff.mp set
    obtain ⟨rfl, rfl⟩ := Prod.mk.inj same
    obtain ⟨stay, free⟩ := getBatchOrCreate_stays ids got
    refine ⟨stay, fun m equal => ?_⟩
    rw [← Option.some.inj equal]
    exact (free rfl).elim id (not_done_of_new known)
  · obtain ⟨⟨n, grown⟩, got, same⟩ := Option.map_eq_some_iff.mp set
    obtain ⟨rfl, rfl⟩ := Prod.mk.inj same
    obtain ⟨stay, -⟩ := getBatchOrCreate_stays ids got
    obtain ⟨added, batches⟩ := (getBatchOrCreate_joined known got).1.batches
    refine ⟨stay.newBatch _, fun m equal => not_done_of_new known ?_⟩
    rw [← Option.some.inj equal]
    show db.batches.length < grown.batches.length + 1
    rw [batches, List.length_append]
    omega

/-- A submission adds one build to its batch. -/
theorem addInto_builds {batchId : Option Nat} {s : Submission}
    (added : db.addInto batchId s = some db') :
    db'.builds = db.builds ++ [skipPreviouslySkipped s.skipped
      (addedBuild db.nextBuildId batchId s)] := by
  unfold addInto at added
  split at added
  · contradiction
  · split at added
    · contradiction
    · obtain rfl := Option.some.inj added
      rfl

/-- Submissions to one batch add builds to it. -/
theorem foldAdd_builds {batchId : Option Nat} {submissions : List Submission}
    (added : submissions.foldlM (fun db s => db.addInto batchId s) db = some db') :
    ∃ news, db'.builds = db.builds ++ news ∧ ∀ b ∈ news, b.batchId = batchId := by
  induction submissions generalizing db with
  | nil =>
    obtain rfl := Option.some.inj added
    exact ⟨[], (List.append_nil _).symm, by simp⟩
  | cons first rest ih =>
    rw [List.foldlM_cons] at added
    obtain ⟨next, before, later⟩ := Option.bind_eq_some_iff.mp added
    obtain ⟨news, builds, own⟩ := ih later
    rw [addInto_builds before, List.append_assoc, List.singleton_append] at builds
    refine ⟨_, builds, ?_⟩
    rw [List.forall_mem_cons]
    exact ⟨rfl, own⟩

/-- Builds that come into a batch that is not done leave the others as they are. -/
theorem doneStays_of_added (known : db.BatchesKnown) {grown : Database} {batchId : Option Nat}
    {news : List Build} (stay : db.OldBatchesStay grown)
    (free : ∀ n, batchId = some n → db.batchDone n = false)
    (builds : db'.builds = grown.builds ++ news) (own : ∀ b ∈ news, b.batchId = batchId) :
    db.DoneStays db' := by
  apply doneStays_of_kept
  · intro b member inside
    obtain ⟨n, joined, -⟩ := inDone_iff.mp inside
    rw [builds]
    exact List.mem_append_left _ (stay.kept b member (by simp [joined]))
  · intro b member inside
    obtain ⟨n, joined, done⟩ := inDone_iff.mp inside
    rw [builds] at member
    rcases List.mem_append.mp member with old | new
    · refine (stay.others b old).imp_right fun ⟨m, other, new⟩ => ?_
      have same : m = n := Option.some.inj (other.symm.trans joined)
      rw [← same, not_done_of_new known new] at done
      contradiction
    · rw [free n ((own b new).symm.trans joined)] at done
      contradiction

/-- A submission leaves the batches that are done. -/
theorem add_doneStays (ids : db.IdsKnown) (known : db.BatchesKnown) {cached : Nat → Bool}
    {s : Submission} (added : db.add cached s = some db') : db.DoneStays db' := by
  rw [add_eq] at added
  obtain ⟨⟨batchId, grown⟩, set, into⟩ := Option.bind_eq_some_iff.mp added
  obtain ⟨stay, free⟩ := setupBatch_stays ids known set
  refine doneStays_of_added known stay free (addInto_builds into) ?_
  intro b member
  rw [List.mem_singleton.mp member]
  rfl

/-- The builds of one batch leave the batches that are done. -/
theorem batchBuild_doneStays (ids : db.IdsKnown) (known : db.BatchesKnown) {cached : Nat → Bool}
    {batching : Option Batching} {submissions : List Submission}
    (built : db.batchBuild cached batching submissions = some db') : db.DoneStays db' := by
  obtain ⟨⟨batchId, grown⟩, set, into⟩ := Option.bind_eq_some_iff.mp built
  obtain ⟨news, builds, own⟩ := foldAdd_builds into
  cases batching with
  | none =>
    obtain ⟨rfl, rfl⟩ := Prod.mk.inj (Option.some.inj set)
    refine doneStays_of_added known ((OldBatchesStay.refl db).newBatch none) ?_ builds own
    intro n same
    rw [← Option.some.inj same]
    exact not_done_of_new known (Nat.lt_succ_self _)
  | some option =>
    obtain ⟨stay, free⟩ := setupBatch_stays ids known set
    exact doneStays_of_added known stay free builds own

end Database

namespace BatchSystem

open Database BatchState

/-! ## Single events -/

section Steps

variable {s t : BatchSystem}

/-- A message leaves the batches that are done exactly if it reopens none of their builds. -/
theorem message_doneStays (s : BatchSystem) (m : Message) :
    s.frontend.db.DoneStays (s.frontend.db.receive m) ↔
      s.admits (.event (.operation (.message m))) = true := by
  rw [doneStays_map (f := fun b => b.receive m) (fun b => receive_batchId b m) rfl, admits,
    List.all_eq_true]
  refine forall₂_congr fun b member => ?_
  by_cases inside : s.frontend.db.inDone b = true
  · obtain ⟨n, own, done⟩ := inDone_iff.mp inside
    have finished := (batchDone_iff.mp done).2 b member own
    rw [Build.receive_finished finished]
    by_cases addressed : b.addressed m = true <;> simp [inside, addressed]
  · simp [inside]

/-- A deletion leaves the batches that are done exactly if it leaves a build in each. -/
theorem deletion_doneStays (s : BatchSystem) (buildId : Nat) :
    s.frontend.db.DoneStays { s.frontend.db with
        builds := s.frontend.db.builds.filter fun b => decide (b.id ≠ buildId) } ↔
      s.admits (.event (.operation (.deleteBuild buildId))) = true := by
  rw [admits, List.all_eq_true]
  constructor
  · intro stays b member
    by_cases named : b.id = buildId
    · by_cases inside : s.frontend.db.inDone b = true
      · obtain ⟨n, own, done⟩ := inDone_iff.mp inside
        obtain ⟨⟨c, left, other⟩, -⟩ := batchDone_iff.mp (stays n done)
        rw [List.mem_filter, decide_eq_true_eq] at left
        have another : s.frontend.db.builds.any (fun c =>
            decide (c.batchId = b.batchId ∧ c.id ≠ buildId)) = true :=
          List.any_eq_true.mpr ⟨c, left.1, decide_eq_true ⟨other.trans own.symm, left.2⟩⟩
        rw [another, Bool.or_true]
      · simp [inside]
    · simp [named]
  · intro admitted n done
    obtain ⟨⟨b, member, own⟩, finished⟩ := batchDone_iff.mp done
    refine batchDone_iff.mpr ⟨?_, fun c inside joined => ?_⟩
    · by_cases named : b.id = buildId
      · have inside : s.frontend.db.inDone b = true := inDone_iff.mpr ⟨n, own, done⟩
        have another := admitted b member
        simp only [named, ne_eq, not_true_eq_false, decide_false, inside, Bool.not_true,
          Bool.or_self, Bool.false_or, List.any_eq_true, decide_eq_true_eq] at another
        obtain ⟨c, left, same, apart⟩ := another
        exact ⟨c, List.mem_filter.mpr ⟨left, decide_eq_true apart⟩, same.trans own⟩
      · exact ⟨b, List.mem_filter.mpr ⟨member, decide_eq_true named⟩, own⟩
    · exact finished c (List.mem_of_mem_filter inside) joined

/-- A late build leaves the batches that are done exactly if it is finished or its batch is not
done. -/
theorem join_doneStays {n : Nat} {submission : Submission} {db' : Database}
    (added : s.frontend.db.addInto (some n) submission = some db') :
    s.frontend.db.DoneStays db' ↔ s.admits (.join n submission) = true := by
  have builds : db'.builds = s.frontend.db.builds ++ [s.frontend.db.joining n submission] :=
    addInto_builds added
  have own : (s.frontend.db.joining n submission).batchId = some n := rfl
  rw [admits, Bool.or_eq_true, Bool.not_eq_true']
  constructor
  · intro stays
    cases done : s.frontend.db.batchDone n with
    | false => exact Or.inl rfl
    | true =>
      refine Or.inr ((batchDone_iff.mp (stays n done)).2 _ ?_ own)
      rw [builds]
      exact List.mem_append_right _ (List.mem_singleton_self _)
  · intro late
    apply doneStays_of_kept
    · intro b member _
      rw [builds]
      exact List.mem_append_left _ member
    · intro b member inside
      rw [builds] at member
      rcases List.mem_append.mp member with old | new
      · exact Or.inl old
      · rw [List.mem_singleton.mp new] at inside ⊢
        obtain ⟨m, same, done⟩ := inDone_iff.mp inside
        rw [← Option.some.inj (own.symm.trans same)] at done
        exact Or.inr (late.resolve_left (by simp [done]))

/-- An operation leaves the batches that are done exactly if it is admitted. -/
theorem operation_doneStays (orderly : s.frontend.Orderly) {op : Operation} {db' : Database}
    (operated : s.frontend.db.operate (op.asking s.frontend.redis) = some db') :
    s.frontend.db.DoneStays db' ↔ s.admits (.event (.operation op)) = true := by
  cases op with
  | message m =>
    obtain rfl := Option.some.inj operated
    exact message_doneStays s m
  | add cached submission =>
    exact iff_of_true (add_doneStays orderly.ids orderly.known operated) rfl
  | fork buildId chroots =>
    cases operate_operated operated with
    | fork b chroots member =>
      refine iff_of_true ?_ rfl
      apply doneStays_of_kept
      · exact fun c inside _ => List.mem_append_left _ inside
      · intro c inside _
        rcases List.mem_append.mp inside with old | new
        · exact Or.inl old
        · rw [List.mem_singleton.mp new]
          exact Or.inr (Build.forkBuild_finished _ b chroots)
  | rawhideToRelease buildId rawhide dest =>
    obtain rfl := Option.some.inj operated
    refine iff_of_true ((doneStays_map (fun b => ?_) rfl).mpr fun b member inside => ?_) rfl
    · obtain ⟨added, same⟩ := forkRawhideChroot_adds rawhide dest b
      split
      · rw [same]
      · rfl
    · obtain ⟨n, own, done⟩ := inDone_iff.mp inside
      have finished := (batchDone_iff.mp done).2 b member own
      split
      · exact Build.forkRawhideChroot_finished finished rawhide dest
      · exact finished
  | markAsFailed buildId =>
    obtain rfl := Option.some.inj operated
    refine iff_of_true ((doneStays_map (fun b => ?_) rfl).mpr fun b member inside => ?_) rfl
    · split <;> rfl
    · obtain ⟨n, own, done⟩ := inDone_iff.mp inside
      have finished := (batchDone_iff.mp done).2 b member own
      split
      · exact Build.markAsFailed_finished finished
      · exact finished
  | deleteBuild buildId =>
    cases operate_operated operated with
    | deleteBuild buildId all => exact deletion_doneStays s buildId

/-- Redis remembers only batches that are done. -/
def Grounded (s : BatchSystem) : Prop := ∀ n ∈ s.frontend.redis, s.frontend.db.batchDone n = true

/-- What else Redis gets to remember is done. -/
theorem grounded_of_answers {redis : List Nat} (grounded : s.Grounded)
    (new : ∀ n ∈ redis, s.frontend.db.finishedBy s.frontend.redis n = true) :
    ∀ n ∈ redis, s.frontend.db.batchDone n = true := by
  intro n listed
  rcases Bool.or_eq_true_iff.mp (new n listed) with old | done
  · exact grounded n (of_decide_eq_true old)
  · unfold batchDone batchFinished
    rwa [Bool.false_or]

/-- An event leaves the batches that are done exactly if it is admitted, and it then leaves Redis
with such batches only. -/
theorem step_doneStays {e : BatchSystemEvent} (orderly : s.frontend.Orderly)
    (grounded : s.Grounded) (stepped : s.step e = some t) :
    t.frontend.Orderly ∧ (s.frontend.db.DoneStays t.frontend.db ↔ s.admits e = true) ∧
      (s.frontend.db.DoneStays t.frontend.db → t.Grounded) := by
  have same : ∀ {redis checked}, s.frontend.db.DoneStays
      (BatchSystem.mk ⟨s.frontend.db, redis⟩ checked).frontend.db := fun n done => done
  cases e with
  | event e =>
    obtain ⟨frontend, moved, rfl⟩ := Option.map_eq_some_iff.mp stepped
    refine ⟨(step_kept orderly moved).1, ?_⟩
    cases e with
    | operation op =>
      obtain ⟨db, operated, rfl⟩ := Option.map_eq_some_iff.mp moved
      exact ⟨operation_doneStays orderly operated, fun stays n listed =>
        stays n (grounded n listed)⟩
    | batchBuild batching submissions =>
      obtain ⟨db, built, rfl⟩ := Option.map_eq_some_iff.mp moved
      exact ⟨iff_of_true (batchBuild_doneStays orderly.ids orderly.known built) rfl,
        fun stays n listed => stays n (grounded n listed)⟩
    | pendingJobs =>
      obtain ⟨redis, answered, new⟩ :=
        pendingJobsResponse_answers orderly.known orderly.ordered s.frontend.redis
      simp only [BatchState.step, answered, Option.map_some] at moved
      obtain rfl := Option.some.inj moved
      exact ⟨iff_of_true same rfl, fun _ => grounded_of_answers (s := s) grounded new⟩
    | askFinished batchId =>
      obtain rfl := Option.some.inj moved
      have start := remembers_start s.frontend.db s.frontend.redis
      obtain ⟨-, -, new⟩ := finishedSlow_answers start.kept start.right batchId
      exact ⟨iff_of_true same rfl, fun _ => grounded_of_answers (s := s) grounded new⟩
    | expire batchId =>
      obtain rfl := Option.some.inj moved
      exact ⟨iff_of_true same rfl, fun _ n listed => grounded n (List.mem_of_mem_filter listed)⟩
  | check buildId submission =>
    obtain ⟨n, -, rfl⟩ := Option.map_eq_some_iff.mp stepped
    exact ⟨orderly, iff_of_true same rfl, fun _ => grounded⟩
  | join n submission =>
    simp only [step] at stepped
    split at stepped
    · rename_i allowed
      obtain ⟨db, added, rfl⟩ := Option.map_eq_some_iff.mp stepped
      have there : ∀ m, some n = some m → s.frontend.db.HasBatch m := by
        intro m equal
        obtain ⟨batch, member, own⟩ := List.any_eq_true.mp allowed.2
        exact ⟨batch, member, (of_decide_eq_true own).trans (Option.some.inj equal)⟩
      exact ⟨(addInto_kept orderly there added).1, join_doneStays added, fun stays m listed =>
        stays m (grounded m listed)⟩
    · contradiction

/-- Where Redis remembers only batches that are done, the answer is that of the builds. -/
theorem finishedSlow_iff (grounded : s.Grounded) (n : Nat) :
    s.finishedSlow n = true ↔ s.frontend.db.batchDone n = true := by
  have start := remembers_start s.frontend.db s.frontend.redis
  obtain ⟨answer, -, -⟩ := finishedSlow_answers start.kept start.right n
  unfold finishedSlow
  rw [answer]
  unfold finishedBy batchDone batchFinished
  rw [Bool.or_eq_true, Bool.false_or, decide_eq_true_eq]
  refine ⟨fun either => either.elim (fun listed => ?_) id, Or.inr⟩
  have done := grounded n listed
  unfold batchDone batchFinished at done
  rwa [Bool.false_or] at done

/-- Once Redis has forgotten a batch, the answer is that of the builds. -/
theorem forget_finishedSlow (s : BatchSystem) (n : Nat) :
    (s.forget n).finishedSlow n = s.frontend.db.batchDone n := by
  have start := remembers_start (s.forget n).frontend.db (s.forget n).frontend.redis
  obtain ⟨answer, -, -⟩ := finishedSlow_answers start.kept start.right n
  unfold finishedSlow
  rw [answer]
  simp [finishedBy, batchDone, batchFinished, forget]

end Steps

/-! ## Runs -/

/-- Nothing is remembered at the start. -/
theorem initial_grounded : initial.Grounded := by
  intro n listed
  contradiction

/-- In every run whose events are all admitted, a batch that is finished once is finished at every
later time; and from the state reached an event leaves the batches finished, whatever Redis
forgets then, exactly if it is admitted as well. -/
theorem finished_batch_stays_finished {s : BatchSystem}
    (run : Run step (fun s e => s.admits e = true) initial s) :
    (∀ t, Run step (fun s e => s.admits e = true) s t →
        ∀ n, s.finishedSlow n = true → t.finishedSlow n = true) ∧
      ∀ e t, s.step e = some t →
        ((∀ n, s.finishedSlow n = true → (t.forget n).finishedSlow n = true) ↔
          s.admits e = true) := by
  obtain ⟨orderly, grounded⟩ : s.frontend.Orderly ∧ s.Grounded := by
    refine run_invariant (fun s => s.frontend.Orderly ∧ s.Grounded) ?_ run
      ⟨initial_orderly, initial_grounded⟩
    intro s e t both admitted stepped
    obtain ⟨orderly', stays, grounded'⟩ := step_doneStays both.1 both.2 stepped
    exact ⟨orderly', grounded' (stays.mpr admitted)⟩
  constructor
  · intro t later
    have kept : t.frontend.Orderly ∧ t.Grounded ∧ s.frontend.db.DoneStays t.frontend.db := by
      refine run_invariant
        (fun t => t.frontend.Orderly ∧ t.Grounded ∧ s.frontend.db.DoneStays t.frontend.db) ?_ later
        ⟨orderly, grounded, fun n done => done⟩
      intro u e v kept admitted stepped
      obtain ⟨orderly', stays, grounded'⟩ := step_doneStays kept.1 kept.2.1 stepped
      have once := stays.mpr admitted
      exact ⟨orderly', grounded' once, fun n done => once n (kept.2.2 n done)⟩
    intro n finished
    rw [finishedSlow_iff kept.2.1]
    exact kept.2.2 n ((finishedSlow_iff grounded n).mp finished)
  · intro e t stepped
    rw [← (step_doneStays orderly grounded stepped).2.1]
    simp only [finishedSlow_iff grounded, forget_finishedSlow]
    rfl

/-- A build fails, its batch is finished, and it is so after the build behind it has failed. -/
theorem finished_batch_stays_finished_failed :
    ∃ s t : BatchSystem, s.finishedSlow 1 = true ∧ t.finishedSlow 2 = true ∧
      t.finishedSlow 1 = true := by
  obtain ⟨s, run, seen⟩ := exec_observe step admits initial
    [.event (.operation (.add (fun _ => false) leading)),
      .event (.operation (.add (fun _ => false) following)),
      .event (.operation (.message (Sample.sourceReport .failed)))]
    (fun s => (s.finishedSlow 1, (s.step (.event (.operation (.markAsFailed 2)))).map fun t =>
      t.finishedSlow 2)) (true, some true) (by decide)
  obtain ⟨finished, next⟩ := Prod.mk.inj seen
  obtain ⟨t, stepped, second⟩ := Option.map_eq_some_iff.mp next
  have later : Run step (fun s e => s.admits e = true) s t := .single ⟨_, rfl, stepped⟩
  exact ⟨s, t, finished, second, (finished_batch_stays_finished run).1 t later 1 finished⟩

/-- The chroot of a build reaches the end of its life while the sources are imported, so that its
batch is finished; the import then hands the chroot to the backend after all. -/
theorem imported_batch_is_unfinished :
    ¬ ∀ s t : BatchSystem, Run step anyEvent initial s → Run step anyEvent s t →
      ∀ n, s.finishedSlow n = true → t.finishedSlow n = true := by
  intro always
  obtain ⟨s, run, seen⟩ := exec_observe step (fun _ _ => true) initial
    [.event (.operation (.add (fun _ => false) leading)),
      .event (.operation (.add (fun _ => false) following)),
      .event (.operation (.message (Sample.sourceReport .succeeded))),
      .event (.operation (.message (.cancelBuildChrootsByMock Sample.fedora)))]
    (fun s => (s.finishedSlow 1, (s.step (.event (.operation (.message
      (.importCompleted 1 [("f39", "c0ffee")]))))).map fun t => t.finishedSlow 1))
    (true, some false) (by decide)
  obtain ⟨finished, next⟩ := Prod.mk.inj seen
  obtain ⟨t, stepped, unfinished⟩ := Option.map_eq_some_iff.mp next
  have later := always s t (run_weaken (fun _ _ _ => trivial) run)
    (.single ⟨_, trivial, stepped⟩) 1 finished
  rw [unfinished] at later
  contradiction

end BatchSystem

end Copr
