import Copr.Frontend.BatchDependencies
import Mathlib.Order.WellFounded

/-!
# No build is lost

An unfinished build is offered to dist-git by `dist_git_importing_queue` or to the backend by
`pending_jobs`, or it is behind a batch that is not finished. Then there is such a batch that
is not blocked itself, with a build that is offered, unless all builds of that batch were deleted.
-/

namespace Copr

open Runs BuildsLogic

/-- The part of `get_import_record` that does not depend on the project. -/
structure ImportRecord where
  /-- `build_id`. -/
  buildId : Nat
  /-- `branches`. -/
  branches : List String
  /-- `pkg_name`. -/
  pkgName : String
  /-- `srpm_url`. -/
  srpmUrl : Option String
  /-- `background`. -/
  background : Bool
  deriving DecidableEq, Repr

/-- `get_import_record`; a build without a package is an `AttributeError`. -/
def getImportRecord (b : Build) : Option ImportRecord :=
  b.package.map fun name =>
    { buildId := b.id
      branches := (b.buildChroots.map fun c => c.mockChroot.distgitBranchName).dedup
      pkgName := name
      srpmUrl := b.srpmUrl
      background := b.isBackground }

/-- `get_build_importing_queue`, in the order of the rows. -/
def BuildsLogic.getBuildImportingQueue (db : Database) : List Build :=
  db.builds.filter fun b => !b.canceled && decide (b.sourceStatus = .importing)

/-- `dist_git_importing_queue`; an exception breaks the whole answer. -/
def Database.distGitImportingQueue (db : Database) : Option (List ImportRecord) :=
  (getBuildImportingQueue db).mapM getImportRecord

namespace Build

/-- A build that is unfinished has something to be done. -/
def Underway (b : Build) : Prop :=
  b.finishedEarly = true ∨ b.sourceStatus.Todo ∨
    (b.sourceStatus = .importing ∧ b.package.isSome = true) ∨
    (b.sourceStatus.Finished ∧ ∀ c ∈ b.buildChroots, c.status.Finished ∨ c.status.Todo)

/-- What a worker reports: a task that is to be done, runs or has ended, and with the sources the
name of the package. -/
def reportMoves (b : Build) (upd : UpdDict) : Bool :=
  if upd.taskId = b.taskId then
    decide (upd.status.Todo ∨ upd.status ∈ [.failed, .skipped, .canceled]) ||
      (decide (upd.status = .succeeded) && (withPackage b upd).package.isSome)
  else decide (upd.status.Todo ∨ upd.status.Finished)

/-- The messages that are sent. -/
def moves (b : Build) : Message → Bool
  | .update _ _ upd => b.reportMoves upd
  | .startingBuild _ _ upd => b.reportMoves upd
  | _ => true

section Messages

variable {b b' : Build} {env : Surroundings} {upd : UpdDict}

/-- A build still has something to be done when its source status and its package stay, and each
chroot stays, has ended or is to be done. -/
theorem Underway.congr (underway : b.Underway) (early : b'.finishedEarly = b.finishedEarly)
    (source : b'.sourceStatus = b.sourceStatus) (package : b'.package = b.package)
    (chroots : ∀ c' ∈ b'.buildChroots, (∃ c ∈ b.buildChroots, c'.status = c.status) ∨
      c'.status.Finished ∨ c'.status.Todo) : b'.Underway := by
  unfold Underway
  rw [early, source, package]
  rcases underway with ended | todo | importing | ⟨finished, all⟩
  · exact Or.inl ended
  · exact Or.inr (Or.inl todo)
  · exact Or.inr (Or.inr (Or.inl importing))
  · refine Or.inr (Or.inr (Or.inr ⟨finished, fun c' member => ?_⟩))
    rcases chroots c' member with ⟨c, before, same⟩ | good
    · rw [same]
      exact all c before
    · exact good

/-- A build whose source build was given up is over. -/
theorem underway_of_failed (source : b.sourceStatus = .failed ∨ b.sourceStatus = .canceled) :
    b.Underway := by
  refine Or.inl ?_
  unfold finishedEarly
  rw [decide_eq_true source, Bool.or_true]

/-- A canceled build is over. -/
theorem underway_of_canceled (canceled : b.canceled = true) : b.Underway := by
  refine Or.inl ?_
  unfold finishedEarly
  rw [canceled, Bool.true_or]

/-- A report leaves something to be done. -/
theorem report_underway (underway : b.Underway) (moves : b.reportMoves upd = true) :
    ((updateStateFromDict env b upd).getD b).Underway := by
  unfold reportMoves at moves
  cases updateStateFromDict_reported env b upd with
  | ignored _ same =>
    rw [same]
    exact underway
  | source _ task row package status chroots =>
    rw [if_pos task, Bool.or_eq_true, Bool.and_eq_true, decide_eq_true_eq, decide_eq_true_eq]
      at moves
    rcases moves with (todo | ended) | ⟨succeeded, named⟩
    · have other : upd.status ≠ .succeeded := by
        intro same
        rw [same] at todo
        exact absurd todo (by decide)
      refine Or.inr (Or.inl ?_)
      rw [status, sourceBecomes, if_neg other]
      exact todo
    · have other : upd.status ≠ .succeeded := by
        intro same
        rw [same] at ended
        exact absurd ended (by decide)
      rw [sourceBecomes, if_neg other] at status
      simp only [List.mem_cons, List.not_mem_nil, or_false] at ended
      rcases ended with failed | skipped | canceled
      · exact underway_of_failed (Or.inl (status.trans failed))
      · refine Or.inr (Or.inr (Or.inr ⟨?_, fun c member => Or.inl ?_⟩))
        · rw [status, skipped]
          decide
        · rw [chroots] at member
          obtain ⟨d, _, rfl⟩ := List.mem_map.mp member
          have skips : sourceGives upd d = .skipped := by
            unfold sourceGives
            rw [skipped]
            split <;> rfl
          rw [sourceChroot_status, skips]
          decide
      · exact underway_of_failed (Or.inr (status.trans canceled))
    · rw [sourceBecomes, if_pos succeeded] at status
      by_cases none : sourceChroots env (withPackage b upd) upd = []
      · rw [if_pos none] at status
        exact underway_of_failed (Or.inl status)
      · rw [if_neg none] at status
        refine Or.inr (Or.inr (Or.inl ⟨status, ?_⟩))
        rw [package]
        exact named
  | chroot _ task row package status chroots =>
    rw [if_neg task, decide_eq_true_eq] at moves
    have kept : (withPackage b upd).package.isSome = true ∨ b.package = none := by
      unfold withPackage
      cases known : b.package with
      | none => exact Or.inr rfl
      | some name => exact Or.inl (by simp [known])
    have early : ((updateStateFromDict env b upd).getD b).finishedEarly = b.finishedEarly := by
      unfold finishedEarly
      rw [row.canceled, status]
    unfold Underway
    rw [early, status, package]
    rcases underway with ended | todo | ⟨importing, named⟩ | ⟨finished, all⟩
    · exact Or.inl ended
    · exact Or.inr (Or.inl todo)
    · refine Or.inr (Or.inr (Or.inl ⟨importing, kept.resolve_right fun none => ?_⟩))
      rw [none] at named
      cases named
    · refine Or.inr (Or.inr (Or.inr ⟨finished, fun c member => ?_⟩))
      rw [chroots] at member
      obtain ⟨d, inside, rfl⟩ := List.mem_map.mp member
      rw [updateChroot_status]
      split
      · exact moves.symm
      · exact all d inside

/-- A message leaves something to be done. -/
theorem receive_underway (underway : b.Underway) {m : Message}
    (moves : b.addressed m = true → b.moves m = true) : (b.receive m).Underway := by
  unfold receive
  split
  · rename_i addressed
    have moves := moves addressed
    cases m with
    | update env buildId upd => exact report_underway underway moves
    | startingBuild env buildId upd =>
      rw [handle_startingBuild]
      split
      · exact underway
      · exact report_underway underway moves
    | rescheduleBuildChroot env buildId taskId chroot =>
      rcases b.reschedule_cases env taskId chroot with same | ⟨upd, pending, _, _, same, _⟩
      · simp only [handle, same]
        exact underway
      · simp only [handle, same]
        refine report_underway underway ?_
        unfold reportMoves
        rw [pending]
        split <;> rfl
    | importCompleted buildId branchCommits =>
      simp only [handle, distGitUploadCompleted]
      split
      · split
        · exact underway
        · rename_i all _
          refine Or.inr (Or.inr (Or.inr ⟨(by decide : StatusEnum.succeeded.Finished),
            fun c member => ?_⟩))
          obtain ⟨d, inside, rfl⟩ := List.mem_map.mp member
          have found := List.all_eq_true.mp all d inside
          obtain ⟨hash, known⟩ := Option.isSome_iff_exists.mp found
          unfold importChroot
          rw [known]
          dsimp only
          split
          · rename_i skipped
            rw [skipped]
            exact Or.inl (by decide : StatusEnum.skipped.Finished)
          · exact Or.inr (by decide : StatusEnum.pending.Todo)
      · exact underway_of_failed (Or.inl rfl)
    | buildTaskCanceled taskId =>
      simp only [handle, buildTaskCanceled, Option.getD_some]
      split
      · refine underway.congr rfl rfl rfl fun c member => ?_
        obtain ⟨d, inside, rfl⟩ := List.mem_map.mp member
        split
        · exact Or.inr (Or.inl (by decide : StatusEnum.canceled.Finished))
        · exact Or.inl ⟨d, inside, rfl⟩
      · split
        · exact underway_of_failed (Or.inr rfl)
        · exact underway
    | cancelBuild buildId =>
      simp only [handle, BuildsLogic.cancelBuild]
      split
      · exact underway_of_canceled rfl
      · exact underway
    | cancelBuildChrootsByMock mockChroot =>
      refine underway.congr rfl rfl rfl fun c member => ?_
      obtain ⟨d, inside, rfl⟩ := List.mem_map.mp member
      split
      · exact Or.inr (Or.inl (by decide : StatusEnum.canceled.Finished))
      · exact Or.inl ⟨d, inside, rfl⟩
  · exact underway

end Messages

end Build

/-! ## Runs -/

namespace Database

open Build

variable {db db' : Database}

/-- Every unfinished build has something to be done. -/
def Underway (db : Database) : Prop := ∀ b ∈ db.builds, b.Underway

/-- A new build is to be built. -/
theorem added_underway (id : Nat) (batchId : Option Nat) (s : Submission) :
    (skipPreviouslySkipped s.skipped (addedBuild id batchId s)).Underway := by
  by_cases imported : s.skipImport = true
  · refine Or.inr (Or.inr (Or.inr ⟨?_, fun c member => ?_⟩))
    · simp only [skipPreviouslySkipped, addedBuild, imported, if_true]
      decide
    · simp only [skipPreviouslySkipped, addedBuild, imported, if_true, List.map_map] at member
      obtain ⟨m, _, rfl⟩ := List.mem_map.mp member
      dsimp only [Function.comp_apply]
      split
      · exact Or.inl (by decide : StatusEnum.skipped.Finished)
      · exact Or.inr (by decide : StatusEnum.pending.Todo)
  · refine Or.inr (Or.inl ?_)
    simp only [skipPreviouslySkipped, addedBuild, if_neg imported]
    decide

/-- A forked chroot is finished. -/
theorem forkRawhideChroot_underway {rawhide dest : MockChroot} {b : Build}
    (underway : b.Underway) : (forkRawhideChroot rawhide dest b).Underway := by
  unfold forkRawhideChroot
  split
  · exact underway
  · split
    · refine underway.congr rfl rfl rfl fun c member => ?_
      rcases List.mem_append.mp member with before | new
      · exact Or.inl ⟨c, before, rfl⟩
      · rw [List.mem_singleton.mp new]
        exact Or.inr (Or.inl (by decide : StatusEnum.forked.Finished))
    · exact underway

/-- A build that is marked as failed is finished. -/
theorem markAsFailed_underway (b : Build) : (BuildsLogic.markAsFailed b).Underway := by
  by_cases succeeded : b.sourceStatus = .succeeded
  · refine Or.inr (Or.inr (Or.inr ⟨?_, fun c member => Or.inl ?_⟩))
    · simp only [BuildsLogic.markAsFailed, succeeded]
      decide
    · obtain ⟨d, _, rfl⟩ := List.mem_map.mp member
      split
      · rename_i done
        rw [done]
        decide
      · exact (by decide : StatusEnum.failed.Finished)
  · refine underway_of_failed (Or.inl ?_)
    simp only [BuildsLogic.markAsFailed, if_neg succeeded]

/-- A build that is put into a batch is as it was. -/
theorem setupBatch_underway {cached : Nat → Bool} {batching : Option Batching}
    {batchId : Option Nat} (underway : db.Underway)
    (set : db.setupBatch cached batching = some (batchId, db')) : db'.Underway := by
  obtain ⟨batch, same⟩ := (setupBatch_rebatched set).builds
  intro b member
  rw [same] at member
  obtain ⟨old, before, rfl⟩ := List.mem_map.mp member
  exact (underway old before).congr rfl rfl rfl fun c inside => Or.inl ⟨c, inside, rfl⟩

/-- A build that is added is to be built. -/
theorem addInto_underway {batchId : Option Nat} {s : Submission} (underway : db.Underway)
    (added : db.addInto batchId s = some db') : db'.Underway := by
  unfold addInto at added
  split at added
  · contradiction
  · split at added
    · contradiction
    · obtain rfl := Option.some.inj added
      intro b member
      rcases List.mem_append.mp member with before | new
      · exact underway b before
      · rw [List.mem_singleton.mp new]
        exact added_underway _ _ _

/-- The messages that are sent, to the builds that they are about. -/
def moves (db : Database) : Operation → Bool
  | .message m => db.builds.all fun b => !b.addressed m || b.moves m
  | _ => true

/-- Every operation leaves something to be done. -/
theorem operate_underway {op : Operation} (underway : db.Underway) (moves : db.moves op = true)
    (operated : db.operate op = some db') : db'.Underway := by
  cases operate_operated operated with
  | message m =>
    intro b member
    obtain ⟨old, before, rfl⟩ := List.mem_map.mp member
    have sent := List.all_eq_true.mp moves old before
    refine receive_underway (underway old before) fun addressed => ?_
    rw [addressed] at sent
    exact sent
  | add cached s grown batchId set =>
    intro b member
    rcases List.mem_append.mp member with before | new
    · exact setupBatch_underway underway set b before
    · rw [List.mem_singleton.mp new]
      exact added_underway _ _ _
  | fork b chroots inside =>
    intro c member
    rcases List.mem_append.mp member with before | new
    · exact underway c before
    · rw [List.mem_singleton.mp new]
      refine Or.inr (Or.inr (Or.inr ⟨(by decide : StatusEnum.forked.Finished), fun c member => ?_⟩))
      obtain ⟨d, _, rfl⟩ := List.mem_map.mp member
      exact Or.inl (by decide : StatusEnum.forked.Finished)
  | rawhideToRelease buildId rawhide dest =>
    intro b member
    obtain ⟨old, before, rfl⟩ := List.mem_map.mp member
    split
    · exact forkRawhideChroot_underway (underway old before)
    · exact underway old before
  | markAsFailed buildId =>
    intro b member
    obtain ⟨old, before, rfl⟩ := List.mem_map.mp member
    split
    · exact markAsFailed_underway old
    · exact underway old before
  | deleteBuild buildId finished =>
    exact fun b member => underway b (List.mem_of_mem_filter member)

/-- All builds of a batch build are to be built. -/
theorem batchBuild_underway {cached : Nat → Bool} {batching : Option Batching}
    {submissions : List Submission} (underway : db.Underway)
    (built : db.batchBuild cached batching submissions = some db') : db'.Underway := by
  obtain ⟨⟨batchId, grown⟩, created, added⟩ := Option.bind_eq_some_iff.mp built
  have start : grown.Underway := by
    unfold alwaysCreate at created
    split at created
    · obtain ⟨-, rfl⟩ := Prod.mk.inj (Option.some.inj created)
      exact underway
    · exact setupBatch_underway underway created
  clear created built
  induction submissions generalizing grown with
  | nil =>
    obtain rfl := Option.some.inj added
    exact start
  | cons s rest ih =>
    obtain ⟨next, first, more⟩ := Option.bind_eq_some_iff.mp added
    exact ih next more (addInto_underway start first)

/-! ## The queues -/

/-- Records of all rows, when each row has one. -/
theorem mapM_records {α β : Type} {record : α → Option β} {rows : List α}
    (each : ∀ row ∈ rows, (record row).isSome = true) :
    ∃ records, rows.mapM record = some records ∧
      ∀ row ∈ rows, ∃ r ∈ records, record row = some r := by
  induction rows with
  | nil => exact ⟨[], rfl, fun _ no => absurd no List.not_mem_nil⟩
  | cons row rest ih =>
    obtain ⟨r, first⟩ := Option.isSome_iff_exists.mp (each row List.mem_cons_self)
    obtain ⟨records, more, all⟩ := ih fun other member => each other (List.mem_cons_of_mem _ member)
    refine ⟨r :: records, ?_, fun other member => ?_⟩
    · rw [List.mapM_cons, first, more]
      rfl
    · rcases List.mem_cons.mp member with rfl | later
      · exact ⟨r, List.mem_cons_self, first⟩
      · obtain ⟨q, inside, same⟩ := all other later
        exact ⟨q, List.mem_cons_of_mem _ inside, same⟩

/-- The queue of dist-git is answered, with all builds that are to be imported. -/
theorem distGitImportingQueue_eq (underway : db.Underway) :
    ∃ imports, db.distGitImportingQueue = some imports ∧
      ∀ b ∈ db.builds, b.canceled = false → b.sourceStatus = .importing →
        ∃ record ∈ imports, record.buildId = b.id := by
  have named : ∀ b ∈ getBuildImportingQueue db, (getImportRecord b).isSome = true := by
    intro b listed
    obtain ⟨member, kind⟩ := List.mem_filter.mp listed
    rw [Bool.and_eq_true, Bool.not_eq_true', decide_eq_true_eq] at kind
    obtain ⟨active, importing⟩ := kind
    unfold getImportRecord
    rw [Option.isSome_map]
    rcases underway b member with ended | todo | ⟨_, named⟩ | ⟨finished, _⟩
    · unfold finishedEarly at ended
      rw [active, importing] at ended
      exact absurd ended (by decide)
    · rw [importing] at todo
      exact absurd todo (by decide)
    · exact named
    · rw [importing] at finished
      exact absurd finished (by decide)
  obtain ⟨imports, answered, all⟩ := mapM_records named
  refine ⟨imports, answered, fun b member active importing => ?_⟩
  have listed : b ∈ getBuildImportingQueue db := by
    refine List.mem_filter.mpr ⟨member, ?_⟩
    rw [active, decide_eq_true importing]
    rfl
  obtain ⟨record, inside, same⟩ := all b listed
  obtain ⟨name, _, rfl⟩ := Option.map_eq_some_iff.mp same
  exact ⟨_, inside, rfl⟩

/-- A build is offered when it is not finished and not blocked. -/
theorem offered_of_free {imports : List ImportRecord} {cached : Nat → Bool} {b : Build}
    (underway : db.Underway)
    (imported : ∀ b ∈ db.builds, b.canceled = false → b.sourceStatus = .importing →
      ∃ record ∈ imports, record.buildId = b.id) (member : b ∈ db.builds)
    (unfinished : b.finished = false) (free : db.blocked cached b = false) :
    (∃ record ∈ imports, record.buildId = b.id) ∨
      ∃ record ∈ db.pendingJobs cached, record.buildId = b.id := by
  have early : b.finishedEarly = false := by
    unfold finished at unfinished
    cases known : b.finishedEarly with
    | false => rfl
    | true =>
      rw [known] at unfinished
      cases unfinished
  have active : b.canceled = false := by
    unfold finishedEarly at early
    exact (Bool.or_eq_false_iff.mp early).1
  rcases underway b member with ended | todo | ⟨importing, _⟩ | ⟨finished, all⟩
  · rw [early] at ended
    cases ended
  · exact Or.inr ⟨getSrpmBuildRecord b,
      mem_pendingJobs.mpr ⟨b, member, active, free, Or.inl ⟨rfl, todo⟩⟩, rfl⟩
  · exact Or.inl (imported b member active importing)
  · unfold Build.finished at unfinished
    rw [early, if_neg Bool.false_ne_true] at unfinished
    split at unfinished
    · rw [decide_eq_true finished] at unfinished
      cases unfinished
    · -- some chroot is not finished, so it is to be built
      obtain ⟨c, inside, still⟩ := List.all_eq_false.mp unfinished
      rw [decide_eq_true_eq] at still
      have todo := (all c inside).resolve_left still
      exact Or.inr ⟨getBuildRecord (b, c),
        mem_pendingJobs.mpr ⟨b, member, active, free, Or.inr ⟨c, inside, rfl, todo⟩⟩, rfl⟩

/-- The first batch that holds up a blocked one. -/
theorem first_unfinished (ordered : db.BatchesOrdered) {redis : List Nat} {batchId : Nat}
    (blocked : ∃ n, db.Behind batchId n ∧ db.finishedBy redis n = false) :
    ∃ n, db.Behind batchId n ∧ db.finishedBy redis n = false ∧
      ∀ m, db.Behind n m → db.finishedBy redis m = true := by
  have falls : ∀ n m, db.Behind n m → m < n := by
    rw [← ancestor_eq ordered]
    intro n m behind
    induction behind with
    | single above => exact blockedBy_falls ordered _ _ above
    | tail _ above ih => exact Nat.lt_trans (blockedBy_falls ordered _ _ above) ih
  let held (n : Nat) : Prop := db.Behind batchId n ∧ db.finishedBy redis n = false
  obtain ⟨n, ⟨behind, unfinished⟩, least⟩ :=
    WellFounded.has_min Nat.lt_wfRel.wf {n | held n} blocked
  refine ⟨n, behind, unfinished, fun m before => ?_⟩
  by_contra waiting
  exact least m ⟨behind.trans before, eq_false_of_ne_true waiting⟩ (falls n m before)

end Database

/-! ## The whole frontend -/

namespace BatchState

open Database

/-- The messages that are sent. -/
def moves (s : BatchState) : BatchEvent → Bool
  | .operation op => s.db.moves op
  | _ => true

/-- Every event leaves something to be done. -/
theorem step_underway {s t : BatchState} {e : BatchEvent} (underway : s.db.Underway)
    (moves : s.moves e = true) (stepped : s.step e = some t) : t.db.Underway := by
  cases e with
  | operation op =>
    obtain ⟨db, operated, rfl⟩ := Option.map_eq_some_iff.mp stepped
    have asked : s.db.moves (op.asking s.redis) = true := by cases op <;> exact moves
    exact operate_underway underway asked operated
  | batchBuild batching submissions =>
    obtain ⟨db, built, rfl⟩ := Option.map_eq_some_iff.mp stepped
    exact batchBuild_underway underway built
  | pendingJobs =>
    obtain ⟨_, _, rfl⟩ := Option.map_eq_some_iff.mp stepped
    exact underway
  | askFinished batchId =>
    obtain rfl := Option.some.inj stepped
    exact underway
  | expire batchId =>
    obtain rfl := Option.some.inj stepped
    exact underway

/-- Both queues are answered, and every unfinished build is in one of them, or it is behind a batch
that is not finished: of which a build is in one of the queues, if not all its builds were
deleted. -/
def NothingLost (s : BatchState) : Prop :=
  ∃ imports records redis', s.db.distGitImportingQueue = some imports ∧
    s.db.pendingJobsResponse s.redis = some (records, redis') ∧
    ∀ b ∈ s.db.builds, b.finished = false →
      (∃ record ∈ imports, record.buildId = b.id) ∨
      (∃ record ∈ records, record.buildId = b.id) ∨
      ∃ batchId n, b.batchId = some batchId ∧ s.db.Behind batchId n ∧
        s.db.finishedBy s.redis n = false ∧
        (s.db.batchBuilds n = [] ∨
          ∃ c ∈ s.db.batchBuilds n, (∃ record ∈ imports, record.buildId = c.id) ∨
            ∃ record ∈ records, record.buildId = c.id)

/-- No build is lost in any run in which workers report what workers report. -/
theorem unfinished_builds_offered {s : BatchState}
    (run : Run step (fun s e => s.moves e = true) initial s) : s.NothingLost := by
  obtain ⟨orderly, underway⟩ : s.Orderly ∧ s.db.Underway := by
    refine run_invariant (fun s => s.Orderly ∧ s.db.Underway) ?_ run
      ⟨initial_orderly, fun _ no => absurd no List.not_mem_nil⟩
    rintro s e t ⟨orderly, underway⟩ moves stepped
    exact ⟨(step_kept orderly stepped).1, step_underway underway moves stepped⟩
  obtain ⟨imports, answered, imported⟩ := distGitImportingQueue_eq underway
  obtain ⟨redis', listed, _⟩ := pendingJobsResponse_answers orderly.known orderly.ordered s.redis
  refine ⟨imports, _, redis', answered, listed, fun b member unfinished => ?_⟩
  by_cases free : s.db.blocked (fun n => decide (n ∈ s.redis)) b = false
  · rcases offered_of_free underway imported member unfinished free with first | second
    · exact Or.inl first
    · exact Or.inr (Or.inl second)
  · rw [blocked_iff orderly.known orderly.ordered member] at free
    push Not at free
    obtain ⟨batchId, joined, m, before, waiting⟩ := free
    obtain ⟨n, behind, held, first⟩ := first_unfinished orderly.ordered
      ⟨m, before, eq_false_of_ne_true waiting⟩
    refine Or.inr (Or.inr ⟨batchId, n, joined, behind, held, ?_⟩)
    by_cases empty : s.db.batchBuilds n = []
    · exact Or.inl empty
    · -- one of its builds is not finished, and the batch is not blocked
      unfold finishedBy batchFinished at held
      rw [Bool.or_eq_false_iff, Bool.and_eq_false_iff] at held
      have inhabited : (!(s.db.batchBuilds n).isEmpty) = true := by simpa using empty
      have all := held.2.resolve_left (by rw [inhabited]; decide)
      obtain ⟨c, inside, still⟩ := List.all_eq_false.mp all
      obtain ⟨there, own⟩ := List.mem_filter.mp inside
      rw [decide_eq_true_eq] at own
      have freed : s.db.blocked (fun n => decide (n ∈ s.redis)) c = false := by
        rw [blocked_iff orderly.known orderly.ordered there]
        intro m same
        obtain rfl : n = m := Option.some.inj (own.symm.trans same)
        exact first
      exact Or.inr ⟨c, inside,
        offered_of_free underway imported there (eq_false_of_ne_true still) freed⟩

/-- The sources of the first build are imported while the second build is behind its batch. -/
theorem unfinished_builds_offered_following :
    ∃ s : BatchState, s.shown =
        ([(1, some 1, false), (2, some 2, false)], [⟨1, none⟩, ⟨2, some 1⟩], some []) ∧
      s.NothingLost := by
  obtain ⟨s, run, seen⟩ := exec_observe step moves initial
    [.operation (.add (fun _ => false) leading), .operation (.add (fun _ => false) following),
      .operation (.message (Sample.sourceReport .running)),
      .operation (.message (Sample.sourceReport .succeeded)), .pendingJobs]
    shown ([(1, some 1, false), (2, some 2, false)], [⟨1, none⟩, ⟨2, some 1⟩], some []) rfl
  exact ⟨s, seen, unfinished_builds_offered run⟩

/-- Where the first build fails and is deleted before anybody asks, the second one stays blocked. -/
example : (exec step moves initial
    [.operation (.add (fun _ => false) leading), .operation (.add (fun _ => false) following),
      .operation (.message (Sample.sourceReport .failed)), .operation (.deleteBuild 1),
      .pendingJobs]).map shown =
    some ([(2, some 2, false)], [⟨1, none⟩, ⟨2, some 1⟩], some []) := rfl

end BatchState

end Copr
