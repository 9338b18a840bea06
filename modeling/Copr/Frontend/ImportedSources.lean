import Copr.Frontend.ProjectReferences
import Copr.Frontend.SelectedChroots
import Copr.Frontend.TerminalStates

/-!
# Only imported sources are built

A chroot that is handed to the backend has the commit that dist-git has reported for its branch,
when the sources of its build, or those of the build that it was resubmitted from, were imported.
A resubmission that skips the import can break this: it is for any active chroots of a project,
and some of them may never have been imported.
-/

namespace Copr

open Runs Tables Text

/-! ## Chroots with a commit -/

namespace Build

open BuildsLogic

variable {b : Build} {known : MockChroot → Option String → Prop}

/-- What is known of the commits of all chroots that are handed to the backend. -/
def Backed (known : MockChroot → Option String → Prop) (b : Build) : Prop :=
  ∀ c ∈ b.buildChroots, c.status.Todo → known c.mockChroot c.gitHash

/-- A change is harmless if what it hands to the backend was handed to it before, with the same
commit. -/
theorem Backed.map {b' : Build} (backed : b.Backed known) {f : BuildChroot → BuildChroot}
    (kept : ∀ c, (f c).status.Todo →
      c.status.Todo ∧ (f c).mockChroot = c.mockChroot ∧ (f c).gitHash = c.gitHash)
    (chroots : b'.buildChroots = b.buildChroots.map f) : b'.Backed known := by
  intro c member todo
  rw [chroots] at member
  obtain ⟨old, before, rfl⟩ := List.mem_map.mp member
  obtain ⟨handed, mock, hash⟩ := kept old todo
  rw [mock, hash]
  exact backed old before handed

/-- A report about the source build does not touch commits. -/
theorem sourceChroot_gitHash (env : Surroundings) (upd : UpdDict) (c : BuildChroot) :
    (sourceChroot env upd c).gitHash = c.gitHash := by
  have settled : (settledChroot env upd c).gitHash = c.gitHash := by
    unfold settledChroot
    split
    · rfl
    · split <;> rfl
  unfold sourceChroot
  split
  · exact settled
  · unfold skipExcluded
    dsimp only
    split <;> split <;> exact settled

/-- A report about the source build hands nothing to the backend. -/
theorem sourceGives_todo {upd : UpdDict} {c : BuildChroot} (todo : (sourceGives upd c).Todo) :
    c.status.Todo := by
  unfold sourceGives at todo
  split at todo
  · exact absurd todo (by decide)
  · cases status : upd.status <;> simp only [status] at todo <;> first
      | exact todo
      | exact absurd todo (by decide)

/-- A report about a chroot hands it to the backend. -/
def handsOver (upd : UpdDict) (c : BuildChroot) : Bool :=
  decide (upd.chroot = some c.name) && decide upd.status.Todo && !decide c.status.Terminal

/-- A report keeps commits known exactly if it hands chroots with known commits to the backend,
or has no effect, or is about the source build. -/
theorem report_backed (backed : b.Backed known) (env : Surroundings) (upd : UpdDict) :
    ((updateStateFromDict env b upd).getD b).Backed known ↔
      (taken env b upd = true → upd.taskId ≠ b.taskId → ∀ c ∈ b.buildChroots,
        handsOver upd c = true → known c.mockChroot c.gitHash) := by
  cases updateStateFromDict_reported env b upd with
  | ignored refused same =>
    rw [same, refused]
    simp [backed]
  | source accepted task row package status chroots =>
    refine iff_of_true ?_ fun _ other => absurd task other
    intro c member todo
    rw [chroots] at member
    obtain ⟨old, before, rfl⟩ := List.mem_map.mp member
    rw [sourceChroot_status] at todo
    rw [(sourceChroot_keeps env upd old).1, sourceChroot_gitHash]
    unfold sourceChroots at before
    split at before
    · rename_i allocated
      rw [sourceGives] at todo
      simp only [allocated.1] at todo
      split at todo <;> exact absurd todo (by decide)
    · rw [(withPackage_keeps b upd).2.2] at before
      exact backed old before (sourceGives_todo todo)
  | chroot accepted task row package status chroots =>
    have kept : ∀ c, (updateChroot env upd c).gitHash = c.gitHash := by
      intro c
      unfold updateChroot
      split <;> rfl
    simp only [accepted, ne_eq, task, not_false_eq_true, forall_const]
    constructor
    · intro all c member handed
      have named := all (updateChroot env upd c) (by rw [chroots]; exact List.mem_map_of_mem member)
      simp only [handsOver, Bool.and_eq_true, Bool.not_eq_true', decide_eq_true_eq,
        decide_eq_false_iff_not] at handed
      rw [updateChroot_status, if_pos ⟨handed.1.1, handed.2⟩, updateChroot_mockChroot,
        kept] at named
      exact named handed.1.2
    · intro all c member todo
      rw [chroots] at member
      obtain ⟨old, before, rfl⟩ := List.mem_map.mp member
      rw [updateChroot_mockChroot, kept]
      rw [updateChroot_status] at todo
      split at todo
      · rename_i both
        exact all old before (by simp [handsOver, both.1, both.2, todo])
      · exact backed old before todo

/-- Rescheduling concerns chroots that were handed to the backend. -/
theorem reschedule_backed (distinct : b.Distinct) (backed : b.Backed known) (env : Surroundings)
    (taskId : String) (chroot : Option String) :
    ((b.rescheduleBuildChroot env taskId chroot).getD b).Backed known := by
  rcases b.reschedule_cases env taskId chroot with same | ⟨upd, -, -, -, same, either⟩
  · rw [same]
    exact backed
  · rw [same]
    refine (report_backed backed env upd).mpr fun _ task c member handed => ?_
    rcases either with ⟨source, -⟩ | ⟨-, d, inside, named, running⟩
    · exact absurd source task
    · simp only [handsOver, Bool.and_eq_true, decide_eq_true_eq] at handed
      have sameName : c.name = d.name := Option.some.inj (handed.1.1.symm.trans named)
      obtain rfl := distinct.eq member inside sameName
      exact backed c member (StatusEnum.todo_of_run running)

/-- An import hands chroots to the backend with the commits that it brings. -/
theorem import_backed (backed : b.Backed known) {branchCommits : List (String × String)}
    (brought : ∀ m : MockChroot, ∀ gitHash,
      branchCommits.lookup m.distgitBranchName = some gitHash → known m (some gitHash)) :
    ((b.distGitUploadCompleted branchCommits).getD b).Backed known := by
  have imported : ∀ c ∈ b.buildChroots.map (importChroot branchCommits), c.status.Todo →
      known c.mockChroot c.gitHash := by
    intro c member todo
    obtain ⟨old, before, rfl⟩ := List.mem_map.mp member
    unfold importChroot at todo ⊢
    cases commit : branchCommits.lookup old.mockChroot.distgitBranchName with
    | none =>
      simp only [commit] at todo
      exact absurd todo (by decide)
    | some gitHash =>
      by_cases skipped : old.status = .skipped
      · simp only [commit, if_pos skipped] at todo ⊢
        exact backed old before todo
      · simp only [if_neg skipped]
        exact brought old.mockChroot gitHash commit
  unfold distGitUploadCompleted
  dsimp only
  split
  · split
    · exact backed
    · exact imported
  · exact imported

/-- Canceling hands nothing to the backend. -/
theorem cancel_backed (backed : b.Backed known) (taskId : String) :
    (b.buildTaskCanceled taskId).Backed known := by
  unfold buildTaskCanceled
  split
  · refine backed.map (fun c todo => ?_) rfl
    split at todo
    · exact absurd (show StatusEnum.canceled.Todo from todo) (by decide)
    · rename_i other
      rw [if_neg other]
      exact ⟨todo, rfl, rfl⟩
  · split <;> exact backed

/-- The end of a chroot's life hands nothing to the backend. -/
theorem cancelByMock_backed (backed : b.Backed known) (mockChroot : MockChroot) :
    (cancelBuildChrootsByMock mockChroot b).Backed known := by
  refine backed.map (fun c todo => ?_) rfl
  split at todo
  · exact absurd (show StatusEnum.canceled.Todo from todo) (by decide)
  · rename_i other
    rw [if_neg other]
    exact ⟨todo, rfl, rfl⟩

/-- What any message does to the chroots that are handed to the backend. -/
theorem receive_backed (distinct : b.Distinct) (backed : b.Backed known) {m : Message}
    (quiet : ∀ env buildId upd, m ≠ .update env buildId upd ∧ m ≠ .startingBuild env buildId upd)
    (brought : ∀ branchCommits, m = .importCompleted b.id branchCommits →
      ∀ m : MockChroot, ∀ gitHash, branchCommits.lookup m.distgitBranchName = some gitHash →
        known m (some gitHash)) : (b.receive m).Backed known := by
  unfold receive
  split
  · rename_i addressed
    cases m with
    | update env buildId upd => exact absurd rfl (quiet env buildId upd).1
    | startingBuild env buildId upd => exact absurd rfl (quiet env buildId upd).2
    | rescheduleBuildChroot env buildId taskId chroot =>
      exact reschedule_backed distinct backed env taskId chroot
    | importCompleted buildId branchCommits =>
      obtain rfl : b.id = buildId := by simpa [Build.addressed] using addressed
      exact import_backed backed (brought branchCommits rfl)
    | buildTaskCanceled taskId => exact cancel_backed backed taskId
    | cancelBuild buildId =>
      simp only [handle, BuildsLogic.cancelBuild]
      split
      · exact backed
      · exact backed
    | cancelBuildChrootsByMock mockChroot => exact cancelByMock_backed backed mockChroot
  · exact backed

end Build

/-! ## The constraint on chroots -/

/-- Every operation keeps the chroots of a build distinct. -/
theorem Database.operate_distinct {db db' : Database} {op : Operation} (distinct : db.Distinct)
    (operated : db.operate op = some db') : db'.Distinct := by
  cases operate_operated operated with
  | message m => exact receive_distinct distinct m
  | add cached submission grown batchId set =>
    obtain ⟨batch, builds⟩ := (setupBatch_rebatched set).builds
    intro b member
    rcases List.mem_append.mp member with old | new
    · rw [builds] at old
      obtain ⟨c, before, rfl⟩ := List.mem_map.mp old
      exact distinct c before
    · rw [List.mem_singleton.mp new]
      unfold Build.Distinct skipPreviouslySkipped addedBuild
      rw [Build.names_map fun c => by split <;> rfl, List.map_map]
      exact submission.chroots.distinct
  | fork b chroots inside =>
    intro c member
    rcases List.mem_append.mp member with old | new
    · exact distinct c old
    · rw [List.mem_singleton.mp new]
      unfold Build.Distinct forkBuild
      dsimp only
      rw [List.map_map]
      exact (distinct b inside).sublist (List.filter_sublist.map _)
  | rawhideToRelease buildId rawhide dest =>
    intro b member
    obtain ⟨old, before, rfl⟩ := List.mem_map.mp member
    have rows := distinct old before
    split
    · unfold forkRawhideChroot
      split
      · exact rows
      · split
        · rename_i c _ both
          unfold Build.Distinct
          rw [List.map_append, List.nodup_append]
          refine ⟨rows, List.nodup_singleton _, fun name listed other single same => ?_⟩
          obtain ⟨d, inside, rfl⟩ := List.mem_map.mp listed
          rw [List.map_singleton, List.mem_singleton] at single
          exact both.2 d inside (same.trans single)
        · exact rows
    · exact rows
  | markAsFailed buildId =>
    intro b member
    obtain ⟨old, before, rfl⟩ := List.mem_map.mp member
    split
    · exact (distinct old before).map (fun c => by split <;> rfl) rfl
    · exact distinct old before
  | deleteBuild buildId finished => exact fun b member => distinct b (List.mem_of_mem_filter member)

namespace ProjectDatabase

open BuildsLogic

variable {chars : CharClasses} {s t : ProjectDatabase chars}

/-- The commit was reported for the branch when the sources were imported. -/
def Sourced (s : ProjectDatabase chars) (buildId : Nat) (m : MockChroot) (gitHash : Option String) :
    Prop :=
  ∃ commit, gitHash = some commit ∧ (buildId, m.distgitBranchName, commit) ∈ s.reported

instance (buildId : Nat) (m : MockChroot) :
    ∀ gitHash, Decidable (s.Sourced buildId m gitHash)
  | none => isFalse fun ⟨_, given, _⟩ => nomatch given
  | some commit =>
    decidable_of_iff ((buildId, m.distgitBranchName, commit) ∈ s.reported)
      ⟨fun member => ⟨commit, rfl, member⟩, fun ⟨_, same, member⟩ => Option.some.inj same ▸ member⟩

/-- Every chroot that is pending, starting or running has the commit that was reported. -/
def OnlyImported (s : ProjectDatabase chars) : Prop :=
  ∀ b ∈ s.db.builds, b.Backed (s.Sourced b.id)

/-- A worker reports about chroots that were imported only, as far as its report takes effect. -/
def reportsImported (s : ProjectDatabase chars) (env : Surroundings) (upd : UpdDict) (b : Build) :
    Bool :=
  !taken env b upd || decide (upd.taskId = b.taskId) ||
    b.buildChroots.all fun c => !Build.handsOver upd c ||
      decide (s.Sourced b.id c.mockChroot c.gitHash)

/-- The chroots that a resubmission without an import is for. -/
def resubmittedChroots (project : ActiveProject chars) (patterns : ChrootPatterns) :
    List MockChroot :=
  (chrootsOfNames project.activeChroots
    (patterns.selectedChroots project.activeChroots.names) true).chroots

/-- A resubmission without an import is for chroots only that were imported for the build before,
or are skipped. -/
def resubmitsImported (s : ProjectDatabase chars) (project : ActiveProject chars)
    (patterns : ChrootPatterns) (b : Build) (r : BuildRefs chars) : Bool :=
  decide (r.sourceType ≠ .upload) || (truthyText (b.srpmUrl.or r.srpmUrl)).isNone ||
    (resubmittedChroots project patterns).all fun m =>
      decide (m.name ∈ b.skippedChroots) || decide (s.Sourced b.id m (b.gitHashes.lookup m.name))

/-- Chroots are handed to the backend after their import only. -/
def buildsImported (s : ProjectDatabase chars) : ProjectEvent chars → Bool
  | .message (.update env buildId upd) =>
    s.db.builds.all fun b => decide (b.id ≠ buildId) || s.reportsImported env upd b
  | .message (.startingBuild env buildId upd) =>
    s.db.builds.all fun b => decide (b.id ≠ buildId) || b.canceled || s.reportsImported env upd b
  | .newBuildRebuild _ coprId buildId patterns _ =>
    match s.getCopr coprId, s.getBuild buildId with
    | some project, some (b, r) => s.resubmitsImported project patterns b r
    | _, _ => true
  | _ => true

/-- What holds in every state. -/
structure Recorded (s : ProjectDatabase chars) : Prop where
  /-- The primary key of builds. -/
  ids : s.db.IdsKnown
  /-- The unique constraint on the chroots of a build. -/
  distinct : s.db.Distinct
  /-- Nothing is reported about builds that do not exist yet. -/
  bounded : ∀ e ∈ s.reported, e.1 < s.db.nextBuildId

/-! ## New builds -/

section NewBuilds

variable {copr : NamedCopr chars} {sources : Sources chars} {submission : Submission}
  {inherited : List (String × String)}

/-- The chroots of a new build. -/
def newChroots (submission : Submission) : List BuildChroot :=
  (Database.skipPreviouslySkipped submission.skipped
    (Database.addedBuild 0 none submission)).buildChroots

/-- The rows after a build was added: the others keep their chroots. -/
theorem Added.builds (added : s.Added copr sources submission inherited t) :
    ∃ change : Build → Build,
      (∀ b, (change b).id = b.id ∧ (change b).buildChroots = b.buildChroots) ∧
      ∃ new : Build, new.id = s.db.nextBuildId ∧ new.buildChroots = newChroots submission ∧
        t.db.builds = s.db.builds.map change ++ [new] := by
  obtain ⟨cached, db, done, next, version, builds⟩ := added.db
  have operated : s.db.operate (.add cached submission) = some db := done
  cases Database.operate_operated operated with
  | add cached submission grown batchId set =>
    have rebatched := Database.setupBatch_rebatched set
    obtain ⟨batch, same⟩ := rebatched.builds
    let row := Database.skipPreviouslySkipped submission.skipped
      (Database.addedBuild grown.nextBuildId batchId submission)
    refine ⟨fun b => { b with
        batchId := batch b
        pkgVersion := version { b with batchId := batch b } },
      fun b => ⟨rfl, rfl⟩, { row with pkgVersion := version row }, rebatched.nextBuildId, rfl, ?_⟩
    rw [builds, List.map_append, same, List.map_map]
    rfl

/-- A new build keeps what holds in every state. -/
theorem Recorded.added (recorded : s.Recorded)
    (added : s.Added copr sources submission inherited t) : t.Recorded := by
  obtain ⟨cached, db, done, next, version, builds⟩ := added.db
  have operated : s.db.operate (.add cached submission) = some db := done
  have ids := Database.operate_idsKnown recorded.ids operated
  have distinct := Database.operate_distinct recorded.distinct operated
  have larger : t.db.nextBuildId = s.db.nextBuildId + 1 := by
    cases Database.operate_operated operated with
    | add cached submission grown batchId set =>
      rw [next]
      exact congrArg (· + 1) (Database.setupBatch_rebatched set).nextBuildId
  refine ⟨ids.map (fun b => ?_) builds next, fun b member => ?_, fun e member => ?_⟩
  · rfl
  · rw [builds] at member
    obtain ⟨old, before, rfl⟩ := List.mem_map.mp member
    exact distinct old before
  · rw [added.reported] at member
    rw [larger]
    rcases List.mem_append.mp member with old | new
    · exact Nat.lt_succ_of_lt (recorded.bounded e old)
    · obtain ⟨e, -, rfl⟩ := List.mem_map.mp new
      exact Nat.lt_succ_self _

/-- What counts for a new build is what it inherits. -/
theorem Added.sourced (recorded : s.Recorded)
    (added : s.Added copr sources submission inherited t) (m : MockChroot)
    (gitHash : Option String) :
    t.Sourced s.db.nextBuildId m gitHash ↔
      ∃ commit, gitHash = some commit ∧ (m.distgitBranchName, commit) ∈ inherited := by
  have fresh : ∀ e ∈ s.reported, e.1 ≠ s.db.nextBuildId := fun e member =>
    Nat.ne_of_lt (recorded.bounded e member)
  refine exists_congr fun commit => and_congr_right fun _ => ?_
  rw [added.reported, List.mem_append, List.mem_map]
  constructor
  · rintro (old | ⟨e, member, same⟩)
    · exact absurd rfl (fresh _ old)
    · obtain rfl := (Prod.mk.inj same).2
      exact member
  · intro member
    exact Or.inr ⟨_, member, rfl⟩

/-- A chroot that is skipped is not handed to the backend. -/
theorem not_skipped_of_todo {names : List String} {c : BuildChroot}
    (todo : (if c.name ∈ names then { c with status := .skipped } else c).status.Todo) :
    c.name ∉ names ∧ c.status.Todo := by
  split at todo
  · exact absurd (show StatusEnum.skipped.Todo from todo) (by decide)
  · rename_i other
    exact ⟨other, todo⟩

/-- Chroots are handed to the backend at once when the import is skipped. -/
theorem mem_newChroots {c : BuildChroot} :
    (c ∈ newChroots submission ∧ c.status.Todo) ↔
      submission.skipImport = true ∧ ∃ m ∈ submission.chroots.chroots,
        m.name ∉ submission.skipped ∧
          c =
            { mockChroot := m
              status := .pending
              gitHash := submission.gitHashes.lookup m.name } :=
    by
  simp only [newChroots, Database.skipPreviouslySkipped, Database.addedBuild, List.map_map,
    List.mem_map, Function.comp_apply]
  constructor
  · rintro ⟨⟨m, member, rfl⟩, todo⟩
    obtain ⟨other, started⟩ := not_skipped_of_todo todo
    rw [if_neg other]
    cases skips : submission.skipImport with
    | true => exact ⟨rfl, m, member, other, rfl⟩
    | false =>
      rw [skips] at started
      exact absurd (show StatusEnum.waiting.Todo from started) (by decide)
  · rintro ⟨skips, m, member, other, rfl⟩
    refine ⟨⟨m, member, ?_⟩, show StatusEnum.pending.Todo by decide⟩
    rw [skips]
    exact if_neg other

/-- A new build is built from imported sources exactly if the chroots that it hands to the
backend at once inherit their commits. -/
theorem OnlyImported.added (recorded : s.Recorded) (imported : s.OnlyImported)
    (added : s.Added copr sources submission inherited t) :
    t.OnlyImported ↔ (submission.skipImport = true → ∀ m ∈ submission.chroots.chroots,
      m.name ∉ submission.skipped → ∃ commit, submission.gitHashes.lookup m.name = some commit ∧
        (m.distgitBranchName, commit) ∈ inherited) := by
  obtain ⟨change, keeps, new, fresh, chroots, builds⟩ := added.builds
  have more : s.reported ⊆ t.reported := by
    rw [added.reported]
    exact List.subset_append_left _ _
  constructor
  · intro all skips m member other
    have listed : new ∈ t.db.builds := by
      rw [builds]
      exact List.mem_append_right _ (List.mem_singleton_self new)
    obtain ⟨inside, todo⟩ := mem_newChroots.mpr ⟨skips, m, member, other, rfl⟩
    have sourced := all new listed _ (chroots ▸ inside) todo
    rw [fresh] at sourced
    exact (added.sourced recorded m _).mp sourced
  · intro all b member c inside todo
    rw [builds] at member
    rcases List.mem_append.mp member with old | single
    · obtain ⟨b, before, rfl⟩ := List.mem_map.mp old
      rw [(keeps b).2] at inside
      rw [(keeps b).1]
      obtain ⟨commit, given, known⟩ := imported b before c inside todo
      exact ⟨commit, given, more known⟩
    · rw [List.mem_singleton.mp single] at inside ⊢
      rw [chroots] at inside
      obtain ⟨skips, m, member, other, rfl⟩ := mem_newChroots.mp ⟨inside, todo⟩
      rw [fresh]
      exact (added.sourced recorded m _).mpr (all skips m member other)

end NewBuilds

/-- A resubmission without an import is for some chroots. -/
theorem resubmittedChroots_ne_nil {project : ActiveProject chars} (patterns : ChrootPatterns)
    (active : project.activeChroots.chroots ≠ []) : resubmittedChroots project patterns ≠ [] := by
  unfold resubmittedChroots chrootsOfNames
  split
  · rename_i named
    obtain ⟨name, selected⟩ := List.exists_mem_of_ne_nil _ named
    have listed := patterns.selectedChroots_subset project.activeChroots.names selected
    obtain ⟨m, member, rfl⟩ := List.mem_map.mp listed
    exact List.ne_nil_of_mem (List.mem_filter.mpr ⟨member, decide_eq_true selected⟩)
  · exact active

/-- A resubmission builds imported sources exactly if it is for chroots that were imported. -/
theorem OnlyImported.newBuildRebuild (recorded : s.Recorded) (imported : s.OnlyImported)
    {cached : Nat → Bool} {coprId buildId : Nat} {patterns : ChrootPatterns}
    {batching : Option Batching}
    (done : s.newBuildRebuild cached coprId buildId patterns batching = some t) :
    t.Recorded ∧ (t.OnlyImported ↔
      s.buildsImported (.newBuildRebuild cached coprId buildId patterns batching) = true) := by
  obtain ⟨project, isProject, rest⟩ := Option.bind_eq_some_iff.mp done
  obtain ⟨⟨b, r⟩, found, resubmitted⟩ := Option.bind_eq_some_iff.mp rest
  unfold createNewFromOtherBuild at resubmitted
  dsimp only at resubmitted
  split at resubmitted
  · contradiction
  · obtain ⟨u, created, rfl⟩ := Option.map_eq_some_iff.mp resubmitted
    obtain ⟨-, packageActive, submission, isSubmission, new⟩ := createNew_added created
    have added := (new.setPkgVersion s.db.nextBuildId b.pkgVersion).inheritReports b.id
    obtain ⟨active, gitHashes, skipImport, skipped, chroots⟩ := createNewFor_spec isSubmission
    refine ⟨recorded.added added, (imported.added recorded added).trans ?_⟩
    have inherits : ∀ e : String × String,
        e ∈ (s.reported.filter fun e => decide (e.1 = b.id)).map Prod.snd ↔
          (b.id, e) ∈ s.reported := by
      intro e
      simp
    rw [skipImport, gitHashes, skipped]
    simp only [inherits, buildsImported, isProject, found, resubmitsImported, Sources.request]
    by_cases uploaded : r.sourceType = .upload
    · cases url : truthyText (b.srpmUrl.or r.srpmUrl) with
      | none => simp
      | some srpm =>
        have same : submission.chroots.chroots = resubmittedChroots project patterns := by
          simp only [Sources.request, uploaded, url, decide_true, Option.isSome_some,
            Bool.and_true] at chroots
          exact congrArg _ (chroots trivial (resubmittedChroots_ne_nil patterns active))
        simp only [uploaded, same, decide_true, Option.isSome_some, Bool.and_true, ne_eq,
          not_true_eq_false, decide_false, Option.isNone_some, Bool.false_or, List.all_eq_true,
          Bool.or_eq_true, decide_eq_true_eq, or_iff_not_imp_left, forall_const]
        rfl
    · simp [uploaded]

/-! ## Messages -/

/-- Commits that were reported stay reported. -/
theorem backed_mono (more : s.reported ⊆ t.reported) {b : Build} {buildId : Nat}
    (backed : b.Backed (s.Sourced buildId)) : b.Backed (t.Sourced buildId) := by
  intro c member todo
  obtain ⟨commit, given, known⟩ := backed c member todo
  exact ⟨commit, given, more known⟩

/-- Only the builds and the reports matter. -/
theorem onlyImported_congr (db : t.db = s.db) (reported : t.reported = s.reported) :
    t.OnlyImported ↔ s.OnlyImported := by
  unfold OnlyImported Build.Backed Sourced
  rw [db, reported]

/-- Only the builds and the reports matter. -/
theorem Recorded.congr (recorded : s.Recorded) (db : t.db = s.db)
    (reported : t.reported = s.reported) : t.Recorded := by
  constructor
  · exact db ▸ recorded.ids
  · exact db ▸ recorded.distinct
  · rw [db, reported]
    exact recorded.bounded

/-- Builds after an operation keep what holds in every state. -/
theorem Recorded.operate (recorded : s.Recorded) {op : Operation} {db : Database}
    (operated : s.db.operate op = some db) (grows : s.db.nextBuildId ≤ db.nextBuildId)
    (same : t.db = db) (reported : t.reported = s.reported) : t.Recorded := by
  constructor
  · exact same ▸ Database.operate_idsKnown recorded.ids operated
  · exact same ▸ Database.operate_distinct recorded.distinct operated
  · intro e member
    rw [reported] at member
    rw [same]
    exact Nat.lt_of_lt_of_le (recorded.bounded e member) grows

/-- The package of a build does not matter. -/
theorem assignPackage_keeps (s : ProjectDatabase chars) (buildId : Nat) :
    (s.assignPackage buildId).db = s.db ∧ (s.assignPackage buildId).reported = s.reported := by
  unfold assignPackage
  split
  · exact ⟨rfl, rfl⟩
  · split
    · split
      · exact ⟨rfl, rfl⟩
      · rename_i package grown got
        have same := (getOrCreatePackage_same got).2
        exact ⟨same.db, same.reported⟩
    · exact ⟨rfl, rfl⟩

/-- A message changes the builds one by one. -/
theorem receive_db (s : ProjectDatabase chars) (m : Message) :
    (s.receive m).db = s.db.receive m := by
  unfold receive
  split
  · exact (assignPackage_keeps _ _).1
  · exact (assignPackage_keeps _ _).1
  · dsimp only [remember]
    split <;> rfl
  · rfl

/-- What was reported after a message: imports are remembered. -/
theorem mem_receive_reported {m : Message} {e : Nat × String × String} :
    e ∈ (s.receive m).reported ↔ e ∈ s.reported ∨
      ∃ branchCommits, m = .importCompleted e.1 branchCommits ∧ e.2 ∈ branchCommits ∧
        ∃ b ∈ s.db.builds, b.id = e.1 := by
  cases m with
  | importCompleted buildId branchCommits =>
    have exists_iff : ((s.db.receive (.importCompleted buildId branchCommits)).builds.any fun b =>
        decide (b.id = buildId)) = true ↔ ∃ b ∈ s.db.builds, b.id = buildId := by
      simp [Database.receive]
    dsimp only [receive, remember]
    by_cases there : ∃ b ∈ s.db.builds, b.id = buildId
    · rw [if_pos (exists_iff.mpr there), List.mem_append, List.mem_map]
      refine or_congr_right ⟨?_, ?_⟩
      · rintro ⟨c, member, rfl⟩
        exact ⟨branchCommits, rfl, member, there⟩
      · rintro ⟨commits, same, member, -⟩
        obtain ⟨rfl, rfl⟩ := Message.importCompleted.inj same
        exact ⟨e.2, member, rfl⟩
    · rw [if_neg (exists_iff.not.mpr there)]
      refine ⟨Or.inl, fun either => either.resolve_right ?_⟩
      rintro ⟨commits, same, -, found⟩
      obtain ⟨rfl, rfl⟩ := Message.importCompleted.inj same
      exact there found
  | update env buildId upd =>
    have same := (assignPackage_keeps
      { s with db := s.db.receive (.update env buildId upd) } buildId).2
    simp [receive, same]
  | startingBuild env buildId upd =>
    have same := (assignPackage_keeps
      { s with db := s.db.receive (.startingBuild env buildId upd) } buildId).2
    simp [receive, same]
  | rescheduleBuildChroot => simp [receive]
  | buildTaskCanceled => simp [receive]
  | cancelBuild => simp [receive]
  | cancelBuildChrootsByMock => simp [receive]

/-- Chroots are handed to the backend one build at a time. -/
theorem receive_onlyImported (s : ProjectDatabase chars) (m : Message) :
    (s.receive m).OnlyImported ↔
      ∀ b ∈ s.db.builds, (b.receive m).Backed ((s.receive m).Sourced b.id) := by
  unfold OnlyImported
  rw [receive_db]
  constructor
  · intro all b member
    have one := all (b.receive m) (List.mem_map_of_mem member)
    rwa [b.receive_id m] at one
  · intro all b member
    obtain ⟨old, before, rfl⟩ := List.mem_map.mp member
    rw [old.receive_id m]
    exact all old before

/-- A message keeps what holds in every state. -/
theorem Recorded.receive (recorded : s.Recorded) (m : Message) : (s.receive m).Recorded := by
  have operated : s.db.operate (.message m) = some (s.db.receive m) := rfl
  constructor
  · exact receive_db s m ▸ Database.operate_idsKnown recorded.ids operated
  · exact receive_db s m ▸ Database.operate_distinct recorded.distinct operated
  · intro e member
    rw [receive_db]
    show e.1 < s.db.nextBuildId
    rcases mem_receive_reported.mp member with old | ⟨-, -, -, b, there, same⟩
    · exact recorded.bounded e old
    · exact same ▸ recorded.ids.bounded b there

/-- A report keeps what is known of the chroots of a build exactly if it is about chroots that
were imported. -/
theorem report_onlyImported (imported : s.OnlyImported) {b : Build} (member : b ∈ s.db.builds)
    (env : Surroundings) (upd : UpdDict) :
    ((updateStateFromDict env b upd).getD b).Backed (s.Sourced b.id) ↔
      s.reportsImported env upd b = true := by
  refine (Build.report_backed (imported b member) env upd).trans ?_
  simp only [reportsImported, Bool.or_eq_true, Bool.not_eq_true', decide_eq_true_eq,
    List.all_eq_true]
  by_cases accepted : taken env b upd = true
  · by_cases task : upd.taskId = b.taskId
    · simp [task]
    · simp [accepted, task, or_iff_not_imp_left]
  · simp [accepted]

/-- A message builds imported sources exactly if it is no report about a chroot that was not
imported. -/
theorem OnlyImported.receive (recorded : s.Recorded) (imported : s.OnlyImported) (m : Message) :
    (s.receive m).OnlyImported ↔ s.buildsImported (.message m) = true := by
  have more : s.reported ⊆ (s.receive m).reported := fun e member =>
    mem_receive_reported.mpr (Or.inl member)
  have sourced : (∀ buildId branchCommits, m ≠ .importCompleted buildId branchCommits) →
      (s.receive m).Sourced = s.Sourced := by
    intro other
    funext buildId mock gitHash
    refine propext (exists_congr fun commit => and_congr_right fun _ => ?_)
    refine mem_receive_reported.trans ⟨fun either => either.resolve_right ?_, Or.inl⟩
    rintro ⟨branchCommits, same, -⟩
    exact other _ branchCommits same
  rw [receive_onlyImported]
  have quiet : (∀ env buildId upd,
      m ≠ .update env buildId upd ∧ m ≠ .startingBuild env buildId upd) →
      ∀ b ∈ s.db.builds, (b.receive m).Backed ((s.receive m).Sourced b.id) := by
    intro quiet b member
    refine Build.receive_backed (recorded.distinct b member)
      (backed_mono more (imported b member)) quiet ?_
    rintro branchCommits rfl mock gitHash brought
    have listed : (mock.distgitBranchName, gitHash) ∈ branchCommits := by
      obtain ⟨before, after, rfl, -⟩ := List.lookup_eq_some_iff.mp brought
      simp
    exact ⟨gitHash, rfl,
      mem_receive_reported.mpr (Or.inr ⟨branchCommits, rfl, listed, b, member, rfl⟩)⟩
  cases m with
  | update env buildId upd =>
    rw [sourced (by simp)]
    simp only [buildsImported, List.all_eq_true]
    refine forall₂_congr fun b member => ?_
    by_cases own : b.id = buildId
    · have received : b.receive (.update env buildId upd) =
          (updateStateFromDict env b upd).getD b := by
        simp [Build.receive, Build.addressed, Build.handle, own]
      rw [received, report_onlyImported imported member env upd]
      simp [own]
    · have kept : b.receive (.update env buildId upd) = b := by
        simp [Build.receive, Build.addressed, own]
      rw [kept]
      exact iff_of_true (imported b member) (by simp [own])
  | startingBuild env buildId upd =>
    rw [sourced (by simp)]
    simp only [buildsImported, List.all_eq_true]
    refine forall₂_congr fun b member => ?_
    by_cases own : b.id = buildId ∧ b.canceled = false
    · have received : b.receive (.startingBuild env buildId upd) =
          (updateStateFromDict env b upd).getD b := by
        have handled := Build.handle_startingBuild b env buildId upd
        rw [own.2] at handled
        simpa [Build.receive, Build.addressed, own.1] using handled
      rw [received, report_onlyImported imported member env upd]
      simp [own]
    · have kept : b.receive (.startingBuild env buildId upd) = b := by
        unfold Build.receive
        split
        · rename_i addressed
          have same : b.id = buildId := by simpa [Build.addressed] using addressed
          have canceled : b.canceled = true := by simpa [same] using own
          rw [Build.handle_startingBuild, if_pos canceled]
        · rfl
      rw [kept]
      refine iff_of_true (imported b member) ?_
      by_cases same : b.id = buildId
      · have canceled : b.canceled = true := by simpa [same] using own
        simp [canceled]
      · simp [same]
  | rescheduleBuildChroot => exact iff_of_true (quiet (by simp)) rfl
  | importCompleted => exact iff_of_true (quiet (by simp)) rfl
  | buildTaskCanceled => exact iff_of_true (quiet (by simp)) rfl
  | cancelBuild => exact iff_of_true (quiet (by simp)) rfl
  | cancelBuildChrootsByMock => exact iff_of_true (quiet (by simp)) rfl

/-! ## The other events -/

/-- A build that waits for its import hands nothing to the backend. -/
theorem OnlyImported.waiting (recorded : s.Recorded) (imported : s.OnlyImported)
    {copr : NamedCopr chars} {sources : Sources chars} {submission : Submission}
    {inherited : List (String × String)}
    (added : s.Added copr sources submission inherited t) (waits : submission.skipImport = false) :
    t.Recorded ∧ t.OnlyImported := by
  refine ⟨recorded.added added, (imported.added recorded added).mpr fun skips => ?_⟩
  rw [waits] at skips
  contradiction

/-- `create_new` waits for the import unless it is skipped with an SRPM. -/
theorem OnlyImported.createNew (recorded : s.Recorded) (imported : s.OnlyImported)
    {cached : Nat → Bool} {project : ActiveProject chars} {patterns : ChrootPatterns}
    {options : BuildOptions} {sources : Sources chars}
    (done : s.createNew cached project patterns options sources = some t)
    (waits : (sources.request patterns options).skipImport = false) :
    t.Recorded ∧ t.OnlyImported := by
  obtain ⟨-, packageActive, submission, isSubmission, added⟩ := createNew_added done
  refine imported.waiting recorded added ?_
  rw [(createNewFor_spec isSubmission).2.2.1, waits]

/-- A package version changes nothing else. -/
theorem setPkgVersion_imported (recorded : s.Recorded) (imported : s.OnlyImported) (buildId : Nat)
    (pkgVersion : Option String) :
    (s.setPkgVersion buildId pkgVersion).Recorded ∧
      (s.setPkgVersion buildId pkgVersion).OnlyImported := by
  refine ⟨⟨?_, ?_, recorded.bounded⟩, ?_⟩
  · exact recorded.ids.map (fun b => by split <;> rfl) rfl rfl
  · intro b member
    obtain ⟨old, before, rfl⟩ := List.mem_map.mp member
    split
    · exact recorded.distinct old before
    · exact recorded.distinct old before
  · intro b member
    obtain ⟨old, before, rfl⟩ := List.mem_map.mp member
    split
    · exact imported old before
    · exact imported old before

/-- Forked chroots are not handed to the backend, and neither are failed ones. -/
theorem OnlyImported.operate (imported : s.OnlyImported) {op : Operation} {db : Database}
    (operated : s.db.operate op = some db)
    (quiet : (∃ buildId chroots, op = .fork buildId chroots) ∨
      (∃ buildId rawhide dest, op = .rawhideToRelease buildId rawhide dest) ∨
        ∃ buildId, op = .markAsFailed buildId)
    (same : t.db = db) (reported : t.reported = s.reported) : t.OnlyImported := by
  have sourced : t.Sourced = s.Sourced := by
    unfold Sourced
    rw [reported]
  intro b member
  rw [same] at member
  rw [sourced]
  cases Database.operate_operated operated with
  | fork c chroots inside =>
    rcases List.mem_append.mp member with old | new
    · exact imported b old
    · rw [List.mem_singleton.mp new]
      intro d listed todo
      obtain ⟨old, -, rfl⟩ := List.mem_map.mp listed
      exact absurd (show StatusEnum.forked.Todo from todo) (by decide)
  | rawhideToRelease buildId rawhide dest =>
    obtain ⟨old, before, rfl⟩ := List.mem_map.mp member
    split
    · unfold Database.forkRawhideChroot
      split
      · exact imported old before
      · split
        · intro d listed todo
          rcases List.mem_append.mp listed with there | new
          · exact imported old before d there todo
          · rw [List.mem_singleton.mp new] at todo
            exact absurd (show StatusEnum.forked.Todo from todo) (by decide)
        · exact imported old before
    · exact imported old before
  | markAsFailed buildId =>
    obtain ⟨old, before, rfl⟩ := List.mem_map.mp member
    split
    · refine Build.Backed.map (imported old before) (fun c todo => ?_) rfl
      split at todo
      · rename_i succeeded
        rw [if_pos succeeded]
        exact ⟨todo, rfl, rfl⟩
      · exact absurd (show StatusEnum.failed.Todo from todo) (by decide)
    · exact imported old before
  | message m => simp at quiet
  | add cached submission grown batchId set => simp at quiet
  | deleteBuild buildId finished => simp at quiet

/-- Builds that stay are as they were. -/
theorem dropBuilds_imported (recorded : s.Recorded) (imported : s.OnlyImported)
    (selected : BuildRefs chars → Bool) :
    (s.dropBuilds selected).Recorded ∧ (s.dropBuilds selected).OnlyImported := by
  refine ⟨⟨⟨?_, ?_⟩, ?_, recorded.bounded⟩, ?_⟩
  · exact recorded.ids.distinct.sublist (List.filter_sublist.map _)
  · exact fun b member => recorded.ids.bounded b (List.mem_of_mem_filter member)
  · exact fun b member => recorded.distinct b (List.mem_of_mem_filter member)
  · exact fun b member => imported b (List.mem_of_mem_filter member)

/-- Builds that are not deleted are as they were. -/
theorem deleteBuilds_imported (recorded : s.Recorded) (imported : s.OnlyImported)
    {selected : BuildRefs chars → Bool} (deleted : s.deleteBuilds selected = some t) :
    t.Recorded ∧ t.OnlyImported := by
  unfold deleteBuilds at deleted
  split at deleted
  · obtain rfl := Option.some.inj deleted
    exact dropBuilds_imported recorded imported selected
  · contradiction

/-- Every event keeps what holds in every state, and builds imported sources exactly if it hands
chroots to the backend after their import only. -/
theorem step_imported (recorded : s.Recorded) (imported : s.OnlyImported) {e : ProjectEvent chars}
    (stepped : s.step e = some t) :
    t.Recorded ∧ (t.OnlyImported ↔ s.buildsImported e = true) := by
  have kept : t.db = s.db → t.reported = s.reported → s.buildsImported e = true →
      t.Recorded ∧ (t.OnlyImported ↔ s.buildsImported e = true) := fun db reported admitted =>
    ⟨recorded.congr db reported,
      iff_of_true ((onlyImported_congr db reported).mpr imported) admitted⟩
  have both : s.buildsImported e = true → t.Recorded ∧ t.OnlyImported →
      t.Recorded ∧ (t.OnlyImported ↔ s.buildsImported e = true) := fun admitted both =>
    ⟨both.1, iff_of_true both.2 admitted⟩
  cases e with
  | message m =>
    obtain rfl := Option.some.inj stepped
    exact ⟨recorded.receive m, imported.receive recorded m⟩
  | newBuildRebuild cached coprId buildId patterns batching =>
    exact imported.newBuildRebuild recorded stepped
  | addCopr copr activeChroots =>
    obtain ⟨d, -, rfl⟩ := Option.map_eq_some_iff.mp stepped
    exact kept rfl rfl rfl
  | setActiveChroots coprId activeChroots =>
    obtain rfl := Option.some.inj stepped
    exact kept rfl rfl rfl
  | getOrCreateDir coprId dirname =>
    obtain ⟨p, -, rest⟩ := Option.bind_eq_some_iff.mp stepped
    obtain ⟨⟨d, u⟩, got, rfl⟩ := Option.map_eq_some_iff.mp rest
    have same := (getOrCreateDir_same got).2
    exact kept same.db same.reported rfl
  | addPackage coprId name sourceType =>
    obtain ⟨p, -, rfl⟩ := Option.map_eq_some_iff.mp stepped
    exact kept rfl rfl rfl
  | editPackage packageId denylist sourceType =>
    obtain rfl := Option.some.inj stepped
    exact kept rfl rfl rfl
  | submit cached coprId packageName sourceType srpmUrl patterns options =>
    refine both rfl ?_
    obtain ⟨project, -, rest⟩ := Option.bind_eq_some_iff.mp stepped
    cases packageName with
    | none => exact imported.createNew recorded rest rfl
    | some name =>
      obtain ⟨p, -, created⟩ := Option.bind_eq_some_iff.mp rest
      exact imported.createNew recorded created rfl
  | batchBuild cached coprId packageName patterns onlyPackageChroots batching =>
    refine both rfl ?_
    obtain ⟨project, -, rest⟩ := Option.bind_eq_some_iff.mp stepped
    obtain ⟨p, -, built⟩ := Option.bind_eq_some_iff.mp rest
    dsimp only at built
    split at built
    · obtain ⟨b, -, hashed⟩ := Option.bind_eq_some_iff.mp built
      obtain ⟨gitHash, -, created⟩ := Option.bind_eq_some_iff.mp hashed
      obtain ⟨u, new, rfl⟩ := Option.map_eq_some_iff.mp created
      obtain ⟨recorded', imported'⟩ := imported.createNew recorded new rfl
      exact setPkgVersion_imported recorded' imported' _ _
    · exact imported.createNew recorded built rfl
  | rebuildPackage packageId coprDirname =>
    refine both rfl ?_
    obtain ⟨p, -, rest⟩ := Option.bind_eq_some_iff.mp stepped
    split at rest
    · contradiction
    · exact imported.waiting recorded (add_added rest) rfl
  | forkBuild buildId coprId chroots =>
    refine both rfl ?_
    obtain ⟨fcopr, -, rest⟩ := Option.bind_eq_some_iff.mp stepped
    obtain ⟨⟨b, r⟩, -, rest⟩ := Option.bind_eq_some_iff.mp rest
    obtain ⟨package, -, rest⟩ := Option.bind_eq_some_iff.mp rest
    split at rest
    · contradiction
    · obtain ⟨⟨fpackage, grown⟩, got, rest⟩ := Option.bind_eq_some_iff.mp rest
      obtain ⟨coprDir, -, rest⟩ := Option.bind_eq_some_iff.mp rest
      obtain ⟨db, operated, rfl⟩ := Option.map_eq_some_iff.mp rest
      have same := (getOrCreatePackage_same got).2.reported
      have grows : s.db.nextBuildId ≤ db.nextBuildId := by
        cases Database.operate_operated operated with
        | fork c chroots inside => exact Nat.le_succ _
      exact ⟨recorded.operate operated grows rfl same,
        imported.operate operated (Or.inl ⟨_, _, rfl⟩) rfl same⟩
  | rawhideToRelease buildId rawhide dest =>
    refine both rfl ?_
    simp only [step] at stepped
    obtain ⟨db, operated, rfl⟩ := Option.map_eq_some_iff.mp stepped
    have grows : s.db.nextBuildId ≤ db.nextBuildId := by
      cases Database.operate_operated operated with
      | rawhideToRelease buildId rawhide dest => exact Nat.le_refl _
    exact ⟨recorded.operate operated grows rfl rfl,
      imported.operate operated (Or.inr (Or.inl ⟨_, _, _, rfl⟩)) rfl rfl⟩
  | markAsFailed buildId =>
    refine both rfl ?_
    simp only [step] at stepped
    obtain ⟨db, operated, rfl⟩ := Option.map_eq_some_iff.mp stepped
    have grows : s.db.nextBuildId ≤ db.nextBuildId := by
      cases Database.operate_operated operated with
      | markAsFailed buildId => exact Nat.le_refl _
    exact ⟨recorded.operate operated grows rfl rfl,
      imported.operate operated (Or.inr (Or.inr ⟨_, rfl⟩)) rfl rfl⟩
  | deleteBuilds buildIds => exact both rfl (deleteBuilds_imported recorded imported stepped)
  | deletePackage packageId =>
    obtain ⟨u, deleted, rfl⟩ := Option.map_eq_some_iff.mp stepped
    obtain ⟨recorded', imported'⟩ := deleteBuilds_imported recorded imported deleted
    exact both rfl ⟨recorded'.congr rfl rfl, (onlyImported_congr rfl rfl).mpr imported'⟩
  | deleteDirs dirIds =>
    obtain rfl := Option.some.inj stepped
    obtain ⟨recorded', imported'⟩ := dropBuilds_imported recorded imported _
    exact both rfl ⟨recorded'.congr rfl rfl, (onlyImported_congr rfl rfl).mpr imported'⟩
  | deleteCopr coprId =>
    obtain ⟨u, deleted, rfl⟩ := Option.map_eq_some_iff.mp stepped
    obtain ⟨recorded', imported'⟩ := deleteBuilds_imported recorded imported deleted
    exact both rfl ⟨recorded'.congr rfl rfl, (onlyImported_congr rfl rfl).mpr imported'⟩

/-- There is nothing to be built at first. -/
theorem empty_imported : (empty : ProjectDatabase chars).Recorded ∧
    (empty : ProjectDatabase chars).OnlyImported := by
  refine ⟨⟨⟨List.nodup_nil, ?_⟩, ?_, ?_⟩, ?_⟩
  · simp [empty, Database.empty]
  · simp [empty, Database.empty, Database.Distinct]
  · simp [empty]
  · simp [empty, Database.empty, OnlyImported]

/-- In every run in which resubmissions without an import are for imported chroots only, and
workers report about imported chroots only, every chroot that is pending, starting or running has
the commit that was reported for its branch. Any other resubmission or report breaks this. -/
theorem only_imported_built {s : ProjectDatabase chars}
    (run : Run step (fun s e => s.buildsImported e = true) empty s) :
    s.OnlyImported ∧ ∀ e t, s.step e = some t → (t.OnlyImported ↔ s.buildsImported e = true) := by
  obtain ⟨recorded, imported⟩ : s.Recorded ∧ s.OnlyImported := by
    refine run_invariant (fun s => s.Recorded ∧ s.OnlyImported) ?_ run empty_imported
    rintro s e t ⟨recorded, imported⟩ admitted stepped
    obtain ⟨recorded', exactly⟩ := step_imported recorded imported stepped
    exact ⟨recorded', exactly.mpr admitted⟩
  exact ⟨imported, fun e t stepped => (step_imported recorded imported stepped).2⟩

end ProjectDatabase

/-- A file is uploaded and imported for Fedora, and the build is resubmitted for these chroots. -/
def Sample.resubmittedFor (pattern : String) : List (ProjectEvent .ascii) :=
  [.addCopr aliceHello project.packageChroots,
    .submit (fun _ => false) 1 none .upload (some "tmp/hello.src.rpm") ⟨["fedora-*"], []⟩ {},
    .message (sourceReport .succeeded), .message (.importCompleted 1 [("f39", "c0ffee")]),
    .newBuildRebuild (fun _ => false) 1 1 ⟨[pattern], []⟩ none]

namespace ProjectDatabase

/-- The chroots of builds with their statuses and commits. -/
def commits (s : ProjectDatabase chars) :
    List (Nat × List (String × StatusEnum × Option String)) :=
  s.db.builds.map fun b => (b.id, b.buildChroots.map fun c => (c.name, c.status, c.gitHash))

/-- The file is built once more for Fedora, from the same commit. -/
theorem only_imported_built_resubmitted : ∃ s : ProjectDatabase .ascii,
    s.commits = [(1, [("fedora-39-x86_64", .pending, some "c0ffee")]),
      (2, [("fedora-39-x86_64", .pending, some "c0ffee")])] ∧ s.OnlyImported := by
  obtain ⟨s, run, seen⟩ := exec_observe step buildsImported empty (Sample.resubmittedFor "fedora-*")
    commits [(1, [("fedora-39-x86_64", .pending, some "c0ffee")]),
      (2, [("fedora-39-x86_64", .pending, some "c0ffee")])] rfl
  exact ⟨s, seen, (only_imported_built run).1⟩

/-- The file is resubmitted for EPEL, where it was never imported: the chroot is pending without
a commit. -/
theorem resubmission_builds_no_commit : ¬ ∀ s : ProjectDatabase .ascii,
    Run step anyEvent empty s → s.OnlyImported := by
  intro claimed
  obtain ⟨s, run, seen⟩ := exec_observe step (fun _ _ => true) empty
    (Sample.resubmittedFor "epel-*") commits
    [(1, [("fedora-39-x86_64", .pending, some "c0ffee")]), (2, [("epel-9-x86_64", .pending, none)])]
    rfl
  have imported := claimed s (run_weaken (fun _ _ _ => trivial) run)
  have listed : (2, [("epel-9-x86_64", StatusEnum.pending, none)]) ∈ s.commits := by simp [seen]
  obtain ⟨b, member, same⟩ := List.mem_map.mp listed
  have chroots := (Prod.mk.inj same).2
  have one : ("epel-9-x86_64", StatusEnum.pending, none) ∈
      b.buildChroots.map fun c => (c.name, c.status, c.gitHash) := by simp [chroots]
  obtain ⟨c, inside, row⟩ := List.mem_map.mp one
  simp only [Prod.mk.injEq] at row
  obtain ⟨-, pending, missing⟩ := row
  obtain ⟨commit, given, -⟩ := imported b member c inside (by rw [pending]; decide)
  rw [missing] at given
  contradiction

end ProjectDatabase

end Copr
