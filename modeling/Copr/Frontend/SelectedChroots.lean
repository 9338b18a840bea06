import Copr.Frontend.ChrootPatterns
import Copr.Frontend.Operations

/-!
# Builds stay in their selection

A request that names chroots, or chroots to exclude, selects some of the active chroots. If the
selection is not empty, the build gets chroots of it only, now and when its source build has
succeeded. But an empty selection is taken for none at all.
-/

namespace Copr

open Runs

/-- The active chroots that match `chroots`, or all of them if it is empty, apart from those
that match `exclude_chroots`. -/
def ChrootPatterns.selection (p : ChrootPatterns) (activeChroots : ChrootSet) :
    List MockChroot :=
  activeChroots.chroots.filter fun chroot =>
    (p.chroots.isEmpty || p.chroots.any (patternMatches activeChroots.names chroot.name)) &&
      !p.excludeChroots.any (patternMatches activeChroots.names chroot.name)

/-! ## Patterns that were validated -/

section Patterns

variable {patterns names : List String} {name : String}

/-- Patterns are expanded to the names that match one of them. -/
theorem mem_expandChroots : name ∈ expandChroots patterns names ↔
    name ∈ names ∧ ∃ pattern ∈ patterns, patternMatches names name pattern = true := by
  simp [expandChroots]

/-- A list of patterns that is accepted matches a name, unless it is empty. -/
theorem expandChroots_ne_nil (accepted : preValidate names patterns = true)
    (given : patterns ≠ []) : expandChroots patterns names ≠ [] := by
  obtain ⟨pattern, listed⟩ := List.exists_mem_of_ne_nil _ given
  have valid := List.all_eq_true.mp accepted pattern listed
  rw [Bool.or_eq_true, decide_eq_true_eq] at valid
  have matched : ∃ name ∈ names, patternMatches names name pattern = true := by
    by_cases known : pattern ∈ names
    · exact ⟨pattern, known, by simp [patternMatches, known]⟩
    · have filtered := valid.resolve_left known
      simp only [Bool.not_eq_true', List.isEmpty_eq_false_iff] at filtered
      obtain ⟨name, inside⟩ := List.exists_mem_of_ne_nil _ filtered
      obtain ⟨there, fits⟩ := List.mem_filter.mp inside
      exact ⟨name, there, by simp [patternMatches, known, fits]⟩
  obtain ⟨name, there, fits⟩ := matched
  exact List.ne_nil_of_mem (mem_expandChroots.mpr ⟨there, pattern, listed, fits⟩)

end Patterns

/-- Only names of the list are selected. -/
theorem ChrootPatterns.selectedChroots_subset (p : ChrootPatterns) (names : List String) :
    p.selectedChroots names ⊆ names := by
  intro name selected
  have known : ∀ patterns, name ∈ expandChroots patterns names → name ∈ names :=
    fun _ member => (mem_expandChroots.mp member).1
  unfold selectedChroots at selected
  split at selected
  · exact known _ selected
  · have inside := List.mem_of_mem_filter selected
    split at inside
    · exact inside
    · exact known _ inside

section Selection

variable {p : ChrootPatterns} {activeChroots : ChrootSet}
  (accepted : p.validate activeChroots.names = true)
  (given : p.chroots ≠ [] ∨ p.excludeChroots ≠ [])

include accepted given

/-- The form selects the names of the selection. -/
theorem mem_selectedChroots {chroot : MockChroot} (active : chroot ∈ activeChroots.chroots) :
    chroot.name ∈ p.selectedChroots activeChroots.names ↔
      chroot ∈ p.selection activeChroots := by
  have there : chroot.name ∈ activeChroots.names := List.mem_map_of_mem active
  rw [ChrootPatterns.validate, Bool.and_eq_true] at accepted
  unfold ChrootPatterns.selectedChroots ChrootPatterns.selection
  rw [List.mem_filter, Bool.and_eq_true, Bool.or_eq_true, Bool.not_eq_true',
    List.any_eq_false, List.any_eq_true, List.isEmpty_iff]
  by_cases none : p.excludeChroots = []
  · have some : p.chroots ≠ [] := given.resolve_right fun other => other none
    simp [none, some, mem_expandChroots, there, active]
  · rw [if_neg none]
    by_cases empty : p.chroots = []
    · have all : expandChroots [] activeChroots.names = [] := by simp [expandChroots]
      simp [all, empty, mem_expandChroots, there, active]
    · have some := expandChroots_ne_nil accepted.1 empty
      simp [some, empty, mem_expandChroots, there, active]

/-- The form selects nothing exactly if the selection is empty. -/
theorem selectedChroots_eq_nil :
    p.selectedChroots activeChroots.names = [] ↔ p.selection activeChroots = [] := by
  constructor
  · intro empty
    refine List.eq_nil_iff_forall_not_mem.mpr fun chroot selected => ?_
    have named :=
      (mem_selectedChroots accepted given (List.mem_of_mem_filter selected)).mpr selected
    rw [empty] at named
    exact List.not_mem_nil named
  · intro empty
    refine List.eq_nil_iff_forall_not_mem.mpr fun name selected => ?_
    have listed := ChrootPatterns.selectedChroots_subset p activeChroots.names selected
    obtain ⟨chroot, active, rfl⟩ := List.mem_map.mp listed
    have member := (mem_selectedChroots accepted given active).mp selected
    rw [empty] at member
    exact List.not_mem_nil member

/-- A project whose chroots are named has active chroots. -/
theorem activeChroots_ne_nil : activeChroots.chroots ≠ [] := by
  rw [ChrootPatterns.validate, Bool.and_eq_true] at accepted
  have some : ∃ patterns, expandChroots patterns activeChroots.names ≠ [] := by
    rcases given with named | excluded
    · exact ⟨_, expandChroots_ne_nil accepted.1 named⟩
    · exact ⟨_, expandChroots_ne_nil accepted.2 excluded⟩
  obtain ⟨patterns, inhabited⟩ := some
  obtain ⟨name, member⟩ := List.exists_mem_of_ne_nil _ inhabited
  obtain ⟨chroot, active, -⟩ := List.mem_map.mp (mem_expandChroots.mp member).1
  exact List.ne_nil_of_mem active

end Selection

/-! ## Chroots of packages -/

namespace Package

variable (package : Package) {activeChroots : ChrootSet}

/-- A package is built in active chroots only. -/
theorem mem_chroots {chroot : MockChroot}
    (member : chroot ∈ (package.chroots activeChroots).chroots) :
    chroot ∈ activeChroots.chroots := by
  unfold chroots at member
  split at member
  · exact member
  · dsimp only at member
    split at member
    · exact member
    · exact List.mem_of_mem_filter member

/-- The denylist never filters everything. -/
theorem chroots_ne_nil (active : activeChroots.chroots ≠ []) :
    (package.chroots activeChroots).chroots ≠ [] := by
  unfold chroots
  split
  · exact active
  · dsimp only
    split
    · exact active
    · rename_i some
      exact some

end Package

/-! ## Builds keep their chroots -/

namespace Build

open BuildsLogic

/-- A build that has chroots keeps them when a message arrives. -/
theorem receive_mockChroots {b : Build} (some : b.buildChroots ≠ []) (m : Message) :
    (b.receive m).buildChroots.map BuildChroot.mockChroot =
      b.buildChroots.map BuildChroot.mockChroot := by
  have keeps : ∀ {f : BuildChroot → BuildChroot}, (∀ c, (f c).mockChroot = c.mockChroot) →
      (b.buildChroots.map f).map BuildChroot.mockChroot =
        b.buildChroots.map BuildChroot.mockChroot := by
    intro f same
    rw [List.map_map]
    exact List.map_congr_left fun c _ => same c
  have report : ∀ env upd, ((updateStateFromDict env b upd).getD b).buildChroots.map
      BuildChroot.mockChroot = b.buildChroots.map BuildChroot.mockChroot := by
    intro env upd
    cases updateStateFromDict_reported env b upd with
    | ignored _ same => rw [same]
    | source _ _ _ _ _ chroots =>
      have old : sourceChroots env (withPackage b upd) upd = b.buildChroots := by
        rw [sourceChroots, (withPackage_keeps b upd).2.2, if_neg fun both => some both.2]
      rw [chroots, old]
      exact keeps fun c => (sourceChroot_keeps env upd c).1
    | chroot _ _ _ _ _ chroots =>
      rw [chroots]
      exact keeps (updateChroot_mockChroot env upd)
  unfold receive
  split
  · cases m with
    | update env buildId upd => exact report env upd
    | startingBuild env buildId upd =>
      rw [handle_startingBuild]
      split
      · rfl
      · exact report env upd
    | rescheduleBuildChroot env buildId taskId chroot =>
      rcases b.reschedule_cases env taskId chroot with same | ⟨upd, -, -, -, same, -⟩
      · simp only [handle, same]
      · simp only [handle, same]
        exact report env upd
    | importCompleted buildId branchCommits =>
      have changed := fun c => importChroot_mockChroot branchCommits c
      simp only [handle, distGitUploadCompleted]
      split
      · split
        · rfl
        · exact keeps changed
      · exact keeps changed
    | buildTaskCanceled taskId =>
      simp only [handle, buildTaskCanceled, Option.getD_some]
      split
      · exact keeps fun c => by split <;> rfl
      · split <;> rfl
    | cancelBuild buildId =>
      simp only [handle, BuildsLogic.cancelBuild]
      split <;> rfl
    | cancelBuildChrootsByMock mockChroot => exact keeps fun c => by split <;> rfl
  · rfl

/-- The build has chroots, and all of them are selected. -/
def Within (selection : List MockChroot) (b : Build) : Prop :=
  b.buildChroots ≠ [] ∧ ∀ c ∈ b.buildChroots, c.mockChroot ∈ selection

/-- Only the mock chroots of a build matter. -/
theorem Within.congr {selection : List MockChroot} {b b' : Build} (within : b.Within selection)
    (same : b'.buildChroots.map BuildChroot.mockChroot =
      b.buildChroots.map BuildChroot.mockChroot) : b'.Within selection := by
  constructor
  · intro empty
    rw [empty] at same
    exact within.1 (List.map_eq_nil_iff.mp same.symm)
  · intro c member
    have listed : c.mockChroot ∈ b.buildChroots.map BuildChroot.mockChroot :=
      same ▸ List.mem_map_of_mem member
    obtain ⟨d, inside, equal⟩ := List.mem_map.mp listed
    rw [← equal]
    exact within.2 d inside

end Build

/-! ## Requests -/

namespace Database

/-- What a build gets at its submission and by reports: it is not branched. -/
def NotBranched (buildId : Nat) (_ : Database) (op : Operation) : Prop :=
  ∀ rawhide dest, op ≠ .rawhideToRelease buildId rawhide dest

/-- A build of this id has chroots of the selection only. -/
def KeepsSelection (selection : List MockChroot) (buildId : Nat) (db : Database) : Prop :=
  ∀ b ∈ db.builds, b.id = buildId → b.Within selection

/-- Operations that do not branch the build keep it within the selection. -/
theorem operate_keepsSelection {selection : List MockChroot} {buildId : Nat} {db db' : Database}
    {op : Operation} (taken : buildId < db.nextBuildId)
    (keeps : db.KeepsSelection selection buildId) (apart : NotBranched buildId db op)
    (operated : db.operate op = some db') :
    buildId < db'.nextBuildId ∧ db'.KeepsSelection selection buildId := by
  have mapped : ∀ {f : Build → Build} {builds : List Build},
      (∀ b, (f b).id = b.id) →
      (∀ b ∈ db.builds, b.id = buildId → b.Within selection → (f b).Within selection) →
      builds = db.builds.map f → ∀ b ∈ builds, b.id = buildId → b.Within selection := by
    rintro f builds ids within rfl b member own
    obtain ⟨old, inside, rfl⟩ := List.mem_map.mp member
    rw [ids] at own
    exact within old inside own (keeps old inside own)
  cases operate_operated operated with
  | message m =>
    refine ⟨taken, mapped (fun b => b.receive_id m) (fun b _ _ within => ?_) rfl⟩
    exact within.congr (Build.receive_mockChroots within.1 m)
  | add cached s grown batchId set =>
    have rebatched := setupBatch_rebatched set
    obtain ⟨batch, builds⟩ := rebatched.builds
    have next : buildId < grown.nextBuildId := rebatched.nextBuildId ▸ taken
    refine ⟨Nat.lt_succ_of_lt next, fun b member own => ?_⟩
    rcases List.mem_append.mp member with old | new
    · refine mapped (fun _ => ?_) (fun b _ _ within => ?_) builds b old own
      · rfl
      · exact within
    · rw [List.mem_singleton.mp new] at own
      exact absurd own (Nat.ne_of_gt next)
  | fork c chroots inside =>
    refine ⟨Nat.lt_succ_of_lt taken, fun b member own => ?_⟩
    rcases List.mem_append.mp member with old | new
    · exact keeps b old own
    · rw [List.mem_singleton.mp new] at own
      exact absurd own (Nat.ne_of_gt taken)
  | rawhideToRelease otherId rawhide dest =>
    refine ⟨taken, mapped (fun b => ?_) (fun b _ own within => ?_) rfl⟩
    · obtain ⟨added, same⟩ := forkRawhideChroot_adds rawhide dest b
      split
      · rw [same]
      · rfl
    · rw [if_neg fun same => apart rawhide dest (by rw [← own, same])]
      exact within
  | markAsFailed otherId =>
    refine ⟨taken, mapped (fun b => by split <;> rfl) (fun b _ _ within => ?_) rfl⟩
    split
    · refine within.congr ?_
      unfold BuildsLogic.markAsFailed
      dsimp only
      rw [List.map_map]
      refine List.map_congr_left fun c _ => ?_
      simp only [Function.comp_apply]
      split <;> rfl
    · exact within
  | deleteBuild otherId finished =>
    exact ⟨taken, fun b member own => keeps b (List.mem_of_mem_filter member) own⟩

section Request

variable {db : Database} {cached : Nat → Bool} {activeChroots : ChrootSet} {r : BuildRequest}

/-- What `_chroots_to_add` finds among chroots is among them, and it is not empty. -/
theorem chrootsToAdd_within {package : Option Package} {chroots added : ChrootSet}
    {packageChrootsSubset : Bool} (offered : chroots.chroots ≠ [])
    (found : BuildsLogic.chrootsToAdd package activeChroots chroots packageChrootsSubset =
      some added) :
    added.chroots ≠ [] ∧ ∀ chroot ∈ added.chroots, chroot ∈ chroots.chroots := by
  unfold BuildsLogic.chrootsToAdd at found
  cases package with
  | none =>
    obtain rfl := Option.some.inj found
    exact ⟨offered, fun _ member => member⟩
  | some package =>
    simp only [if_neg offered] at found
    cases packageChrootsSubset with
    | true =>
      obtain ⟨inhabited, same⟩ := Option.ite_none_left_eq_some.mp found
      rw [← Option.some.inj same]
      exact ⟨inhabited, fun chroot member => List.mem_of_mem_filter member⟩
    | false =>
      obtain ⟨inhabited, same⟩ := Option.ite_none_left_eq_some.mp found
      rw [← Option.some.inj same]
      exact ⟨inhabited, fun chroot member => member⟩

/-- The submission of a request with a selection is within it. -/
theorem createNew_within (accepted : r.patterns.validate activeChroots.names = true)
    (given : r.patterns.chroots ≠ [] ∨ r.patterns.excludeChroots ≠ [])
    (selects : r.patterns.selection activeChroots ≠ []) {s : Submission}
    (created : BuildsLogic.createNew activeChroots
      (r.patterns.selectedChroots activeChroots.names) r = some s) :
    s.chroots.chroots ≠ [] ∧
      ∀ chroot ∈ s.chroots.chroots, chroot ∈ r.patterns.selection activeChroots := by
  have names : r.patterns.selectedChroots activeChroots.names ≠ [] := fun empty =>
    selects ((selectedChroots_eq_nil accepted given).mp empty)
  have chroots : ∀ chroot,
      chroot ∈ (BuildsLogic.chrootsOfNames activeChroots
        (r.patterns.selectedChroots activeChroots.names) r.skipImport).chroots ↔
      chroot ∈ r.patterns.selection activeChroots := by
    intro chroot
    rw [BuildsLogic.chrootsOfNames, if_pos names, ChrootSet.filter, List.mem_filter,
      decide_eq_true_eq]
    constructor
    · rintro ⟨active, selected⟩
      exact (mem_selectedChroots accepted given active).mp selected
    · intro selected
      have active := List.mem_of_mem_filter selected
      exact ⟨active, (mem_selectedChroots accepted given active).mpr selected⟩
  have inhabited : (BuildsLogic.chrootsOfNames activeChroots
      (r.patterns.selectedChroots activeChroots.names) r.skipImport).chroots ≠ [] := by
    obtain ⟨chroot, selected⟩ := List.exists_mem_of_ne_nil _ selects
    exact List.ne_nil_of_mem ((chroots chroot).mpr selected)
  unfold BuildsLogic.createNew at created
  rw [if_neg (activeChroots_ne_nil accepted given)] at created
  obtain ⟨added, found, rfl⟩ := Option.map_eq_some_iff.mp created
  obtain ⟨ne, inside⟩ := chrootsToAdd_within inhabited found
  exact ⟨ne, fun chroot member => (chroots chroot).mp (inside chroot member)⟩

/-- A request that selects nothing is not refused for its chroots. -/
theorem createNew_of_empty (accepted : r.patterns.validate activeChroots.names = true)
    (given : r.patterns.chroots ≠ [] ∨ r.patterns.excludeChroots ≠ [])
    (empty : r.patterns.selection activeChroots = []) :
    ∃ s, BuildsLogic.createNew activeChroots
        (r.patterns.selectedChroots activeChroots.names) r = some s ∧
      s.package = r.package.map Package.name ∧ s.skipImport = r.skipImport ∧
      s.batching = r.batching ∧
      (s.chroots.chroots = [] ↔ r.package = none ∧ r.skipImport = false) := by
  have active := activeChroots_ne_nil accepted given
  have names := (selectedChroots_eq_nil accepted given).mpr empty
  have offered : BuildsLogic.chrootsOfNames activeChroots
      (r.patterns.selectedChroots activeChroots.names) r.skipImport =
        if r.skipImport then activeChroots else .empty := by
    rw [BuildsLogic.chrootsOfNames, names]
    rfl
  have found : ∃ added, BuildsLogic.chrootsToAdd r.package activeChroots
      (if r.skipImport then activeChroots else .empty) r.packageChrootsSubset = some added ∧
      (added.chroots = [] ↔ r.package = none ∧ r.skipImport = false) := by
    unfold BuildsLogic.chrootsToAdd
    cases r.package with
    | none =>
      refine ⟨_, rfl, ?_⟩
      cases r.skipImport with
      | true => simpa using active
      | false => simp [ChrootSet.empty]
    | some package =>
      have own := package.chroots_ne_nil active
      -- What the package is built in is all offered to it.
      obtain ⟨offer, isOffer, within⟩ : ∃ offer : ChrootSet,
          (if (if r.skipImport then activeChroots else ChrootSet.empty).chroots = [] then
            package.chroots activeChroots
          else if r.skipImport then activeChroots else ChrootSet.empty) = offer ∧
            ∀ chroot ∈ (package.chroots activeChroots).chroots, chroot ∈ offer.chroots := by
        refine ⟨_, rfl, fun chroot member => ?_⟩
        cases r.skipImport with
        | true => simpa [active] using package.mem_chroots member
        | false => simpa [ChrootSet.empty] using member
      dsimp only
      rw [isOffer]
      obtain ⟨chroot, member⟩ := List.exists_mem_of_ne_nil _ own
      have kept : (if r.packageChrootsSubset then
          offer.filter fun chroot => decide (chroot ∈ (package.chroots activeChroots).chroots)
          else offer).chroots ≠ [] := by
        split
        · refine List.ne_nil_of_mem (List.mem_filter.mpr ⟨within chroot member, ?_⟩)
          exact decide_eq_true member
        · exact List.ne_nil_of_mem (within chroot member)
      rw [if_neg kept]
      exact ⟨_, rfl, by simp [kept]⟩
  obtain ⟨added, isAdded, none⟩ := found
  unfold BuildsLogic.createNew
  rw [if_neg active]
  simp only [offered, isAdded, Option.map_some]
  exact ⟨_, rfl, rfl, rfl, rfl, none⟩

/-- A new build has the chroots of its submission, skipped ones too. -/
theorem addedBuild_mockChroots (id : Nat) (batchId : Option Nat) (s : Submission) :
    (skipPreviouslySkipped s.skipped (addedBuild id batchId s)).buildChroots.map
      BuildChroot.mockChroot = s.chroots.chroots := by
  have same : ∀ c : BuildChroot, (if c.name ∈ s.skipped then { c with status := .skipped }
      else c).mockChroot = c.mockChroot := by
    intro c
    split <;> rfl
  simp only [skipPreviouslySkipped, addedBuild, List.map_map]
  refine (List.map_congr_left fun m _ => ?_).trans (List.map_id _)
  exact same _

/-- A new build whose submission is within a selection is within it. -/
theorem add_keepsSelection {selection : List MockChroot} {db' : Database} {s : Submission}
    (ids : db.IdsKnown)
    (within : s.chroots.chroots ≠ [] ∧ ∀ chroot ∈ s.chroots.chroots, chroot ∈ selection)
    (added : db.add cached s = some db') :
    db.nextBuildId < db'.nextBuildId ∧ db'.KeepsSelection selection db.nextBuildId := by
  have operated : db.operate (.add cached s) = some db' := added
  cases operate_operated operated with
  | add cached s grown batchId set =>
    have rebatched := setupBatch_rebatched set
    obtain ⟨batch, builds⟩ := rebatched.builds
    constructor
    · show db.nextBuildId < grown.nextBuildId + 1
      rw [rebatched.nextBuildId]
      exact Nat.lt_succ_self _
    · intro c inside known
      rcases List.mem_append.mp inside with old | new
      · rw [builds] at old
        obtain ⟨d, before, rfl⟩ := List.mem_map.mp old
        exact absurd known (Nat.ne_of_lt (ids.bounded d before))
      · have mocks := addedBuild_mockChroots grown.nextBuildId batchId s
        rw [← List.mem_singleton.mp new] at mocks
        constructor
        · intro noChroots
          rw [noChroots] at mocks
          exact within.1 mocks.symm
        · intro e listed
          have named : e.mockChroot ∈ s.chroots.chroots := mocks ▸ List.mem_map_of_mem listed
          exact within.2 _ named

end Request

/-- The chroots of builds. -/
def shownChroots (db : Database) : List (Nat × List String) :=
  db.builds.map fun b => (b.id, b.buildChroots.map BuildChroot.name)

/-- A build of everything but EPEL. -/
def withoutEpel : BuildRequest := { patterns := ⟨[], ["epel-*"]⟩ }

/-- A build of nothing at all. -/
def withoutAll : BuildRequest := { patterns := ⟨[], ["*"]⟩ }

end Database

end Copr
