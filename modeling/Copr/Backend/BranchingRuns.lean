import Copr.Backend.BranchedResults

/-!
# Runs of branching

What holds in every history of `Branching` without broken copies: whatever is in the chroot that
was branched is a complete copy of what is in the rawhide chroot, and a build with a `BuildChroot`
there has arrived or is listed by an action that has not succeeded. So when the actions have, the
newest build of each package has arrived, if the command selected it.
-/

namespace Copr

open Runs Tables

variable {br : Branch}

/-- A build goes on as another row of the table. -/
structure BranchedBuild.Continues (br : Branch) (b b' : BranchedBuild) : Prop where
  /-- The primary key stays. -/
  id : b'.id = b.id
  /-- The directory stays. -/
  coprDir : b'.coprDir = b.coprDir
  /-- The package stays. -/
  package : b'.package = b.package
  /-- A success in the rawhide chroot is final. -/
  succeeded : b.succeededIn br.rawhide = true → b'.succeededIn br.rawhide = true
  /-- It stays in the chroot that is branched. -/
  branched : b.hasChroot br.dest = true → b'.hasChroot br.dest = true

/-- An action is to copy a build. -/
def SentAction.Lists (a : SentAction) (b : BranchedBuild) : Prop :=
  ∃ data, a.content = .rawhideToRelease data ∧
    data.ownername = b.coprDir.copr.ownerName ∧ data.coprDir = b.coprDir.name ∧
    data.storage = b.coprDir.copr.storage ∧ b.targetDirName ∈ data.builds

/-- The results of a build in the rawhide chroot are in the chroot that is branched. -/
structure Arrived (br : Branch) (st : BranchStores) (b : BranchedBuild) : Prop where
  /-- There is a directory. -/
  directory : st.disk (b.path br.dest) b.targetDirName ≠ none
  /-- The units are in the repository, if the project is in Pulp. -/
  units : b.coprDir.copr.storage = .pulp → ∀ u ∈ st.content, u.buildId = b.id →
    u.chroot = br.rawhide.name → u ∈ st.repositories (b.path br.dest)

/-- A build has arrived, or one of some actions that have not succeeded lists it. -/
def Owed (br : Branch) (which : Nat → Prop) (s : Branching) (b : BranchedBuild) : Prop :=
  Arrived br s.stores b ∨ ∃ i a, which i ∧ s.db.actions[i]? = some a ∧
    a.result ≠ some .success ∧ a.Lists b

/-- An action of the command lists results of builds that succeeded in the rawhide chroot. -/
structure RawhideToReleaseData.Genuine (br : Branch) (s : Branching)
    (data : RawhideToReleaseData) : Prop where
  /-- The rawhide chroot is the one of the command. -/
  rawhide : data.rawhideChroot = br.rawhide.name
  /-- So is the other. -/
  dest : data.destChroot = br.dest.name
  /-- Each name is that of a build, which may have been deleted since. -/
  builds : ∀ name ∈ data.builds, ∃ id package, name = targetDir id package ∧
    id < s.nextBuildId ∧ ∀ b ∈ s.db.builds.rows, b.id = id →
      b.package = package ∧ data.ownername = b.coprDir.copr.ownerName ∧
        data.coprDir = b.coprDir.name ∧ data.storage = b.coprDir.copr.storage ∧
        b.succeededIn br.rawhide = true

/-- A directory in the chroot that is branched is a complete copy. -/
def Traced (br : Branch) (s : Branching) (path : ChrootPath) (name : String) (r' : ResultDir) :
    Prop :=
  ∃ id package, name = targetDir id package ∧ id < s.nextBuildId ∧
    ∀ b ∈ s.db.builds.rows, b.id = id → b.package = package → path = b.path br.dest →
      b.succeededIn br.rawhide = true ∧
        ∃ r, s.stores.disk (b.path br.rawhide) name = some r ∧ r.CopyOf r'

/-- What holds in every history. -/
structure Sound (br : Branch) (s : Branching) : Prop where
  /-- Ids come from the sequence. -/
  ids : ∀ b ∈ s.db.builds.rows, b.id < s.nextBuildId
  /-- Where a build succeeded there are results. -/
  stored : ∀ b ∈ s.db.builds.rows, ∀ m c, m.name ≠ br.dest.name → b.chroot m = some c →
    c.status = .succeeded → c.resultDir = b.targetDirName ∧
      s.stores.disk (b.path m) b.targetDirName ≠ none
  /-- Actions list results. -/
  actions : ∀ a ∈ s.db.actions, ∀ data, a.content = .rawhideToRelease data →
    data.Genuine br s
  /-- Copies are complete. -/
  copies : ∀ path name r', path.chroot = br.dest.name → s.stores.disk path name = some r' →
    Traced br s path name r'
  /-- A build is in the chroot that is branched because it succeeded in the rawhide chroot, and
  its results come. -/
  branched : ∀ b ∈ s.db.builds.rows, ∀ c, b.chroot br.dest = some c →
    c.status = .forked ∧ b.succeededIn br.rawhide = true ∧ Owed br (fun _ => True) s b

/-! ## What concerns one build -/

/-- What happens in the stores matters to a build in no other way than that its results are
copied. -/
structure Frame (br : Branch) (st st' : BranchStores) (b : BranchedBuild) : Prop where
  /-- The results in the rawhide chroot stay. -/
  source : st'.disk (b.path br.rawhide) b.targetDirName =
    st.disk (b.path br.rawhide) b.targetDirName
  /-- A copy stays. -/
  kept : st.disk (b.path br.dest) b.targetDirName ≠ none →
    st'.disk (b.path br.dest) b.targetDirName ≠ none
  /-- The units in the rawhide chroot stay. -/
  content : ∀ u ∈ st'.content, u.buildId = b.id → u.chroot = br.rawhide.name → u ∈ st.content
  /-- The units in the repository stay. -/
  repositories : ∀ u ∈ st.repositories (b.path br.dest), u.buildId = b.id →
    u ∈ st'.repositories (b.path br.dest)

section Build

variable {st st' : BranchStores} {b b' o : BranchedBuild} {m : MockChroot}

/-- Stores that have not changed keep what matters to a build. -/
theorem Frame.refl : Frame br st st b :=
  ⟨rfl, fun there => there, fun _ member _ _ => member, fun _ member _ => member⟩

/-- Results that have arrived stay when the stores keep what matters to the build. -/
theorem Arrived.frame (arrived : Arrived br st b) (frame : Frame br st st' b) :
    Arrived br st' b := by
  constructor
  · exact frame.kept arrived.directory
  · intro pulp u member ofBuild inRawhide
    apply frame.repositories u _ ofBuild
    exact arrived.units pulp u (frame.content u member ofBuild inRawhide) ofBuild inRawhide

/-- The directories of a build are named as before. -/
theorem BranchedBuild.Continues.targetDirName (continues : b.Continues br b') :
    b'.targetDirName = b.targetDirName := by
  unfold BranchedBuild.targetDirName
  rw [continues.id, continues.package]

/-- The directories of a build are where they were. -/
theorem BranchedBuild.Continues.path (continues : b.Continues br b') :
    b'.path m = b.path m := by
  unfold BranchedBuild.path
  rw [continues.coprDir]

/-- A build that has arrived has arrived in every row. -/
theorem Arrived.continues (arrived : Arrived br st b) (continues : b.Continues br b') :
    Arrived br st b' := by
  constructor
  · rw [continues.path, continues.targetDirName]
    exact arrived.directory
  · rw [continues.path, continues.coprDir, continues.id]
    exact arrived.units

/-- An action lists a build in every row. -/
theorem SentAction.Lists.continues {a : SentAction} (lists : a.Lists b)
    (continues : b.Continues br b') : a.Lists b' := by
  unfold SentAction.Lists
  rw [continues.coprDir, continues.targetDirName]
  exact lists

/-- What is stored is a directory. -/
theorem store_disk {results : ResultDir} {prns : List String} :
    (st.store o m results prns).disk =
      st.disk.put (o.path m) o.targetDirName (some results) := by
  unfold BranchStores.store
  cases o.coprDir.copr.storage <;> rfl

/-- Results in other chroots, and those of other builds, do not matter. -/
theorem store_frame {results : ResultDir} {prns : List String} (differ : m.name ≠ br.dest.name)
    (other : b.id = o.id → br.rawhide.name ≠ m.name) :
    Frame br st (st.store o m results prns) b := by
  constructor
  · rw [store_disk]
    by_cases here : b.path br.rawhide = o.path m
    · have names : br.rawhide.name = m.name := congrArg ChrootPath.chroot here
      rw [here]
      apply Disk.put_other_dir
      intro same
      exact other (targetDir_injective same) names
    · rw [Disk.put_other here]
  · rw [store_disk, Disk.put_other]
    · exact fun there => there
    · intro here
      exact differ (congrArg ChrootPath.chroot here).symm
  · intro u member ofBuild inRawhide
    unfold BranchStores.store at member
    cases storage : o.coprDir.copr.storage with
    | backend =>
      rw [storage] at member
      exact member
    | pulp =>
      rw [storage] at member
      cases List.mem_append.mp member with
      | inl old => exact old
      | inr new =>
        have ⟨prn, _, is⟩ := List.mem_map.mp new
        have same : b.id = o.id := by rw [← ofBuild, ← is]
        have names : br.rawhide.name = m.name := by rw [← inRawhide, ← is]
        exact absurd names (other same)
  · intro u member _
    unfold BranchStores.store
    cases o.coprDir.copr.storage with
    | backend => exact member
    | pulp => exact BranchStores.mem_addUnits.mpr (Or.inl member)

/-- The removal of another build does not matter. -/
theorem removeResults_frame {id : Nat} {package : String} {dir : StoredDir} (other : b.id ≠ id) :
    Frame br st (st.removeResults id package dir) b := by
  have disk : ∀ path, (st.removeResults id package dir).disk path b.targetDirName =
      st.disk path b.targetDirName := by
    intro path
    exact if_neg fun ⟨_, _, same⟩ => other (targetDir_injective same)
  constructor
  · exact disk _
  · rw [disk]
    exact fun there => there
  · exact fun _ member _ _ => member
  · intro u member ofBuild
    unfold BranchStores.removeResults
    show u ∈ if _ then _ else _
    split
    · exact List.mem_filter.mpr ⟨member, decide_eq_true (ofBuild ▸ other)⟩
    · exact member

/-- Copies do not take anything away. -/
theorem copying_frame {data : RawhideToReleaseData} (dest : data.destChroot = br.dest.name)
    (copying : data.Copying st st') : Frame br st st' b := by
  constructor
  · rw [copying.elsewhere]
    intro here
    have names : br.rawhide.name = data.destChroot := congrArg ChrootPath.chroot here
    exact br.differ (names.trans dest)
  · intro there
    by_cases here : b.path br.dest = data.destPath
    · rw [here] at there ⊢
      cases copying.copies b.targetDirName with
      | inl same =>
        rw [same]
        exact there
      | inr copied => exact absurd copied.2.1 there
    · rw [copying.elsewhere _ here]
      exact there
  · intro u member _ _
    rw [← copying.content]
    exact member
  · exact fun u member _ => copying.repositories _ u member

/-- A build is the same in the same row. -/
theorem BranchedBuild.Continues.refl : b.Continues br b :=
  ⟨rfl, rfl, rfl, fun holds => holds, fun holds => holds⟩

/-- Rows go on as rows that go on. -/
theorem BranchedBuild.Continues.trans (first : b.Continues br b') (second : b'.Continues br o) :
    b.Continues br o :=
  ⟨second.id.trans first.id, second.coprDir.trans first.coprDir,
    second.package.trans first.package, fun holds => second.succeeded (first.succeeded holds),
    fun holds => second.branched (first.branched holds)⟩

end Build

/-! ## What one event keeps -/

/-- The rows of the table go on, are deleted, or are new. -/
structure Evolves (br : Branch) (s t : Branching) : Prop where
  /-- The sequence goes on. -/
  next : s.nextBuildId ≤ t.nextBuildId
  /-- Every row was there, or has a new id. -/
  rows : ∀ b' ∈ t.db.builds.rows,
    (∃ b ∈ s.db.builds.rows, b.Continues br b') ∨ s.nextBuildId ≤ b'.id

/-- What an event keeps: the invariant, the rows, and what is owed to them. -/
structure Safe (br : Branch) (s t : Branching) : Prop where
  /-- The invariant. -/
  sound : Sound br t
  /-- The rows. -/
  evolves : Evolves br s t
  /-- A build still has arrived or will arrive. -/
  owed : ∀ which, ∀ b ∈ s.db.builds.rows, ∀ b' ∈ t.db.builds.rows, b.Continues br b' →
    b.succeededIn br.rawhide = true → Owed br which s b → Owed br which t b'

section Event

variable {s t u : Branching} {data : RawhideToReleaseData}

/-- The rows go on when none is added and the sequence stays. -/
theorem Evolves.of_rows (rows : ∀ b ∈ t.db.builds.rows, b ∈ s.db.builds.rows)
    (next : t.nextBuildId = s.nextBuildId) : Evolves br s t :=
  ⟨next.ge, fun b member => Or.inl ⟨b, rows b member, .refl⟩⟩

/-- A row with an old id is the row that was there. -/
theorem Evolves.row (evolves : Evolves br s t) (sound : Sound br s) {b b' : BranchedBuild}
    (before : b ∈ s.db.builds.rows) (after : b' ∈ t.db.builds.rows) (same : b'.id = b.id) :
    b.Continues br b' := by
  cases evolves.rows b' after with
  | inl old =>
    have ⟨o, there, continues⟩ := old
    rw [Table.eq_of_key before there (same.symm.trans continues.id)]
    exact continues
  | inr new =>
    have known := sound.ids b before
    omega

/-- Two safe events one after another are safe. -/
theorem Safe.trans (sound : Sound br s) (first : Safe br s t) (second : Safe br t u) :
    Safe br s u := by
  constructor
  · exact second.sound
  · constructor
    · exact first.evolves.next.trans second.evolves.next
    · intro o member
      cases second.evolves.rows o member with
      | inl old =>
        have ⟨b', there, later⟩ := old
        cases first.evolves.rows b' there with
        | inl older =>
          have ⟨b, here, earlier⟩ := older
          exact Or.inl ⟨b, here, earlier.trans later⟩
        | inr new => exact Or.inr (later.id.symm ▸ new)
      | inr new => exact Or.inr (first.evolves.next.trans new)
  · intro which b here o there continues succeeded owed
    cases second.evolves.rows o there with
    | inl old =>
      have ⟨b', middle, later⟩ := old
      have earlier : b.Continues br b' :=
        first.evolves.row sound here middle (later.id.symm.trans continues.id)
      exact second.owed which b' middle o there later (earlier.succeeded succeeded)
        (first.owed which b here b' middle earlier succeeded owed)
    | inr new =>
      have known := sound.ids b here
      have grown := first.evolves.next
      have same := continues.id
      omega

/-- Actions still list results of builds. -/
theorem RawhideToReleaseData.Genuine.evolve (genuine : data.Genuine br s)
    (evolves : Evolves br s t) : data.Genuine br t := by
  refine ⟨genuine.rawhide, genuine.dest, ?_⟩
  intro name listed
  have ⟨id, package, named, known, row⟩ := genuine.builds name listed
  refine ⟨id, package, named, Nat.lt_of_lt_of_le known evolves.next, ?_⟩
  intro b' there same
  cases evolves.rows b' there with
  | inl old =>
    have ⟨b, here, continues⟩ := old
    have ⟨ofPackage, owner, dir, storage, succeeded⟩ :=
      row b here (continues.id.symm.trans same)
    rw [continues.package, continues.coprDir]
    exact ⟨ofPackage, owner, dir, storage, continues.succeeded succeeded⟩
  | inr new => omega

/-- A complete copy stays one when the rows go on and the stores keep what matters to each build
that has succeeded. -/
theorem Traced.evolve {path : ChrootPath} {name : String} {r' : ResultDir}
    (traced : Traced br s path name r') (evolves : Evolves br s t)
    (frames : ∀ b ∈ s.db.builds.rows, ∀ b' ∈ t.db.builds.rows, b.Continues br b' →
      b.succeededIn br.rawhide = true → Frame br s.stores t.stores b) :
    Traced br t path name r' := by
  have ⟨id, package, named, known, row⟩ := traced
  refine ⟨id, package, named, Nat.lt_of_lt_of_le known evolves.next, ?_⟩
  intro b' there same ofPackage inside
  cases evolves.rows b' there with
  | inl old =>
    have ⟨b, here, continues⟩ := old
    have ids : b.id = id := continues.id.symm.trans same
    have packages : b.package = package := continues.package.symm.trans ofPackage
    have ⟨succeeded, r, source, copy⟩ :=
      row b here ids packages (inside.trans continues.path)
    refine ⟨continues.succeeded succeeded, r, ?_, copy⟩
    have is : name = b.targetDirName := by
      rw [named, BranchedBuild.targetDirName, ids, packages]
    rw [continues.path, is, (frames b here b' there continues succeeded).source, ← is]
    exact source
  | inr new => omega

/-- What is owed stays so, when actions stay what they are and do not succeed. -/
theorem Owed.evolve {which : Nat → Prop} {b b' : BranchedBuild} (owed : Owed br which s b)
    (continues : b.Continues br b') (frame : Frame br s.stores t.stores b)
    (actions : ∀ (i : Nat) (a : SentAction), s.db.actions[i]? = some a →
      a.result ≠ some .success → ∃ a', t.db.actions[i]? = some a' ∧ a'.content = a.content ∧
        a'.result ≠ some .success) :
    Owed br which t b' := by
  cases owed with
  | inl arrived => exact Or.inl ((arrived.frame frame).continues continues)
  | inr pending =>
    have ⟨i, a, chosen, found, unfinished, lists⟩ := pending
    have ⟨a', found', same, unfinished'⟩ := actions i a found unfinished
    refine Or.inr ⟨i, a', chosen, found', unfinished', ?_⟩
    have ⟨data, content, rest⟩ := lists.continues continues
    exact ⟨data, same.trans content, rest⟩

/-- An event is safe when the rows go on, the stores keep what matters to them, what is owed to a
build still is, and the invariant holds. -/
theorem Safe.intro (sound : Sound br s) (evolves : Evolves br s t)
    (frames : ∀ b ∈ s.db.builds.rows, ∀ b' ∈ t.db.builds.rows, b.Continues br b' →
      b.succeededIn br.rawhide = true → Frame br s.stores t.stores b)
    (owed : ∀ which, ∀ b ∈ s.db.builds.rows, ∀ b' ∈ t.db.builds.rows, b.Continues br b' →
      b.succeededIn br.rawhide = true → Owed br which s b → Owed br which t b')
    (ids : ∀ b ∈ t.db.builds.rows, b.id < t.nextBuildId)
    (stored : ∀ b ∈ t.db.builds.rows, ∀ m c, m.name ≠ br.dest.name → b.chroot m = some c →
      c.status = .succeeded → c.resultDir = b.targetDirName ∧
        t.stores.disk (b.path m) b.targetDirName ≠ none)
    (actions : ∀ a ∈ t.db.actions, ∀ data, a.content = .rawhideToRelease data →
      (∃ old ∈ s.db.actions, old.content = a.content) ∨ data.Genuine br t)
    (copies : ∀ path name r', path.chroot = br.dest.name →
      t.stores.disk path name = some r' →
        s.stores.disk path name = some r' ∨ Traced br t path name r')
    (branched : ∀ b' ∈ t.db.builds.rows, ∀ c, b'.chroot br.dest = some c →
      (∃ b ∈ s.db.builds.rows, b.Continues br b' ∧ b.chroot br.dest = some c) ∨
        c.status = .forked ∧ b'.succeededIn br.rawhide = true ∧
          Owed br (fun _ => True) t b') : Safe br s t := by
  refine ⟨⟨ids, stored, ?_, ?_, ?_⟩, evolves, owed⟩
  · intro a member data content
    cases actions a member data content with
    | inl old =>
      have ⟨before, there, same⟩ := old
      exact (sound.actions before there data (same.trans content)).evolve evolves
    | inr genuine => exact genuine
  · intro path name r' dest found
    cases copies path name r' dest found with
    | inl old => exact (sound.copies path name r' dest old).evolve evolves frames
    | inr traced => exact traced
  · intro b' there c found
    cases branched b' there c found with
    | inl old =>
      have ⟨b, here, continues, same⟩ := old
      have ⟨forked, succeeded, pending⟩ := sound.branched b here c same
      exact ⟨forked, continues.succeeded succeeded,
        owed _ b here b' there continues succeeded pending⟩
    | inr new => exact new

/-! ## The events of the frontend and of builders -/

/-- Nothing happens to the rows, the stores and the actions. -/
theorem Safe.of_same (sound : Sound br s) (rows : t.db.builds = s.db.builds)
    (next : t.nextBuildId = s.nextBuildId) (actions : t.db.actions = s.db.actions)
    (stores : t.stores = s.stores) : Safe br s t := by
  have evolves : Evolves br s t := Evolves.of_rows (fun _ => rows ▸ id) next
  apply Safe.intro sound evolves
  · intro b _ _ _ _ _
    rw [stores]
    exact Frame.refl
  · intro which b _ b' _ continues _ owed
    apply owed.evolve continues
    · rw [stores]
      exact Frame.refl
    · intro i a found unfinished
      exact ⟨a, actions ▸ found, rfl, unfinished⟩
  · rw [rows, next]
    exact sound.ids
  · rw [rows, stores]
    exact sound.stored
  · intro a member _ _
    exact Or.inl ⟨a, actions ▸ member, rfl⟩
  · intro path name r' _ found
    exact Or.inl (stores ▸ found)
  · intro b' there c found
    exact Or.inl ⟨b', rows ▸ there, .refl, found⟩

/-- Submitting a build with a new id, none of whose chroots has succeeded, is safe. -/
theorem submit_safe {b : BranchedBuild} (sound : Sound br s) (fresh : s.nextBuildId ≤ b.id)
    (untouched : ∀ c ∈ b.buildChroots, c.name ≠ br.dest.name ∧ c.status ≠ .succeeded) :
    Safe br s
      { s with
        db := { s.db with builds := s.db.builds.insert b }
        nextBuildId := b.id + 1 } := by
  have evolves : Evolves br s
      { s with
        db := { s.db with builds := s.db.builds.insert b }
        nextBuildId := b.id + 1 } := by
    constructor
    · show s.nextBuildId ≤ b.id + 1
      omega
    · intro b' member
      cases Table.mem_insert.mp member with
      | inl old => exact Or.inl ⟨b', old, .refl⟩
      | inr new => exact Or.inr (new.1 ▸ fresh)
  apply Safe.intro sound evolves
  · exact fun _ _ _ _ _ _ => Frame.refl
  · intro which o _ o' _ continues _ owed
    exact owed.evolve continues Frame.refl fun i a found unfinished =>
      ⟨a, found, rfl, unfinished⟩
  · intro b' member
    show b'.id < b.id + 1
    cases Table.mem_insert.mp member with
    | inl old =>
      have known := sound.ids b' old
      omega
    | inr new =>
      rw [new.1]
      exact Nat.lt_succ_self _
  · intro b' member m c different found succeeded
    cases Table.mem_insert.mp member with
    | inl old => exact sound.stored b' old m c different found succeeded
    | inr new =>
      rw [new.1, BranchedBuild.chroot_eq_some] at found
      exact absurd succeeded (untouched c found.1).2
  · intro a member _ _
    exact Or.inl ⟨a, member, rfl⟩
  · intro path name r' _ found
    exact Or.inl found
  · intro b' member c found
    cases Table.mem_insert.mp member with
    | inl old => exact Or.inl ⟨b', old, .refl, found⟩
    | inr new =>
      rw [new.1, BranchedBuild.chroot_eq_some] at found
      exact absurd found.2 (untouched c found.1).1

/-- A chroot in which results are still expected. -/
theorem openIn_spec {b : BranchedBuild} {m : MockChroot} (isOpen : b.openIn br m = true) :
    m.name ≠ br.dest.name ∧ ∃ c, b.chroot m = some c ∧ c.status ≠ .succeeded := by
  rw [BranchedBuild.openIn, Bool.and_eq_true, decide_eq_true_eq, Option.any_eq_true] at isOpen
  have ⟨differ, c, found, pending⟩ := isOpen
  exact ⟨differ, c, found, of_decide_eq_true pending⟩

/-- Mock chroots are looked up by their names. -/
theorem chroot_congr {b : BranchedBuild} {m n : MockChroot} (same : m.name = n.name) :
    b.chroot m = b.chroot n := by
  unfold BranchedBuild.chroot
  rw [same]

/-- A build that succeeded in the rawhide chroot is not open there. -/
theorem not_openIn_rawhide {b : BranchedBuild} {m : MockChroot}
    (succeeded : b.succeededIn br.rawhide = true) (isOpen : b.openIn br m = true) :
    br.rawhide.name ≠ m.name := by
  intro same
  have ⟨_, c, found, pending⟩ := openIn_spec isOpen
  have ⟨c', found', done⟩ := BranchedBuild.succeededIn_iff.mp succeeded
  rw [chroot_congr same, found] at found'
  rw [Option.some.inj found'] at pending
  exact pending done

/-- Storing results of a build in a chroot that is still open is safe. -/
theorem storeResults_safe {b : BranchedBuild} {m : MockChroot} {results : ResultDir}
    {prns : List String} (sound : Sound br s) (member : b ∈ s.db.builds.rows)
    (isOpen : b.openIn br m = true) :
    Safe br s { s with stores := s.stores.store b m results prns } := by
  have differ := (openIn_spec isOpen).1
  have frames : ∀ o ∈ s.db.builds.rows, o.succeededIn br.rawhide = true →
      Frame br s.stores (s.stores.store b m results prns) o := by
    intro o there succeeded
    apply store_frame differ
    intro same
    rw [Table.eq_of_key there member same] at succeeded
    exact not_openIn_rawhide succeeded isOpen
  apply Safe.intro sound
  · exact Evolves.of_rows (fun _ there => there) rfl
  · intro o there _ _ _ succeeded
    exact frames o there succeeded
  · intro which o there o' _ continues succeeded owed
    exact owed.evolve continues (frames o there succeeded) fun i a found unfinished =>
      ⟨a, found, rfl, unfinished⟩
  · exact sound.ids
  · intro o there n c different found succeeded
    have ⟨named, occupied⟩ := sound.stored o there n c different found succeeded
    refine ⟨named, ?_⟩
    show (s.stores.store b m results prns).disk _ _ ≠ none
    rw [store_disk]
    by_cases path : o.path n = b.path m
    · rw [path]
      by_cases name : o.targetDirName = b.targetDirName
      · rw [name, Disk.put_self]
        exact Option.some_ne_none _
      · rw [Disk.put_other_dir name, ← path]
        exact occupied
    · rw [Disk.put_other path]
      exact occupied
  · intro a there _ _
    exact Or.inl ⟨a, there, rfl⟩
  · intro path name r' dest found
    have other : path ≠ b.path m := by
      intro same
      rw [same] at dest
      exact differ dest
    change (s.stores.store b m results prns).disk path name = some r' at found
    rw [store_disk, Disk.put_other other] at found
    exact Or.inl found
  · intro o there c found
    exact Or.inl ⟨o, there, .refl, found⟩

/-- After a report exactly the reported chroot has the reported status. -/
theorem chroot_report {b : BranchedBuild} {m n : MockChroot} {status : StatusEnum} :
    (b.report m status).chroot n = (b.chroot n).map fun c =>
      if c.name = m.name then { c with status := status, resultDir := b.targetDirName }
      else c :=
  BranchedBuild.chroot_mapChroots

/-- Other chroots do not change with a report. -/
theorem chroot_report_other {b : BranchedBuild} {m n : MockChroot} {status : StatusEnum}
    (other : n.name ≠ m.name) : (b.report m status).chroot n = b.chroot n := by
  rw [chroot_report]
  cases found : b.chroot n with
  | none => rfl
  | some c =>
    have named := (BranchedBuild.chroot_eq_some.mp found).2
    rw [Option.map_some, if_neg (named ▸ other)]

/-- A build goes on after a report. -/
theorem report_continues {b : BranchedBuild} {m : MockChroot} {status : StatusEnum}
    (isOpen : b.openIn br m = true) : b.Continues br (b.report m status) := by
  refine ⟨rfl, rfl, rfl, ?_, ?_⟩
  · intro succeeded
    have other := not_openIn_rawhide succeeded isOpen
    rw [BranchedBuild.succeededIn_iff] at succeeded ⊢
    rw [chroot_report_other other]
    exact succeeded
  · intro branched
    rw [BranchedBuild.hasChroot_iff] at branched ⊢
    rw [chroot_report_other (openIn_spec isOpen).1.symm]
    exact branched

/-- A status is reported; a success when results are stored. -/
theorem report_safe {b : BranchedBuild} {m : MockChroot} {status : StatusEnum}
    (sound : Sound br s) (member : b ∈ s.db.builds.rows) (isOpen : b.openIn br m = true)
    (results : status = .succeeded → (s.stores.disk (b.path m) b.targetDirName).isSome) :
    Safe br s
      { s with
        db := { s.db with
          builds := s.db.builds.update (fun o => decide (o.id = b.id)) (·.report m status)
            fun _ => rfl } } := by
  have row : ∀ b' ∈ (s.db.builds.update (fun o => decide (o.id = b.id)) (·.report m status)
      fun _ => rfl).rows, b' ∈ s.db.builds.rows ∨ b' = b.report m status := by
    intro b' changed
    have ⟨o, there, is⟩ := Table.mem_update.mp changed
    split at is
    · rename_i same
      rw [Table.eq_of_key there member (of_decide_eq_true same)] at is
      exact Or.inr is.symm
    · exact Or.inl (is ▸ there)
  have evolves : Evolves br s
      { s with
        db := { s.db with
          builds := s.db.builds.update (fun o => decide (o.id = b.id)) (·.report m status)
            fun _ => rfl } } := by
    refine ⟨Nat.le_refl _, ?_⟩
    intro b' changed
    cases row b' changed with
    | inl old => exact Or.inl ⟨b', old, .refl⟩
    | inr new => exact Or.inl ⟨b, member, new ▸ report_continues isOpen⟩
  apply Safe.intro sound evolves
  · exact fun _ _ _ _ _ _ => Frame.refl
  · intro which o _ o' _ continues _ owed
    exact owed.evolve continues Frame.refl fun i a found unfinished =>
      ⟨a, found, rfl, unfinished⟩
  · intro b' changed
    cases row b' changed with
    | inl old => exact sound.ids b' old
    | inr new =>
      rw [new]
      exact sound.ids b member
  · intro b' changed n c different found succeeded
    cases row b' changed with
    | inl old => exact sound.stored b' old n c different found succeeded
    | inr new =>
      rw [new] at found ⊢
      by_cases same : n.name = m.name
      · rw [chroot_report] at found
        have ⟨c', found', is⟩ := Option.map_eq_some_iff.mp found
        have named := (BranchedBuild.chroot_eq_some.mp found').2
        rw [if_pos (named.trans same)] at is
        rw [← is] at succeeded ⊢
        have path : (b.report m status).path n = b.path m := by
          show b.path n = b.path m
          unfold BranchedBuild.path
          rw [same]
        rw [path]
        exact ⟨rfl, Option.isSome_iff_ne_none.mp (results succeeded)⟩
      · rw [chroot_report_other same] at found
        exact sound.stored b member n c different found succeeded
  · intro a there _ _
    exact Or.inl ⟨a, there, rfl⟩
  · intro path name r' _ found
    exact Or.inl found
  · intro b' changed c found
    cases row b' changed with
    | inl old => exact Or.inl ⟨b', old, .refl, found⟩
    | inr new =>
      rw [new, chroot_report_other (openIn_spec isOpen).1.symm] at found
      exact Or.inl ⟨b, member, new ▸ report_continues isOpen, found⟩

/-- Deleting a build is safe. -/
theorem deleteBuild_safe {id : Nat} (sound : Sound br s) :
    Safe br s
      { s with
        db := { s.db with builds := s.db.builds.remove fun b => decide (b.id = id) } } := by
  have row : ∀ b ∈ (s.db.builds.remove fun b => decide (b.id = id)).rows,
      b ∈ s.db.builds.rows := fun b kept => (Table.mem_remove.mp kept).1
  apply Safe.intro sound
  · exact Evolves.of_rows row rfl
  · exact fun _ _ _ _ _ _ => Frame.refl
  · intro which o _ o' _ continues _ owed
    exact owed.evolve continues Frame.refl fun i a found unfinished =>
      ⟨a, found, rfl, unfinished⟩
  · exact fun b kept => sound.ids b (row b kept)
  · exact fun b kept => sound.stored b (row b kept)
  · intro a there _ _
    exact Or.inl ⟨a, there, rfl⟩
  · intro path name r' _ found
    exact Or.inl found
  · intro b kept c found
    exact Or.inl ⟨b, row b kept, .refl, found⟩

/-- The results of a deleted build are removed. -/
theorem removeResults_safe {id : Nat} {package : String} {dir : StoredDir} (sound : Sound br s)
    (deleted : s.db.builds.find id = none) :
    Safe br s { s with stores := s.stores.removeResults id package dir } := by
  have others : ∀ b ∈ s.db.builds.rows, b.id ≠ id := Table.find_eq_none.mp deleted
  apply Safe.intro sound
  · exact Evolves.of_rows (fun _ there => there) rfl
  · intro b there _ _ _ _
    exact removeResults_frame (others b there)
  · intro which b there b' _ continues _ owed
    exact owed.evolve continues (removeResults_frame (others b there)) fun i a found unfinished =>
      ⟨a, found, rfl, unfinished⟩
  · exact sound.ids
  · intro b there n c different found succeeded
    have ⟨named, occupied⟩ := sound.stored b there n c different found succeeded
    refine ⟨named, ?_⟩
    show (if _ then none else _) ≠ none
    rw [if_neg fun ⟨_, _, same⟩ => others b there (targetDir_injective same)]
    exact occupied
  · intro a there _ _
    exact Or.inl ⟨a, there, rfl⟩
  · intro path name r' _ found
    change (if _ then none else _) = some r' at found
    split at found
    · cases found
    · exact Or.inl found
  · intro b there c found
    exact Or.inl ⟨b, there, .refl, found⟩

/-! ## The command -/

/-- A build that succeeded in the rawhide chroot goes on when it is branched. -/
theorem branch_continues {b : BranchedBuild} (succeeded : b.succeededIn br.rawhide = true) :
    b.Continues br (b.branch br) := by
  have ⟨rbc, found, _⟩ := BranchedBuild.succeededIn_iff.mp succeeded
  refine ⟨BranchDatabase.branch_id br b, BranchedBuild.branch_same.1,
    BranchedBuild.branch_same.2, ?_, ?_⟩
  · intro _
    rw [BranchedBuild.succeededIn_iff, BranchedBuild.chroot_branch_other br.differ]
    exact BranchedBuild.succeededIn_iff.mp succeeded
  · intro branched
    have ⟨c, there⟩ := BranchedBuild.hasChroot_iff.mp branched
    rw [BranchedBuild.hasChroot_iff, BranchedBuild.chroot_branch_dest found, there]
    exact ⟨c, rfl⟩

section Directory

variable {copr : BranchedCopr} {dirname : String} {retryForked : Bool}

/-- What an action of the command lists are results. -/
theorem branchData_genuine (sound : Sound br s) :
    (s.db.branchData br retryForked copr dirname).Genuine br s := by
  refine ⟨rfl, rfl, ?_⟩
  intro name listed
  have ⟨b, selected, ofBuild⟩ := BranchDatabase.mem_branchData.mp listed
  have ⟨member, inside, succeeded, _⟩ := BranchDatabase.mem_buildsToFork.mp selected
  have ⟨rbc, found, done⟩ := BranchedBuild.succeededIn_iff.mp succeeded
  have named := (BranchedBuild.mem_listed found).mp ofBuild
  have stored := sound.stored b member br.rawhide rbc br.differ found done
  refine ⟨b.id, b.package, named.2.2.trans stored.1, sound.ids b member, ?_⟩
  intro o there same
  rw [Table.eq_of_key there member same, inside]
  exact ⟨rfl, rfl, rfl, rfl, succeeded⟩

/-- A build to fork is listed, if it is new in the chroot or all are. -/
theorem listed_of_selected (sound : Sound br s) {b : BranchedBuild}
    (selected : b ∈ s.db.buildsToFork ⟨copr.copr, dirname⟩ br.rawhide)
    (wanted : b.hasChroot br.dest = true → retryForked = true) :
    ∃ i a, s.db.actions.length ≤ i ∧
      (BranchDatabase.processDir br retryForked copr s.db dirname).actions[i]? = some a ∧
      a.result ≠ some .success ∧ a.Lists b := by
  have ⟨member, inside, succeeded, _⟩ := BranchDatabase.mem_buildsToFork.mp selected
  have ⟨rbc, found, done⟩ := BranchedBuild.succeededIn_iff.mp succeeded
  have stored := sound.stored b member br.rawhide rbc br.differ found done
  have named : rbc.resultDir ≠ "" := by
    rw [stored.1]
    exact targetDir_ne_empty b.id b.package
  have listed : b.targetDirName ∈ (s.db.branchData br retryForked copr dirname).builds := by
    apply BranchDatabase.mem_branchData.mpr
    exact ⟨b, selected, (BranchedBuild.mem_listed found).mpr ⟨wanted, named, stored.1.symm⟩⟩
  have ⟨sent, actions, _, _, one⟩ := BranchDatabase.processDir_actions br retryForked copr
    s.db dirname
  have ⟨k, at_⟩ := List.mem_iff_getElem?.mp (one (List.ne_nil_of_mem listed))
  refine ⟨s.db.actions.length + k,
    ⟨.rawhideToRelease (s.db.branchData br retryForked copr dirname), none⟩,
    Nat.le_add_right _ _, ?_, ?_, ?_⟩
  · rw [actions, List.getElem?_append_right (Nat.le_add_right _ _), Nat.add_sub_cancel_left]
    exact at_
  · exact fun success => by cases success
  · refine ⟨_, rfl, ?_, ?_, ?_, listed⟩ <;> rw [inside] <;> rfl

/-- Actions that were sent stay when a directory is processed. -/
theorem getElem?_processDir {i : Nat} {a : SentAction} (found : s.db.actions[i]? = some a) :
    (BranchDatabase.processDir br retryForked copr s.db dirname).actions[i]? = some a := by
  have ⟨sent, actions, _⟩ := BranchDatabase.processDir_actions br retryForked copr
    s.db dirname
  have ⟨inside, _⟩ := List.getElem?_eq_some_iff.mp found
  rw [actions, List.getElem?_append_left inside]
  exact found

/-- Branching the builds of one directory is safe. -/
theorem processDir_safe (sound : Sound br s) :
    Safe br s { s with db := BranchDatabase.processDir br retryForked copr s.db dirname } := by
  have row : ∀ b' ∈ (BranchDatabase.processDir br retryForked copr s.db dirname).builds.rows,
      ∃ b ∈ s.db.builds.rows, b.Continues br b' ∧ (b' = b ∨
        b ∈ s.db.buildsToFork ⟨copr.copr, dirname⟩ br.rawhide ∧ b' = b.branch br) := by
    intro b' changed
    have ⟨b, member, either⟩ := BranchDatabase.mem_processDir_builds.mp changed
    cases either with
    | inl branched =>
      have succeeded := (BranchDatabase.mem_buildsToFork.mp branched.1).2.2.1
      exact ⟨b, member, branched.2 ▸ branch_continues succeeded,
        Or.inr ⟨branched.1, branched.2.symm⟩⟩
    | inr same => exact ⟨b, member, same.2 ▸ .refl, Or.inl same.2.symm⟩
  have evolves : Evolves br s
      { s with db := BranchDatabase.processDir br retryForked copr s.db dirname } := by
    refine ⟨Nat.le_refl _, ?_⟩
    intro b' changed
    have ⟨b, member, continues, _⟩ := row b' changed
    exact Or.inl ⟨b, member, continues⟩
  have owed : ∀ which b b', b.Continues br b' → Owed br which s b →
      Owed br which { s with db := BranchDatabase.processDir br retryForked copr s.db dirname }
        b' := by
    intro which b b' continues owed
    exact owed.evolve continues Frame.refl fun i a found unfinished =>
      ⟨a, getElem?_processDir found, rfl, unfinished⟩
  apply Safe.intro sound evolves
  · exact fun _ _ _ _ _ _ => Frame.refl
  · exact fun which b _ b' _ continues _ => owed which b b' continues
  · intro b' changed
    have ⟨b, member, continues, _⟩ := row b' changed
    rw [continues.id]
    exact sound.ids b member
  · intro b' changed m c different found succeeded
    have ⟨b, member, continues, either⟩ := row b' changed
    have same : b'.chroot m = b.chroot m := by
      cases either with
      | inl same => rw [same]
      | inr branched => rw [branched.2, BranchedBuild.chroot_branch_other different]
    rw [continues.targetDirName, continues.path]
    exact sound.stored b member m c different (same.symm.trans found) succeeded
  · intro a there data content
    have ⟨sent, actions, _, genuine, _⟩ := BranchDatabase.processDir_actions br
      retryForked copr s.db dirname
    change a ∈ (BranchDatabase.processDir br retryForked copr s.db dirname).actions at there
    rw [actions] at there
    cases List.mem_append.mp there with
    | inl old => exact Or.inl ⟨a, old, rfl⟩
    | inr new =>
      rw [genuine a new data content]
      exact Or.inr ((branchData_genuine sound).evolve evolves)
  · intro path name r' _ found
    exact Or.inl found
  · intro b' changed c found
    have ⟨b, member, continues, either⟩ := row b' changed
    cases either with
    | inl same => exact Or.inl ⟨b, member, continues, same ▸ found⟩
    | inr branched =>
      have succeeded := (BranchDatabase.mem_buildsToFork.mp branched.1).2.2.1
      have ⟨rbc, source, _⟩ := BranchedBuild.succeededIn_iff.mp succeeded
      rw [branched.2, BranchedBuild.chroot_branch_dest source] at found
      cases there : b.chroot br.dest with
      | some old =>
        rw [there] at found
        exact Or.inl ⟨b, member, continues, found ▸ there⟩
      | none =>
        rw [there] at found
        have absent : b.hasChroot br.dest = true → retryForked = true := by
          intro has
          have ⟨c, is⟩ := BranchedBuild.hasChroot_iff.mp has
          rw [there] at is
          cases is
        have ⟨i, a, _, sent, unfinished, lists⟩ := listed_of_selected sound branched.1 absent
        refine Or.inr ⟨?_, continues.succeeded succeeded, Or.inr ⟨i, a, trivial, sent,
          unfinished, lists.continues continues⟩⟩
        rw [← Option.some.inj found]
        rfl

end Directory

/-- Running the command, with or without forks tried again, is safe. -/
theorem command_safe {retryForked : Bool} (sound : Sound br s) :
    Safe br s
      { s with db := BranchDatabase.rawhideToReleaseFunction br retryForked s.db } := by
  apply BranchDatabase.rawhideToReleaseFunction_keeps
    (P := fun db => Safe br s { s with db := db })
  · intro db rows safe
    exact Safe.trans sound safe (Safe.of_same safe.sound rfl rfl rfl rfl)
  · intro db copr dirname safe
    exact Safe.trans sound safe
      (processDir_safe (s := { s with db := db }) safe.sound)
  · exact Safe.of_same sound rfl rfl rfl rfl

/-! ## The backend -/

/-- The two directories of an action differ. -/
theorem RawhideToReleaseData.Genuine.differ (genuine : data.Genuine br s) :
    data.rawhidePath ≠ data.destPath := by
  intro same
  have names : data.rawhideChroot = data.destChroot := congrArg ChrootPath.chroot same
  rw [genuine.rawhide, genuine.dest] at names
  exact br.differ names

/-- What an action says of a build that it lists. -/
theorem RawhideToReleaseData.Genuine.listed (genuine : data.Genuine br s) {b : BranchedBuild}
    (member : b ∈ s.db.builds.rows) (listed : b.targetDirName ∈ data.builds) :
    data.rawhidePath = b.path br.rawhide ∧ data.destPath = b.path br.dest ∧
      data.storage = b.coprDir.copr.storage ∧ b.succeededIn br.rawhide = true := by
  have ⟨id, package, named, _, row⟩ := genuine.builds b.targetDirName listed
  have ⟨_, owner, dir, storage, succeeded⟩ := row b member (targetDir_injective named)
  refine ⟨?_, ?_, storage, succeeded⟩
  · rw [rawhidePath, BranchedBuild.path, owner, dir, genuine.rawhide]
  · rw [destPath, BranchedBuild.path, owner, dir, genuine.dest]

/-- What arrives of the builds that an action lists are the results of the builds. -/
theorem arrived_of_arrives (sound : Sound br s) (genuine : data.Genuine br s)
    {b : BranchedBuild} (member : b ∈ s.db.builds.rows)
    (listed : b.targetDirName ∈ data.builds) {stores : BranchStores}
    (copying : data.Copying s.stores stores)
    (arrives : data.Arrives s.stores stores b.targetDirName) : Arrived br stores b := by
  have ⟨rawhide, dest, storage, succeeded⟩ := genuine.listed member listed
  have ⟨rbc, found, done⟩ := BranchedBuild.succeededIn_iff.mp succeeded
  have ⟨_, occupied⟩ := sound.stored b member br.rawhide rbc br.differ found done
  constructor
  · rw [← dest]
    apply arrives.directory
    rw [rawhide]
    exact occupied
  · intro pulp u there ofBuild inRawhide
    rw [← dest]
    apply arrives.units (storage.trans pulp) b.id (leadingId_targetDir b.id b.package) u
    · rw [← copying.content]
      exact there
    · exact ofBuild
    · exact inRawhide.trans genuine.rawhide.symm

/-- An action is run: copies are made, and if it succeeds what it lists arrives. -/
theorem process_safe {i : Nat} {a : SentAction} {stores : BranchStores}
    (result : Option BackendResultEnum) (sound : Sound br s) (found : s.db.actions[i]? = some a)
    (idle : (∀ data, a.content ≠ .rawhideToRelease data) → stores = s.stores)
    (copying : ∀ data, a.content = .rawhideToRelease data → data.Copying s.stores stores)
    (arrives : result = some .success → ∀ data, a.content = .rawhideToRelease data →
      ∀ name ∈ data.builds, data.Arrives s.stores stores name) :
    Safe br s
      { s with
        stores := stores
        db := { s.db with
          actions := s.db.actions.set i { a with result := result } } } := by
  have member : a ∈ s.db.actions := List.mem_of_getElem? found
  have frames : ∀ b, Frame br s.stores stores b := by
    intro b
    by_cases copies : ∃ data, a.content = .rawhideToRelease data
    · have ⟨data, content⟩ := copies
      exact copying_frame (sound.actions a member data content).dest (copying data content)
    · rw [idle fun data content => copies ⟨data, content⟩]
      exact Frame.refl
  have others : ∀ path name, path.chroot ≠ br.dest.name →
      stores.disk path name = s.stores.disk path name := by
    intro path name other
    by_cases copies : ∃ data, a.content = .rawhideToRelease data
    · have ⟨data, content⟩ := copies
      rw [(copying data content).elsewhere]
      intro same
      rw [same] at other
      exact other (sound.actions a member data content).dest
    · rw [idle fun data content => copies ⟨data, content⟩]
  have evolves : Evolves br s
      { s with
        stores := stores
        db := { s.db with
          actions := s.db.actions.set i { a with result := result } } } :=
    Evolves.of_rows (fun _ there => there) rfl
  apply Safe.intro sound evolves
  · exact fun b _ _ _ _ _ => frames b
  · intro which b there b' there' continues _ owed
    rcases owed with arrived | ⟨j, pending, chosen, at_, unfinished, lists⟩
    · exact Or.inl ((arrived.frame (frames b)).continues continues)
    by_cases here : j = i
    · subst here
      obtain rfl := Option.some.inj (found.symm.trans at_)
      have ⟨data, content, owner, dir, storage, listed⟩ := lists
      by_cases success : result = some .success
      · have genuine := sound.actions a member data content
        exact Or.inl ((arrived_of_arrives sound genuine there listed (copying data content)
          (arrives success data content _ listed)).continues continues)
      · refine Or.inr ⟨j, { a with result := result }, chosen, ?_, success,
          lists.continues continues⟩
        show (s.db.actions.set j _)[j]? = _
        have ⟨inside, _⟩ := List.getElem?_eq_some_iff.mp found
        rw [List.getElem?_set_self inside]
    · refine Or.inr ⟨j, pending, chosen, ?_, unfinished, lists.continues continues⟩
      show (s.db.actions.set i _)[j]? = _
      rw [List.getElem?_set_ne (Ne.symm here)]
      exact at_
  · exact sound.ids
  · intro b there m c different found succeeded
    have ⟨named, occupied⟩ := sound.stored b there m c different found succeeded
    refine ⟨named, ?_⟩
    show stores.disk _ _ ≠ none
    rw [others (b.path m) b.targetDirName different]
    exact occupied
  · intro act there _ _
    cases List.mem_or_eq_of_mem_set there with
    | inl old => exact Or.inl ⟨act, old, rfl⟩
    | inr same =>
      rw [same]
      exact Or.inl ⟨a, member, rfl⟩
  · intro path name r' dest there
    change stores.disk path name = some r' at there
    by_cases copies : ∃ data, a.content = .rawhideToRelease data
    · have ⟨data, content⟩ := copies
      have genuine := sound.actions a member data content
      by_cases here : path = data.destPath
      · subst here
        cases (copying data content).copies name with
        | inl same => exact Or.inl (same.symm.trans there)
        | inr copied =>
          have ⟨listed, _, r, _, source, made, copy⟩ := copied
          have ⟨id, package, named, known, row⟩ := genuine.builds name listed
          refine Or.inr ⟨id, package, named, known, ?_⟩
          intro b inside same ofPackage _
          have is : name = b.targetDirName := by
            rw [named, BranchedBuild.targetDirName, same, ofPackage]
          have ⟨rawhide, _, _, succeeded⟩ := genuine.listed inside (is ▸ listed)
          obtain rfl := Option.some.inj (there.symm.trans made)
          refine ⟨succeeded, r, ?_, copy⟩
          show stores.disk _ _ = _
          rw [others (b.path br.rawhide) name br.differ, ← rawhide]
          exact source
      · rw [(copying data content).elsewhere path here] at there
        exact Or.inl there
    · rw [idle fun data content => copies ⟨data, content⟩] at there
      exact Or.inl there
  · intro b there c found
    exact Or.inl ⟨b, there, .refl, found⟩

/-- What a successful run of an action changes. -/
theorem run_spec {a : SentAction} {stores : BranchStores} (sound : Sound br s)
    (member : a ∈ s.db.actions) (ran : a.run s.stores = some stores) :
    ((∀ data, a.content ≠ .rawhideToRelease data) → stores = s.stores) ∧
    ∀ data, a.content = .rawhideToRelease data → data.Copying s.stores stores ∧
      ∀ name ∈ data.builds, data.Arrives s.stores stores name := by
  unfold SentAction.run at ran
  split at ran
  · rename_i content
    refine ⟨fun _ => (Option.some.inj ran).symm, ?_⟩
    intro data other
    rw [content] at other
    cases other
  · rename_i data content
    refine ⟨fun none => absurd content (none data), ?_⟩
    intro data' same
    have genuine := sound.actions a member data content
    obtain rfl : data = data' :=
      BranchingAction.rawhideToRelease.inj (content.symm.trans same)
    have all : ∀ name ∈ data.builds, name ∈ data.builds := fun _ listed => listed
    refine ⟨RawhideToReleaseData.forkBuilds_copying genuine.differ all ran, ?_⟩
    intro name listed
    exact RawhideToReleaseData.forkBuilds_arrives genuine.differ all ran listed

/-- What a run of an action changes that breaks off, but not within a directory. -/
theorem runPart_spec {a : SentAction} {i done : Nat} {left : Option ResultDir} {reported : Bool}
    {stores : BranchStores} (sound : Sound br s) (found : s.db.actions[i]? = some a)
    (whole : s.wholeCopies (.process i (.broken done left reported)) = true)
    (ran : a.runPart done left s.stores = some stores) :
    ((∀ data, a.content ≠ .rawhideToRelease data) → stores = s.stores) ∧
    ∀ data, a.content = .rawhideToRelease data → data.Copying s.stores stores := by
  have member : a ∈ s.db.actions := List.mem_of_getElem? found
  unfold SentAction.runPart at ran
  split at ran
  · rename_i content
    refine ⟨fun _ => (Option.some.inj ran).symm, ?_⟩
    intro data other
    rw [content] at other
    cases other
  · rename_i data content
    refine ⟨fun none => absurd content (none data), ?_⟩
    intro data' same
    obtain rfl : data = data' :=
      BranchingAction.rawhideToRelease.inj (content.symm.trans same)
    have genuine := sound.actions a member data content
    have ⟨part, forked, is⟩ := Option.map_eq_some_iff.mp ran
    have first : data.Copying s.stores part :=
      RawhideToReleaseData.forkBuilds_copying genuine.differ
        (fun name listed => List.mem_of_mem_take listed) forked
    split at is
    · rename_i build next
      rw [← is]
      apply first.trans genuine.differ
      apply RawhideToReleaseData.leave_copying (List.mem_of_getElem? next)
      intro results is r source
      subst is
      rw [first.elsewhere _ genuine.differ] at source
      have complete : results = r ∨ results = r.fromChroot data.rawhideChroot := by
        simp only [Branching.wholeCopies, found] at whole
        have shape : a = ⟨.rawhideToRelease data, a.result⟩ := by rw [← content]
        rw [shape] at whole
        simpa [next, source] using whole
      cases complete with
      | inl same =>
        rw [same]
        exact ⟨rfl, List.prefix_rfl⟩
      | inr same =>
        rw [same]
        exact r.copyOf_fromChroot _
    · rw [← is]
      exact first

/-- Every event keeps what holds, unless it breaks a copy off. -/
theorem step_safe {e : BranchingEvent} (sound : Sound br s) (whole : s.wholeCopies e = true)
    (stepped : Branching.step br s e = some t) : Safe br s t := by
  cases e with
  | editCoprs coprs =>
    rw [← Option.some.inj stepped]
    exact Safe.of_same sound rfl rfl rfl rfl
  | submit b =>
    simp only [Branching.step] at stepped
    split at stepped
    · rename_i allowed
      rw [← Option.some.inj stepped]
      exact submit_safe sound allowed.1 allowed.2
    · cases stepped
  | store id chroot results prns =>
    simp only [Branching.step] at stepped
    split at stepped
    · rename_i b found
      split at stepped
      · rename_i isOpen
        rw [← Option.some.inj stepped]
        exact storeResults_safe sound (Table.find_eq_some.mp found).1 isOpen
      · cases stepped
    · cases stepped
  | report id chroot status =>
    simp only [Branching.step] at stepped
    split at stepped
    · rename_i b found
      obtain ⟨member, known⟩ := Table.find_eq_some.mp found
      subst known
      split at stepped
      · rename_i allowed
        rw [← Option.some.inj stepped]
        exact report_safe sound member allowed.1 allowed.2
      · cases stepped
    · cases stepped
  | deleteBuild id =>
    rw [← Option.some.inj stepped]
    exact deleteBuild_safe sound
  | removeResults id package dir =>
    simp only [Branching.step] at stepped
    split at stepped
    · rename_i deleted
      rw [← Option.some.inj stepped]
      exact removeResults_safe sound (Option.isNone_iff_eq_none.mp deleted)
    · cases stepped
  | command retryForked =>
    rw [← Option.some.inj stepped]
    exact command_safe sound
  | process index outcome =>
    simp only [Branching.step] at stepped
    split at stepped
    · rename_i a found
      split at stepped
      · cases outcome with
        | finished =>
          obtain ⟨stores, ran, is⟩ := Option.map_eq_some_iff.mp stepped
          obtain ⟨idle, copies⟩ := run_spec sound (List.mem_of_getElem? found) ran
          rw [← is]
          exact process_safe _ sound found idle (fun data content => (copies data content).1)
            fun _ data content => (copies data content).2
        | broken done left reported =>
          obtain ⟨stores, ran, is⟩ := Option.map_eq_some_iff.mp stepped
          obtain ⟨idle, copies⟩ := runPart_spec sound found whole ran
          rw [← is]
          cases reported with
          | true =>
            exact process_safe _ sound found idle copies fun success => by cases success
          | false =>
            rename_i waits
            obtain ⟨inside, is⟩ := List.getElem?_eq_some_iff.mp found
            have same : s.db.actions.set index { a with result := none } = s.db.actions := by
              rw [← waits, ← is]
              exact List.set_getElem_self inside
            have safe := process_safe none sound found idle copies
              fun success => by cases success
            rw [same] at safe
            exact safe
      · cases stepped
    · cases stepped

end Event

end Copr
