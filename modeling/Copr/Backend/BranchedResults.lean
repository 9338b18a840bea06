import Copr.Lib.Runs
import Copr.Frontend.Branching
import Copr.Backend.ProjectActions

/-!
# Branched results

`RawhideToRelease` of `copr_backend/actions.py` copies the results of builds into the chroot that
is branched, on the disk of the backend and in Pulp. Together with the command that sends the
actions, and with what happens to projects and to builds in other chroots, this is a system whose
histories decide whether the newest results arrive. They do when the newest build of a package
succeeded and no copy of a directory breaks off: a build that was forked into the project is never
selected, and a directory that was copied in part is never completed.
-/

namespace Copr

open Runs Tables

/-- The directory of a build in a chroot. -/
structure ResultDir where
  /-- All files but `build.info`, with their contents. -/
  files : List (String × String)
  /-- The lines of `build.info`. -/
  buildInfo : List String
  deriving DecidableEq, Repr

/-- The line that the `build.info` of a copy ends with. -/
def ResultDir.fromChroot (r : ResultDir) (rawhide : String) : ResultDir :=
  { r with buildInfo := r.buildInfo ++ ["from_chroot=" ++ rawhide] }

/-- A complete copy; its `build.info` may have more lines. -/
structure ResultDir.CopyOf (source copy : ResultDir) : Prop where
  /-- The files are the same. -/
  files : copy.files = source.files
  /-- Nothing is missing in `build.info`. -/
  buildInfo : source.buildInfo <+: copy.buildInfo

/-- A content unit in Pulp. -/
structure ContentUnit where
  /-- `prn`. -/
  prn : String
  /-- The label `build_id`. -/
  buildId : Nat
  /-- The label `chroot`. -/
  chroot : String
  deriving DecidableEq, Repr

/-- Where results are stored. -/
structure BranchStores where
  /-- The directories of builds on the backend. -/
  disk : Disk ResultDir
  /-- The content units in Pulp. -/
  content : List ContentUnit
  /-- The content of the repositories in Pulp; nothing for one that does not exist. -/
  repositories : ChrootPath → List ContentUnit

namespace BranchStores

/-- Units are added to a repository. -/
def addUnits (s : BranchStores) (path : ChrootPath) (units : List ContentUnit) : BranchStores :=
  { s with repositories := Function.update s.repositories path (s.repositories path ++ units) }

/-- What is in the repositories after units were added to one. -/
theorem mem_addUnits {s : BranchStores} {path other : ChrootPath} {units : List ContentUnit}
    {u : ContentUnit} : u ∈ (s.addUnits path units).repositories other ↔
      u ∈ s.repositories other ∨ other = path ∧ u ∈ units := by
  unfold addUnits
  by_cases same : other = path
  · subst same
    simp
  · simp [same]

end BranchStores

/-! ## The action -/

namespace RawhideToReleaseData

variable (data : RawhideToReleaseData)

/-- The directory of the rawhide chroot. -/
def rawhidePath : ChrootPath := ⟨data.ownername, data.coprDir, data.rawhideChroot⟩

/-- `chrootdir`. -/
def destPath : ChrootPath := ⟨data.ownername, data.coprDir, data.destChroot⟩

/-- `copytree` and the line in `build.info`, for a build that is there and was not copied. -/
def copyBuild (build : String) (s : BranchStores) : BranchStores :=
  match s.disk data.rawhidePath build, s.disk data.destPath build with
  | some results, none =>
    { s with
      disk := s.disk.put data.destPath build (some (results.fromChroot data.rawhideChroot)) }
  | _, _ => s

/-- `get_content` and `create_repository_version`, for a project in Pulp; none where the id of the
build cannot be read. -/
def addToRepository (build : String) (s : BranchStores) : Option BranchStores :=
  match data.storage with
  | .backend => some s
  | .pulp =>
    (leadingId build).map fun id =>
      s.addUnits data.destPath (s.content.filter fun u =>
        decide (u.buildId = id ∧ u.chroot = data.rawhideChroot))

/-- The loop over the builds. -/
def forkBuilds : List String → BranchStores → Option BranchStores
  | [], s => some s
  | build :: rest, s =>
    (data.addToRepository build (data.copyBuild build s)).bind (forkBuilds rest)

/-- What a copy leaves that breaks off. -/
def leave (build : String) (left : Option ResultDir) (s : BranchStores) : BranchStores :=
  match s.disk data.rawhidePath build, s.disk data.destPath build, left with
  | some _, none, some part => { s with disk := s.disk.put data.destPath build (some part) }
  | _, _, _ => s

end RawhideToReleaseData

/-- What becomes of a run of an action. -/
inductive Outcome
  /-- It succeeds. -/
  | finished
  /-- It breaks off after some builds, maybe with a part of the next one copied; the failure is
  reported, or else the action still waits. -/
  | broken (done : Nat) (left : Option ResultDir) (reported : Bool)
  deriving DecidableEq, Repr

/-- A run that succeeds; `createrepo` stores no results. -/
def SentAction.run (a : SentAction) (s : BranchStores) : Option BranchStores :=
  match a.content with
  | .createrepo .. => some s
  | .rawhideToRelease data => data.forkBuilds data.builds s

/-- A run that breaks off. -/
def SentAction.runPart (a : SentAction) (done : Nat) (left : Option ResultDir)
    (s : BranchStores) : Option BranchStores :=
  match a.content with
  | .createrepo .. => some s
  | .rawhideToRelease data =>
    (data.forkBuilds (data.builds.take done) s).map fun part =>
      match data.builds[done]? with
      | some build => data.leave build left part
      | none => part

/-! ## The system -/

/-- The frontend, the backend and Pulp. -/
structure Branching where
  /-- The tables of the frontend. -/
  db : BranchDatabase
  /-- The next value of the sequence of build ids. -/
  nextBuildId : Nat
  /-- The results. -/
  stores : BranchStores

/-- What can happen. -/
inductive BranchingEvent
  /-- Projects and directories are created, edited and deleted. -/
  | editCoprs (coprs : List BranchedCopr)
  /-- A build is imported, or forked into the project. -/
  | submit (b : BranchedBuild)
  /-- Results of a build are stored for a chroot, with the units of its packages in Pulp. -/
  | store (id : Nat) (chroot : MockChroot) (results : ResultDir) (prns : List String)
  /-- The status of a build in a chroot is reported. -/
  | report (id : Nat) (chroot : MockChroot) (status : StatusEnum)
  /-- A build is deleted in the frontend. -/
  | deleteBuild (id : Nat)
  /-- The results of a deleted build are removed. -/
  | removeResults (id : Nat) (package : String) (dir : StoredDir)
  /-- The command is run. -/
  | command (retryForked : Bool)
  /-- An action is run. -/
  | process (index : Nat) (outcome : Outcome)

namespace BranchedBuild

/-- The chroot directory that the results in a chroot are in. -/
def path (b : BranchedBuild) (chroot : MockChroot) : ChrootPath :=
  ⟨b.coprDir.copr.ownerName, b.coprDir.name, chroot.name⟩

/-- The build has a `BuildChroot` that has not succeeded. Nobody builds in the chroot that is
branched. -/
def openIn (br : Branch) (b : BranchedBuild) (chroot : MockChroot) : Bool :=
  decide (chroot.name ≠ br.dest.name) &&
    (b.chroot chroot).any fun c => decide (c.status ≠ .succeeded)

/-- A new status and `result_dir` in a chroot. -/
def report (chroot : MockChroot) (status : StatusEnum) (b : BranchedBuild) : BranchedBuild :=
  b.mapChroots
    (fun c =>
      if c.name = chroot.name then { c with status := status, resultDir := b.targetDirName }
      else c)
    fun c => by split <;> rfl

end BranchedBuild

namespace BranchStores

variable (s : BranchStores)

/-- Results are stored, and for a project in Pulp also the units, which the repository gets. -/
def store (b : BranchedBuild) (chroot : MockChroot) (results : ResultDir) (prns : List String) :
    BranchStores :=
  let stored := { s with disk := s.disk.put (b.path chroot) b.targetDirName (some results) }
  match b.coprDir.copr.storage with
  | .backend => stored
  | .pulp =>
    let units := prns.map fun prn => ⟨prn, b.id, chroot.name⟩
    { stored with content := s.content ++ units }.addUnits (b.path chroot) units

/-- The results of a deleted build are removed from all chroots of its directory. -/
def removeResults (id : Nat) (package : String) (dir : StoredDir) : BranchStores where
  disk := fun path name =>
    if path.owner = dir.copr.ownerName ∧ path.dirname = dir.name ∧ name = targetDir id package then
      none
    else s.disk path name
  content := s.content
  repositories := fun path =>
    if path.owner = dir.copr.ownerName ∧ path.dirname = dir.name then
      (s.repositories path).filter fun u => decide (u.buildId ≠ id)
    else s.repositories path

end BranchStores

namespace Branching

/-- Nothing is there. -/
def start : Branching where
  db := ⟨[], Table.empty, []⟩
  nextBuildId := 1
  stores := ⟨fun _ _ => none, [], fun _ => []⟩

/-- An action that waits is run. -/
def process (s : Branching) (index : Nat) (a : SentAction) : Outcome → Option Branching
  | .finished =>
    (a.run s.stores).map fun stores =>
      { s with
        stores := stores
        db := { s.db with
          actions := s.db.actions.set index { a with result := some .success } } }
  | .broken done left reported =>
    (a.runPart done left s.stores).map fun stores =>
      { s with
        stores := stores
        db := { s.db with
          actions := if reported then s.db.actions.set index { a with result := some .failure }
            else s.db.actions } }

/-- One event; none where it is impossible. -/
def step (br : Branch) (s : Branching) : BranchingEvent → Option Branching
  | .editCoprs coprs => some { s with db := { s.db with coprs := coprs } }
  | .submit b =>
    if s.nextBuildId ≤ b.id ∧
        ∀ c ∈ b.buildChroots, c.name ≠ br.dest.name ∧ c.status ≠ .succeeded then
      some { s with
        db := { s.db with builds := s.db.builds.insert b }
        nextBuildId := b.id + 1 }
    else none
  | .store id chroot results prns =>
    match s.db.builds.find id with
    | some b =>
      if b.openIn br chroot then
        some { s with stores := s.stores.store b chroot results prns }
      else none
    | none => none
  | .report id chroot status =>
    match s.db.builds.find id with
    | some b =>
      if b.openIn br chroot ∧ (status = .succeeded →
          (s.stores.disk (b.path chroot) b.targetDirName).isSome) then
        some { s with
          db := { s.db with
            builds := s.db.builds.update (fun o => decide (o.id = id)) (·.report chroot status)
              fun _ => rfl } }
      else none
    | none => none
  | .deleteBuild id =>
    some { s with
      db := { s.db with builds := s.db.builds.remove fun b => decide (b.id = id) } }
  | .removeResults id package dir =>
    if (s.db.builds.find id).isNone then
      some { s with stores := s.stores.removeResults id package dir }
    else none
  | .command retryForked =>
    some { s with db := BranchDatabase.rawhideToReleaseFunction br retryForked s.db }
  | .process index outcome =>
    match s.db.actions[index]? with
    | some a => if a.result = none then s.process index a outcome else none
    | none => none

/-- No copy of a directory breaks off. -/
def wholeCopies (s : Branching) : BranchingEvent → Bool
  | .process index (.broken done (some left) _) =>
    match s.db.actions[index]? with
    | some ⟨.rawhideToRelease data, _⟩ =>
      ((data.builds[done]?).bind (s.stores.disk data.rawhidePath)).all fun results =>
        decide (left = results ∨ left = results.fromChroot data.rawhideChroot)
    | _ => true
  | _ => true

end Branching

/-! ## What an action copies -/

/-- What is copied from a chroot is a copy of its result directory. -/
theorem ResultDir.copyOf_fromChroot (r : ResultDir) (rawhide : String) :
    r.CopyOf (r.fromChroot rawhide) :=
  ⟨rfl, List.prefix_append _ _⟩

/-- What runs of an action change: the directories that it lists are copied as a whole, and
repositories grow. -/
structure RawhideToReleaseData.Copying (data : RawhideToReleaseData) (s t : BranchStores) :
    Prop where
  /-- The units in Pulp stay. -/
  content : t.content = s.content
  /-- Other directories stay. -/
  elsewhere : ∀ path, path ≠ data.destPath → t.disk path = s.disk path
  /-- A directory that is new is a copy. -/
  copies : ∀ name, t.disk data.destPath name = s.disk data.destPath name ∨
    name ∈ data.builds ∧ s.disk data.destPath name = none ∧
      ∃ r r', s.disk data.rawhidePath name = some r ∧ t.disk data.destPath name = some r' ∧
        r.CopyOf r'
  /-- Nothing is taken out of a repository. -/
  repositories : ∀ path u, u ∈ s.repositories path → u ∈ t.repositories path

namespace RawhideToReleaseData

variable {data : RawhideToReleaseData} {s t u : BranchStores} {build : String}

/-- Copying nothing is a copying. -/
theorem Copying.refl : data.Copying s s :=
  ⟨rfl, fun _ _ => rfl, fun _ => Or.inl rfl, fun _ _ member => member⟩

/-- Copies are made one after another. -/
theorem Copying.trans (differ : data.rawhidePath ≠ data.destPath) (first : data.Copying s t)
    (second : data.Copying t u) : data.Copying s u := by
  constructor
  · rw [second.content, first.content]
  · intro path other
    rw [second.elsewhere path other, first.elsewhere path other]
  · intro name
    have source : t.disk data.rawhidePath name = s.disk data.rawhidePath name := by
      rw [first.elsewhere _ differ]
    cases second.copies name with
    | inl same => exact same ▸ first.copies name
    | inr copied =>
      have ⟨listed, absent, r, r', source', made, copy⟩ := copied
      cases first.copies name with
      | inl same => exact Or.inr ⟨listed, same ▸ absent, r, r', source ▸ source', made, copy⟩
      | inr earlier =>
        have ⟨_, _, _, there, _, put, _⟩ := earlier
        rw [put] at absent
        cases absent
  · intro path unit member
    exact second.repositories path unit (first.repositories path unit member)

/-- One complete copy is put into a directory that is new. -/
theorem Copying.put {r r' : ResultDir} (listed : build ∈ data.builds)
    (source : s.disk data.rawhidePath build = some r)
    (absent : s.disk data.destPath build = none) (copy : r.CopyOf r') :
    data.Copying s { s with disk := s.disk.put data.destPath build (some r') } := by
  constructor
  · rfl
  · intro path other
    exact Disk.put_other other build (some r')
  · intro name
    by_cases same : name = build
    · subst same
      exact Or.inr ⟨listed, absent, r, r', source, Disk.put_self _ _ _ _, copy⟩
    · exact Or.inl (Disk.put_other_dir same (some r'))
  · exact fun _ _ member => member

/-- Copying one listed build is a copying. -/
theorem copyBuild_copying (listed : build ∈ data.builds) :
    data.Copying s (data.copyBuild build s) := by
  unfold copyBuild
  split
  · rename_i r source absent
    exact Copying.put listed source absent (r.copyOf_fromChroot _)
  · exact Copying.refl

/-- The content of a repository grows. -/
theorem addToRepository_copying (added : data.addToRepository build s = some t) :
    data.Copying s t := by
  unfold addToRepository at added
  split at added
  · rw [← Option.some.inj added]
    exact Copying.refl
  · have ⟨id, _, is⟩ := Option.map_eq_some_iff.mp added
    rw [← is]
    refine ⟨rfl, fun _ _ => rfl, fun _ => Or.inl rfl, ?_⟩
    intro path unit member
    exact BranchStores.mem_addUnits.mpr (Or.inl member)

/-- All builds of a list are copied. -/
theorem forkBuilds_copying (differ : data.rawhidePath ≠ data.destPath) {builds : List String}
    (listed : ∀ build ∈ builds, build ∈ data.builds)
    (forked : data.forkBuilds builds s = some t) : data.Copying s t := by
  induction builds generalizing s with
  | nil =>
    rw [← Option.some.inj forked]
    exact Copying.refl
  | cons build rest ih =>
    have ⟨next, added, later⟩ := Option.bind_eq_some_iff.mp forked
    have one : data.Copying s next :=
      (copyBuild_copying (listed build List.mem_cons_self)).trans differ
        (addToRepository_copying added)
    exact one.trans differ (ih (fun name member => listed name (List.mem_cons_of_mem _ member))
      later)

/-- A copy that breaks off when it is complete. -/
theorem leave_copying {left : Option ResultDir} (listed : build ∈ data.builds)
    (whole : ∀ part, left = some part → ∀ r, s.disk data.rawhidePath build = some r →
      r.CopyOf part) :
    data.Copying s (data.leave build left s) := by
  unfold leave
  split
  · rename_i r part source absent
    exact Copying.put listed source absent (whole part rfl r source)
  · exact Copying.refl

/-- What a build needs of an action: its directory is copied, and its units are added. -/
structure Arrives (data : RawhideToReleaseData) (s t : BranchStores) (build : String) : Prop where
  /-- The directory is there, if it was in the rawhide chroot. -/
  directory : s.disk data.rawhidePath build ≠ none → t.disk data.destPath build ≠ none
  /-- The units are in the repository, if the project is in Pulp. -/
  units : data.storage = .pulp → ∀ id, leadingId build = some id → ∀ u ∈ s.content,
    u.buildId = id → u.chroot = data.rawhideChroot → u ∈ t.repositories data.destPath

/-- Later copies leave what has arrived. -/
theorem Arrives.later (arrives : data.Arrives s t build) (copying : data.Copying t u) :
    data.Arrives s u build := by
  constructor
  · intro there
    cases copying.copies build with
    | inl same =>
      rw [same]
      exact arrives.directory there
    | inr copied =>
      have ⟨_, _, _, _, _, made, _⟩ := copied
      rw [made]
      exact Option.some_ne_none _
  · intro pulp id read unit member ofBuild inRawhide
    exact copying.repositories _ _ (arrives.units pulp id read unit member ofBuild inRawhide)

/-- What the loop body does for a build. -/
theorem arrives_of_added
    (added : data.addToRepository build (data.copyBuild build s) = some t) :
    data.Arrives s t build := by
  have content : (data.copyBuild build s).content = s.content := by
    unfold copyBuild
    split <;> rfl
  have copied : s.disk data.rawhidePath build ≠ none →
      (data.copyBuild build s).disk data.destPath build ≠ none := by
    intro there
    unfold copyBuild
    split
    · show s.disk.put _ _ _ _ _ ≠ none
      rw [Disk.put_self]
      exact Option.some_ne_none _
    · rename_i other
      intro absent
      have ⟨r, source⟩ := Option.ne_none_iff_exists'.mp there
      exact other r source absent
  unfold addToRepository at added
  split at added
  · rename_i backend
    rw [← Option.some.inj added]
    exact ⟨copied, fun pulp => absurd (backend.symm.trans pulp) (by decide)⟩
  · have ⟨id, read, is⟩ := Option.map_eq_some_iff.mp added
    rw [← is]
    refine ⟨copied, ?_⟩
    intro _ id' read' unit member ofBuild inRawhide
    obtain rfl := Option.some.inj (read.symm.trans read')
    apply BranchStores.mem_addUnits.mpr
    rw [content, List.mem_filter]
    exact Or.inr ⟨rfl, member, decide_eq_true ⟨ofBuild, inRawhide⟩⟩

/-- Every build that a successful action lists arrives. -/
theorem forkBuilds_arrives (differ : data.rawhidePath ≠ data.destPath) {builds : List String}
    (listed : ∀ name ∈ builds, name ∈ data.builds)
    (forked : data.forkBuilds builds s = some t) (member : build ∈ builds) :
    data.Arrives s t build := by
  induction builds generalizing s with
  | nil => exact absurd member List.not_mem_nil
  | cons first rest ih =>
    have ⟨next, added, later⟩ := Option.bind_eq_some_iff.mp forked
    have inside : ∀ name ∈ rest, name ∈ data.builds :=
      fun name member => listed name (List.mem_cons_of_mem _ member)
    cases List.mem_cons.mp member with
    | inl same =>
      subst same
      exact (arrives_of_added added).later (forkBuilds_copying differ inside later)
    | inr there =>
      have rested := ih inside later there
      have one : data.Copying s next :=
        (copyBuild_copying (listed first List.mem_cons_self)).trans differ
          (addToRepository_copying added)
      constructor
      · intro source
        apply rested.directory
        rw [one.elsewhere _ differ]
        exact source
      · intro pulp id read unit member ofBuild inRawhide
        exact rested.units pulp id read unit (one.content ▸ member) ofBuild inRawhide

end RawhideToReleaseData

end Copr
