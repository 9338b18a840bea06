import Copr.Lib.Runs
import Copr.Frontend.ProjectEffects

/-!
# Builds stay in their projects

The directory and the package of a build are in the project of the build: whatever creates a
build looks both up in its project. Only a resubmission takes the package of the build that it
is made from, whichever project that build is in.
-/

namespace Copr

open Runs Tables Text

variable {chars : CharClasses}

/-- The directory and the package are in the project. -/
def BuildRefs.Local (r : BuildRefs chars) : Prop :=
  r.coprDir.copr.id = r.copr.id ∧ ∀ k, r.package = some k → k.copr.id = r.copr.id

namespace ProjectDatabase

variable {s t : ProjectDatabase chars}

/-- Builds do not mix projects. -/
structure Unmixed (s : ProjectDatabase chars) : Prop where
  /-- The primary key. -/
  ids : s.db.IdsKnown
  /-- Every build belongs somewhere, and nothing else does. -/
  known : s.refs.map BuildRefs.id = s.db.builds.map Build.id
  /-- To one project only. -/
  belongs : ∀ r ∈ s.refs, r.Local

/-- No build is resubmitted in another project than that of its package. -/
def staysInProject (s : ProjectDatabase chars) : ProjectEvent chars → Bool
  | .newBuildRebuild _ coprId buildId _ _ =>
    match s.getBuild buildId with
    | some (_, r) => r.package.all fun k => decide (k.copr.id = coprId)
    | none => true
  | _ => true

/-! ## What keeps builds apart -/

/-- Other tables do not matter. -/
theorem Unmixed.of_same (unmixed : s.Unmixed) (same : s.SameBuilds t) : t.Unmixed := by
  constructor
  · rw [same.db]
    exact unmixed.ids
  · rw [same.refs, same.db]
    exact unmixed.known
  · rw [same.refs]
    exact unmixed.belongs

/-- Builds that are changed keep their ids, and nothing else matters. -/
theorem Unmixed.operate (unmixed : s.Unmixed) {op : Operation} {db : Database}
    (operated : s.db.operate op = some db)
    (same : db.builds.map Build.id = s.db.builds.map Build.id) :
    Unmixed { s with db := db } :=
  ⟨Database.operate_idsKnown unmixed.ids operated, unmixed.known.trans same.symm,
    unmixed.belongs⟩

/-- A build is appended together with its references. -/
theorem Unmixed.append (unmixed : s.Unmixed) {r : BuildRefs chars} (ids : t.db.IdsKnown)
    (builds : t.db.builds.map Build.id = s.db.builds.map Build.id ++ [r.id])
    (refs : t.refs = s.refs ++ [r]) : t.Unmixed ↔ r.Local := by
  constructor
  · intro apart
    refine apart.belongs r ?_
    rw [refs]
    exact List.mem_append_right _ (List.mem_singleton_self r)
  · intro inside
    refine ⟨ids, ?_, fun other member => ?_⟩
    · rw [refs, List.map_append, builds, unmixed.known]
      rfl
    · rw [refs] at member
      rcases List.mem_append.mp member with old | new
      · exact unmixed.belongs other old
      · rw [List.mem_singleton.mp new]
        exact inside

/-- A new build is in one project exactly if its package is. -/
theorem Unmixed.added (unmixed : s.Unmixed) {copr : NamedCopr chars} {sources : Sources chars}
    {submission : Submission} {inherited : List (String × String)}
    (added : s.Added copr sources submission inherited t) :
    t.Unmixed ↔ ∀ p, sources.package = some p → p.package.copr.id = copr.id := by
  obtain ⟨cached, db, done, next, version, builds⟩ := added.db
  obtain ⟨coprDir, inside, refs⟩ := added.refs
  have operated : s.db.operate (.add cached submission) = some db := done
  have ids := Database.operate_idsKnown unmixed.ids operated
  have sameIds : t.db.builds.map Build.id = db.builds.map Build.id := by
    rw [builds, List.map_map]
    rfl
  have appended : db.builds.map Build.id = s.db.builds.map Build.id ++ [s.db.nextBuildId] := by
    cases Database.operate_operated operated with
    | add cached submission grown batchId set =>
      have rebatched := Database.setupBatch_rebatched set
      obtain ⟨batch, same⟩ := rebatched.builds
      rw [List.map_append, same, List.map_map, ← rebatched.nextBuildId]
      rfl
  refine (unmixed.append (ids.map (fun b => ?_) builds next) (sameIds.trans appended) refs).trans ?_
  · rfl
  · constructor
    · rintro ⟨-, package⟩ p given
      exact package p.package (by rw [given]; rfl)
    · intro given
      refine ⟨inside, fun k named => ?_⟩
      obtain ⟨p, known, rfl⟩ := Option.map_eq_some_iff.mp named
      exact given p known

/-- Builds disappear together with their references. -/
theorem Unmixed.dropBuilds (unmixed : s.Unmixed) (selected : BuildRefs chars → Bool) :
    (s.dropBuilds selected).Unmixed := by
  let stays (id : Nat) : Bool := !s.refs.any fun r => selected r && decide (r.id = id)
  have distinct : (s.refs.map BuildRefs.id).Nodup := by
    rw [unmixed.known]
    exact unmixed.ids.distinct
  have references : s.refs.filter (fun r => !selected r) =
      s.refs.filter fun r => stays r.id := by
    refine List.filter_congr fun r member => congrArg Bool.not ?_
    rw [Bool.eq_iff_iff, List.any_eq_true]
    constructor
    · intro chosen
      exact ⟨r, member, by simp [chosen]⟩
    · rintro ⟨other, inside, both⟩
      rw [Bool.and_eq_true, decide_eq_true_eq] at both
      rw [← List.inj_on_of_nodup_map distinct inside member both.2]
      exact both.1
  refine ⟨⟨?_, ?_⟩, ?_, ?_⟩
  · exact unmixed.ids.distinct.sublist (List.filter_sublist.map _)
  · exact fun b member => unmixed.ids.bounded b (List.mem_of_mem_filter member)
  · show (s.refs.filter fun r => !selected r).map BuildRefs.id =
      (s.db.builds.filter fun b => stays b.id).map Build.id
    have left := List.filter_map (p := stays) (f := BuildRefs.id) (l := s.refs)
    have right := List.filter_map (p := stays) (f := Build.id) (l := s.db.builds)
    rw [references]
    exact left.symm.trans ((congrArg _ unmixed.known).trans right)
  · exact fun r member => unmixed.belongs r (List.mem_of_mem_filter member)

/-- Deleting builds keeps the others apart. -/
theorem Unmixed.deleteBuilds (unmixed : s.Unmixed) {selected : BuildRefs chars → Bool}
    (deleted : s.deleteBuilds selected = some t) : t.Unmixed := by
  unfold ProjectDatabase.deleteBuilds at deleted
  split at deleted
  · obtain rfl := Option.some.inj deleted
    exact unmixed.dropBuilds selected
  · contradiction

/-- The package of a build is one of its project when a report names it. -/
theorem Unmixed.assignPackage (unmixed : s.Unmixed) (buildId : Nat) :
    (s.assignPackage buildId).Unmixed := by
  unfold ProjectDatabase.assignPackage
  split
  · exact unmixed
  · rename_i b r found
    obtain ⟨-, -, member, own⟩ := getBuild_spec found
    have distinct : (s.refs.map BuildRefs.id).Nodup := by
      rw [unmixed.known]
      exact unmixed.ids.distinct
    split
    · split
      · exact unmixed
      · rename_i package grown got
        obtain ⟨inside, same⟩ := getOrCreatePackage_same got
        constructor
        · exact same.db ▸ unmixed.ids
        · show (s.refs.map _).map BuildRefs.id = grown.db.builds.map Build.id
          rw [same.db, ← unmixed.known, List.map_map]
          refine List.map_congr_left fun other _ => ?_
          simp only [Function.comp_apply]
          split <;> rfl
        · intro other listed
          obtain ⟨old, before, rfl⟩ := List.mem_map.mp listed
          split
          · rename_i this
            obtain rfl := List.inj_on_of_nodup_map distinct before member (this.trans own.symm)
            refine ⟨(unmixed.belongs old before).1, fun k given => ?_⟩
            rw [← Option.some.inj given]
            exact inside
          · exact unmixed.belongs old before
    · exact unmixed

/-- A message leaves builds in their projects. -/
theorem Unmixed.receive (unmixed : s.Unmixed) (m : Message) : (s.receive m).Unmixed := by
  have sameIds : (s.db.receive m).builds.map Build.id = s.db.builds.map Build.id := by
    show (s.db.builds.map fun b => b.receive m).map Build.id = _
    rw [List.map_map]
    exact List.map_congr_left fun b _ => b.receive_id m
  have received : Unmixed { s with db := s.db.receive m } :=
    unmixed.operate (rfl : s.db.operate (.message m) = _) sameIds
  unfold ProjectDatabase.receive
  split
  · exact received.assignPackage _
  · exact received.assignPackage _
  · dsimp only [remember]
    split
    · exact ⟨received.ids, received.known, received.belongs⟩
    · exact received
  · exact received

/-! ## The entry points -/

/-- A resubmission keeps builds apart exactly if it stays in the project of the package. -/
theorem Unmixed.newBuildRebuild (unmixed : s.Unmixed) {cached : Nat → Bool} {coprId buildId : Nat}
    {patterns : ChrootPatterns} {batching : Option Batching}
    (done : s.newBuildRebuild cached coprId buildId patterns batching = some t) :
    t.Unmixed ↔
      s.staysInProject (.newBuildRebuild cached coprId buildId patterns batching) = true := by
  obtain ⟨project, isProject, rest⟩ := Option.bind_eq_some_iff.mp done
  obtain ⟨⟨b, r⟩, found, resubmitted⟩ := Option.bind_eq_some_iff.mp rest
  have own : project.copr.id = coprId := by simpa using List.find?_some isProject
  unfold createNewFromOtherBuild at resubmitted
  dsimp only at resubmitted
  split at resubmitted
  · contradiction
  · obtain ⟨u, created, rfl⟩ := Option.map_eq_some_iff.mp resubmitted
    obtain ⟨-, _, submission, -, added⟩ := createNew_added created
    refine (unmixed.added ((added.setPkgVersion _ _).inheritReports _)).trans ?_
    simp only [staysInProject, found]
    cases r.package with
    | none => simp
    | some k => simp [own]

/-- A submission looks its package up in the project. -/
theorem Unmixed.submit (unmixed : s.Unmixed) {cached : Nat → Bool} {coprId : Nat}
    {packageName : Option String} {sourceType : BuildSourceEnum} {srpmUrl : Option String}
    {patterns : ChrootPatterns} {options : BuildOptions}
    (done : s.submit cached coprId packageName sourceType srpmUrl patterns options = some t) :
    t.Unmixed := by
  obtain ⟨project, -, rest⟩ := Option.bind_eq_some_iff.mp done
  cases packageName with
  | none =>
    obtain ⟨-, _, submission, -, added⟩ := createNew_added rest
    exact (unmixed.added added).mpr (by simp)
  | some name =>
    obtain ⟨p, found, created⟩ := Option.bind_eq_some_iff.mp rest
    obtain ⟨-, _, submission, -, added⟩ := createNew_added created
    refine (unmixed.added added).mpr fun q given => ?_
    rw [← Option.some.inj given]
    exact getPackage_copr found

/-- A batch looks its packages up in the project. -/
theorem Unmixed.batchBuild (unmixed : s.Unmixed) {cached : Nat → Bool} {coprId : Nat}
    {packageName : String} {patterns : ChrootPatterns} {onlyPackageChroots : Bool}
    {batching : Option Batching}
    (done : s.batchBuild cached coprId packageName patterns onlyPackageChroots batching =
      some t) : t.Unmixed := by
  obtain ⟨project, -, rest⟩ := Option.bind_eq_some_iff.mp done
  obtain ⟨p, found, built⟩ := Option.bind_eq_some_iff.mp rest
  have inside : ∀ q, some p = some q → q.package.copr.id = project.copr.id := by
    intro q given
    rw [← Option.some.inj given]
    exact getPackage_copr found
  dsimp only at built
  split at built
  · obtain ⟨b, -, hashed⟩ := Option.bind_eq_some_iff.mp built
    obtain ⟨gitHash, -, created⟩ := Option.bind_eq_some_iff.mp hashed
    obtain ⟨u, new, rfl⟩ := Option.map_eq_some_iff.mp created
    obtain ⟨-, _, submission, -, added⟩ := createNew_added new
    exact (unmixed.added (added.setPkgVersion _ _)).mpr inside
  · obtain ⟨-, _, submission, -, added⟩ := createNew_added built
    exact (unmixed.added added).mpr inside

/-- A webhook rebuilds the package in its project. -/
theorem Unmixed.rebuildPackage (unmixed : s.Unmixed) {packageId : Nat}
    {coprDirname : Option String} (done : s.rebuildPackage packageId coprDirname = some t) :
    t.Unmixed := by
  obtain ⟨p, -, rest⟩ := Option.bind_eq_some_iff.mp done
  split at rest
  · contradiction
  · refine (unmixed.added (add_added rest)).mpr fun q given => ?_
    rw [← Option.some.inj given]

/-- A fork gets a package and the main directory of the project it is in. -/
theorem Unmixed.forkBuild (unmixed : s.Unmixed) {buildId coprId : Nat} {chroots : List String}
    (done : s.forkBuild buildId coprId chroots = some t) : t.Unmixed := by
  obtain ⟨fcopr, -, rest⟩ := Option.bind_eq_some_iff.mp done
  obtain ⟨⟨b, r⟩, -, rest⟩ := Option.bind_eq_some_iff.mp rest
  obtain ⟨package, -, rest⟩ := Option.bind_eq_some_iff.mp rest
  split at rest
  · contradiction
  · obtain ⟨⟨fpackage, grown⟩, got, rest⟩ := Option.bind_eq_some_iff.mp rest
    obtain ⟨coprDir, main, rest⟩ := Option.bind_eq_some_iff.mp rest
    obtain ⟨db, operated, rfl⟩ := Option.map_eq_some_iff.mp rest
    have ids := Database.operate_idsKnown unmixed.ids operated
    have builds : db.builds.map Build.id = s.db.builds.map Build.id ++ [s.db.nextBuildId] := by
      cases Database.operate_operated operated with
      | fork c chroots member =>
        rw [List.map_append]
        rfl
    refine (unmixed.append ids builds rfl).mpr ⟨mainDir_copr main, fun k given => ?_⟩
    rw [← Option.some.inj given]
    exact (getOrCreatePackage_same got).1

/-- Every event keeps builds apart, but for resubmissions in other projects. -/
theorem step_unmixed (unmixed : s.Unmixed) {e : ProjectEvent chars} (stepped : s.step e = some t) :
    t.Unmixed ↔ s.staysInProject e = true := by
  have other : t.Unmixed → s.staysInProject e = true →
      (t.Unmixed ↔ s.staysInProject e = true) := fun left right => ⟨fun _ => right, fun _ => left⟩
  cases e with
  | newBuildRebuild cached coprId buildId patterns batching =>
    exact unmixed.newBuildRebuild stepped
  | addCopr copr activeChroots =>
    obtain ⟨d, -, rfl⟩ := Option.map_eq_some_iff.mp stepped
    exact other (unmixed.of_same ⟨rfl, rfl, rfl⟩) rfl
  | setActiveChroots coprId activeChroots =>
    obtain rfl := Option.some.inj stepped
    exact other (unmixed.of_same ⟨rfl, rfl, rfl⟩) rfl
  | getOrCreateDir coprId dirname =>
    obtain ⟨p, -, rest⟩ := Option.bind_eq_some_iff.mp stepped
    obtain ⟨⟨d, u⟩, got, rfl⟩ := Option.map_eq_some_iff.mp rest
    exact other (unmixed.of_same (getOrCreateDir_same got).2) rfl
  | addPackage coprId name sourceType =>
    obtain ⟨p, -, rfl⟩ := Option.map_eq_some_iff.mp stepped
    exact other (unmixed.of_same ⟨rfl, rfl, rfl⟩) rfl
  | editPackage packageId denylist sourceType =>
    obtain rfl := Option.some.inj stepped
    exact other (unmixed.of_same ⟨rfl, rfl, rfl⟩) rfl
  | submit cached coprId packageName sourceType srpmUrl patterns options =>
    exact other (unmixed.submit stepped) rfl
  | batchBuild cached coprId packageName patterns onlyPackageChroots batching =>
    exact other (unmixed.batchBuild stepped) rfl
  | rebuildPackage packageId coprDirname => exact other (unmixed.rebuildPackage stepped) rfl
  | forkBuild buildId coprId chroots => exact other (unmixed.forkBuild stepped) rfl
  | message m =>
    obtain rfl := Option.some.inj stepped
    exact other (unmixed.receive m) rfl
  | rawhideToRelease buildId rawhide dest =>
    simp only [step] at stepped
    obtain ⟨db, operated, rfl⟩ := Option.map_eq_some_iff.mp stepped
    refine other (unmixed.operate operated ?_) rfl
    cases Database.operate_operated operated with
    | rawhideToRelease buildId rawhide dest =>
      rw [List.map_map]
      refine List.map_congr_left fun b _ => ?_
      obtain ⟨added, same⟩ := Database.forkRawhideChroot_adds rawhide dest b
      simp only [Function.comp_apply, same]
      split <;> rfl
  | markAsFailed buildId =>
    simp only [step] at stepped
    obtain ⟨db, operated, rfl⟩ := Option.map_eq_some_iff.mp stepped
    refine other (unmixed.operate operated ?_) rfl
    cases Database.operate_operated operated with
    | markAsFailed buildId =>
      rw [List.map_map]
      refine List.map_congr_left fun b _ => ?_
      simp only [Function.comp_apply]
      split <;> rfl
  | deleteBuilds buildIds => exact other (unmixed.deleteBuilds stepped) rfl
  | deletePackage packageId =>
    obtain ⟨u, deleted, rfl⟩ := Option.map_eq_some_iff.mp stepped
    exact other ((unmixed.deleteBuilds deleted).of_same ⟨rfl, rfl, rfl⟩) rfl
  | deleteDirs dirIds =>
    obtain rfl := Option.some.inj stepped
    exact other ((unmixed.dropBuilds _).of_same ⟨rfl, rfl, rfl⟩) rfl
  | deleteCopr coprId =>
    obtain ⟨u, deleted, rfl⟩ := Option.map_eq_some_iff.mp stepped
    exact other ((unmixed.deleteBuilds deleted).of_same ⟨rfl, rfl, rfl⟩) rfl

/-- There is nothing to be mixed at first. -/
theorem empty_unmixed : (empty : ProjectDatabase chars).Unmixed :=
  ⟨⟨List.nodup_nil, by simp [empty, Database.empty]⟩, rfl, by simp [empty]⟩

/-- In every run in which no build is resubmitted in another project than that of its package,
the directory and the package of every build are in its project. A resubmission in another
project always breaks this. -/
theorem builds_stay_in_projects {s : ProjectDatabase chars}
    (run : Run step (fun s e => s.staysInProject e = true) empty s) :
    s.Unmixed ∧ ∀ e t, s.step e = some t → (t.Unmixed ↔ s.staysInProject e = true) := by
  have unmixed : s.Unmixed := run_invariant Unmixed
    (fun s e t unmixed stays stepped => (step_unmixed unmixed stepped).mpr stays) run
    empty_unmixed
  exact ⟨unmixed, fun e t stepped => step_unmixed unmixed stepped⟩

end ProjectDatabase

namespace Sample

/-- The projects below may have their name. -/
theorem hello_named : nameCharacters .ascii "hello" = true := by decide

/-- A project. -/
def aliceHello : NamedCopr .ascii where
  id := 1
  ownerName := "alice"
  name := "hello"
  owner_plain := by decide
  named := hello_named

/-- A project of the same name. -/
def bobHello : NamedCopr .ascii where
  id := 2
  ownerName := "bob"
  name := "hello"
  owner_plain := by decide
  named := hello_named

/-- A build of a package of the first project, resubmitted in a project with this id. -/
def resubmittedIn (coprId : Nat) : List (ProjectEvent .ascii) :=
  [.addCopr aliceHello project.packageChroots, .addCopr bobHello project.packageChroots,
    .submit (fun _ => false) 1 none .link (some "https://example.com/hello.src.rpm") ⟨[], []⟩ {},
    .message (sourceReport .succeeded),
    .newBuildRebuild (fun _ => false) coprId 1 ⟨["fedora-*"], []⟩ none]

end Sample

namespace ProjectDatabase

/-- The projects of builds, of their directories and of their packages. -/
def projects (s : ProjectDatabase chars) : List (Nat × Nat × Option Nat) :=
  s.refs.map fun r => (r.copr.id, r.coprDir.copr.id, r.package.map fun k => k.copr.id)

/-- A build and one that is resubmitted from it are in one project. -/
theorem builds_stay_in_projects_resubmitted : ∃ s : ProjectDatabase .ascii,
    s.projects = [(1, 1, some 1), (1, 1, some 1)] ∧ s.Unmixed := by
  obtain ⟨s, run, seen⟩ := exec_observe step staysInProject empty (Sample.resubmittedIn 1) projects
    [(1, 1, some 1), (1, 1, some 1)] rfl
  exact ⟨s, seen, (builds_stay_in_projects run).1⟩

/-- A build of one user is resubmitted through the URL of the project of another user: the new
build is in this project, and its package is in the other one. -/
theorem resubmission_mixes_projects : ¬ ∀ s : ProjectDatabase .ascii,
    Run step anyEvent empty s → s.Unmixed := by
  intro claimed
  obtain ⟨s, run, seen⟩ := exec_observe step (fun _ _ => true) empty (Sample.resubmittedIn 2)
    projects [(1, 1, some 1), (2, 2, some 1)] rfl
  have unmixed := claimed s (run_weaken (fun _ _ _ => trivial) run)
  have listed : (2, 2, some 1) ∈ s.projects := by simp [seen]
  obtain ⟨r, member, same⟩ := List.mem_map.mp listed
  simp only [Prod.mk.injEq, Option.map_eq_some_iff] at same
  obtain ⟨own, -, k, package, other⟩ := same
  have inside := (unmixed.belongs r member).2 k package
  rw [own, other] at inside
  contradiction

end ProjectDatabase

end Copr
