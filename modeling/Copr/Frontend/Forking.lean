import Mathlib.Logic.Embedding.Basic
import Copr.Lib.Dicts
import Copr.Common.ActionData
import Copr.Frontend.DeleteActions

/-!
# Forking a project in the frontend

`ComplexLogic.fork_copr`, `ProjectForking.fork_build` and
`PackagesLogic.last_successful_build_chroots`: which builds of which chroots are forked, and the
`builds_map` that tells the backend what to copy.
-/

namespace Copr

open Dicts

/-- A build of a project that is forked. -/
structure SourceBuild where
  /-- The build. -/
  build : Build
  /-- The unique constraint on its chroots. -/
  distinct : build.Distinct
  /-- It is in the main directory. -/
  main : Bool
  deriving DecidableEq

/-- A package of a project that is forked. -/
structure SourcePackage where
  /-- `name`. -/
  name : String
  /-- `builds`, in all directories, the oldest first. -/
  builds : List SourceBuild
  /-- The chroots that `chroot_denylist` matches, if it is set. -/
  denied : Option (MockChroot → Bool)

/-- `Package.chroots`. -/
def SourcePackage.chroots (p : SourcePackage) (active : List MockChroot) : List MockChroot :=
  match p.denied with
  | none => active
  | some matched =>
    let filtered := active.filter fun c => !matched c
    if filtered.isEmpty then active else filtered

/-- The chroot of a build with a name, if the package was built there. -/
def SourceBuild.succeededIn (b : SourceBuild) (chroot : MockChroot) : Option BuildChroot :=
  (b.build.buildChroots.find? fun c => decide (c.name = chroot.name)).filter fun c =>
    decide (c.status = .succeeded ∨ c.status = .forked)

/-- The newest of some builds that succeeded in a chroot. -/
def lastSuccessful (builds : List SourceBuild) (chroot : MockChroot) :
    Option (SourceBuild × BuildChroot) :=
  builds.reverse.findSome? fun b => (b.succeededIn chroot).map fun c => (b, c)

/-- The newest build in the main directory that succeeded in a chroot. -/
def SourcePackage.newestInMain (p : SourcePackage) (chroot : MockChroot) :
    Option (SourceBuild × BuildChroot) :=
  lastSuccessful (p.builds.filter SourceBuild.main) chroot

/-- A project that is forked. -/
structure SourceProject where
  /-- The full name. -/
  path : ProjectPath
  /-- `storage`. -/
  storage : StorageEnum
  /-- `active_chroots`. -/
  activeChroots : List MockChroot
  /-- `packages`. -/
  packages : List SourcePackage
  /-- A build belongs to one package. -/
  ids : (packages.flatMap fun p => p.builds).Nodup
  /-- Different builds have different directories in a chroot: they are named by the ids. -/
  resultDirs : ∀ p ∈ packages, ∀ q ∈ packages, ∀ b ∈ p.builds, ∀ d ∈ q.builds,
    ∀ c ∈ b.build.buildChroots, ∀ e ∈ d.build.buildChroots, c.name = e.name →
      c.resultDir = e.resultDir → c.resultDir ≠ "" → b = d

/-- `last_successful_build_chroots`: the builds to fork with the chroots to fork of each. -/
def lastSuccessfulBuildChroots (project : SourceProject) (p : SourcePackage) :
    List (SourceBuild × List BuildChroot) :=
  group ((p.chroots project.activeChroots).filterMap (lastSuccessful p.builds))

/-- A build and its fork. -/
structure ForkedBuild where
  /-- `build`. -/
  source : SourceBuild
  /-- `build_chroots`. -/
  chroots : List BuildChroot
  /-- `fbuild`. -/
  build : Build

/-- The `BuildChroot` that `fork_build` creates from the columns of another. -/
def forkedChroot (id : Nat) (p : SourcePackage) (c : BuildChroot) : BuildChroot :=
  { c with
    resultDir := targetDir id p.name
    status := .forked
    results := [] }

/-- `fork_build`, when the new build gets an id. -/
def forkBuild (id : Nat) (p : SourcePackage) (source : SourceBuild) (chroots : List BuildChroot) :
    ForkedBuild where
  source := source
  chroots := chroots
  build :=
    { source.build with
      id := id
      package := some p.name
      sourceStatus := .forked
      resultDir := padded id
      buildChroots := chroots.map (forkedChroot id p) }

namespace SourceProject

variable (project : SourceProject) (ids : Nat ↪ Nat)

/-- What is forked, in the order of `fork_copr`. -/
def plan : List (SourcePackage × SourceBuild × List BuildChroot) :=
  project.packages.flatMap fun p => (lastSuccessfulBuildChroots project p).map fun g => (p, g)

/-- The forked builds, when the n-th gets the n-th new id. -/
def forks : List ForkedBuild :=
  project.plan.zipIdx.map fun e => forkBuild (ids e.2) e.1.1 e.1.2.1 e.1.2.2

/-- What `fork_copr` writes into `builds_map` for a build: a chroot without `result_dir` is
passed over. -/
def chrootWrites (f : ForkedBuild) : List (String × String × String) :=
  ((f.chroots.zip f.build.buildChroots).filter fun c => decide (c.1.resultDir ≠ "")).map fun c =>
    (c.1.name, c.1.resultDir, c.2.resultDir)

/-- What `fork_copr` writes into `builds_map` for the chroots. -/
def writes : List (String × String × String) := (project.forks ids).flatMap chrootWrites

/-- `builds_map` at first: every active chroot has an empty dictionary. -/
def emptyMap : Nested String String String :=
  project.activeChroots.foldl (fun dict c => dict.insert c.name ∅) ∅

/-- The pairs for `srpm-builds`. -/
def srpmBuilds : ForkedDirs :=
  ((project.forks ids).filter fun f => decide (f.source.build.resultDir ≠ "")).foldl
    (fun dict f => dict.insert f.source.build.resultDir f.build.resultDir) ∅

/-- `builds_map`. -/
def buildsMap : Nested String String String :=
  (setAll project.emptyMap (project.writes ids)).insert "srpm-builds" (project.srpmBuilds ids)

/-- `fork_copr` with the action that it sends. It raises when the destination exists in another
storage, and when source and destination are the same. -/
def forkCopr (destination : ProjectPath) (existing : Option StorageEnum) :
    Option (List ForkedBuild × ForkAction) :=
  if existing.any fun storage => decide (storage ≠ project.storage) then none
  else if differ : project.path ≠ destination then
    some (project.forks ids,
      { source := project.path
        destination := destination
        differ := differ
        storage := project.storage
        buildsMap := project.buildsMap ids })
  else none

end SourceProject

/-! ## Which builds are forked -/

section Newest

variable {b : SourceBuild} {c : BuildChroot} {chroot : MockChroot} {builds : List SourceBuild}

/-- The package was built in the chroot. -/
theorem succeededIn_spec (succeeded : b.succeededIn chroot = some c) :
    c ∈ b.build.buildChroots ∧ c.name = chroot.name := by
  obtain ⟨found, _⟩ := Option.filter_eq_some_iff.mp succeeded
  exact ⟨List.mem_of_find?_eq_some found, by simpa using List.find?_some found⟩

/-- The newest successful build succeeded, and none of the newer ones did. -/
theorem lastSuccessful_eq_some : lastSuccessful builds chroot = some (b, c) ↔
    ∃ older newer, builds = older ++ b :: newer ∧ b.succeededIn chroot = some c ∧
      ∀ d ∈ newer, d.succeededIn chroot = none := by
  rw [lastSuccessful, List.findSome?_eq_some_iff]
  constructor
  · rintro ⟨newer, found, older, split, succeeded, failed⟩
    obtain ⟨_, here, pair⟩ := Option.map_eq_some_iff.mp succeeded
    obtain ⟨rfl, rfl⟩ := Prod.mk.inj pair
    refine ⟨older.reverse, newer.reverse, ?_, here, fun d member => ?_⟩
    · rw [← List.reverse_reverse builds, split]
      simp
    · exact Option.map_eq_none_iff.mp (failed d (List.mem_reverse.mp member))
  · rintro ⟨older, newer, rfl, succeeded, failed⟩
    refine ⟨newer.reverse, b, older.reverse, by simp, by rw [succeeded]; rfl, fun d member => ?_⟩
    rw [failed d (List.mem_reverse.mp member)]
    rfl

/-- The newest successful build is one of the builds and succeeded. -/
theorem lastSuccessful_spec (newest : lastSuccessful builds chroot = some (b, c)) :
    b ∈ builds ∧ b.succeededIn chroot = some c := by
  obtain ⟨older, newer, rfl, succeeded, _⟩ := lastSuccessful_eq_some.mp newest
  exact ⟨by simp, succeeded⟩

/-- Only the name of the chroot counts. -/
theorem lastSuccessful_congr {other : MockChroot} (same : other.name = chroot.name) :
    lastSuccessful builds other = lastSuccessful builds chroot := by
  unfold lastSuccessful SourceBuild.succeededIn
  rw [same]

end Newest

variable {project : SourceProject} {ids : Nat ↪ Nat}

/-- A build is forked with a chroot when it is the newest that succeeded there. -/
theorem mem_lastSuccessfulBuildChroots {p : SourcePackage} {b : SourceBuild} {c : BuildChroot} :
    (∃ chroots, (b, chroots) ∈ lastSuccessfulBuildChroots project p ∧ c ∈ chroots) ↔
      ∃ chroot ∈ p.chroots project.activeChroots, lastSuccessful p.builds chroot = some (b, c) := by
  rw [lastSuccessfulBuildChroots, mem_group, List.mem_filterMap]

/-- The groups belong to builds of the package. -/
theorem mem_builds_of_group {p : SourcePackage} {b : SourceBuild}
    (member : b ∈ (lastSuccessfulBuildChroots project p).map Prod.fst) : b ∈ p.builds := by
  obtain ⟨c, found⟩ := mem_keys_group.mp member
  obtain ⟨_, _, newest⟩ := List.mem_filterMap.mp found
  exact (lastSuccessful_spec newest).1

/-- The chroots of a group are chroots of the build. -/
theorem mem_chroots_of_group {p : SourcePackage} {g : SourceBuild × List BuildChroot}
    (member : g ∈ lastSuccessfulBuildChroots project p) {c : BuildChroot} (chroot : c ∈ g.2) :
    c ∈ g.1.build.buildChroots := by
  obtain ⟨_, _, newest⟩ := mem_lastSuccessfulBuildChroots.mp ⟨g.2, member, chroot⟩
  exact (succeededIn_spec (lastSuccessful_spec newest).2).1

/-- No build is forked twice. -/
theorem plan_sources_nodup : (project.plan.map fun e => e.2.1).Nodup := by
  have sources : project.plan.map (fun e => e.2.1) =
      project.packages.flatMap fun p => (lastSuccessfulBuildChroots project p).map Prod.fst := by
    simp [SourceProject.plan, List.map_flatMap, Function.comp_def]
  rw [sources]
  obtain ⟨_, apart⟩ := List.nodup_flatMap.mp project.ids
  refine List.nodup_flatMap.mpr ⟨fun p _ => group_keys_nodup _, apart.imp fun disjoint => ?_⟩
  intro b first second
  exact disjoint (mem_builds_of_group first) (mem_builds_of_group second)

/-- The sources of the forks are those of the plan. -/
theorem forks_sources : (project.forks ids).map ForkedBuild.source =
    project.plan.map fun e => e.2.1 := by
  have fst : project.plan.zipIdx.map Prod.fst = project.plan := List.zipIdx_map_fst _ _
  calc (project.forks ids).map ForkedBuild.source
      = (project.plan.zipIdx.map Prod.fst).map fun e => e.2.1 := by
        simp only [SourceProject.forks, List.map_map]
        rfl
    _ = project.plan.map fun e => e.2.1 := by rw [fst]

/-- Forks of the same build are the same. -/
theorem fork_eq_of_source {f g : ForkedBuild} (first : f ∈ project.forks ids)
    (second : g ∈ project.forks ids) (same : f.source = g.source) : f = g := by
  have nodup : ((project.forks ids).map ForkedBuild.source).Nodup := by
    rw [forks_sources]
    exact plan_sources_nodup
  exact List.inj_on_of_nodup_map nodup first second same

/-- Forks with the same id are the same. -/
theorem fork_eq_of_id {f g : ForkedBuild} (first : f ∈ project.forks ids)
    (second : g ∈ project.forks ids) (same : f.build.id = g.build.id) : f = g := by
  have numbered : (project.forks ids).map (fun f => f.build.id) =
      (project.plan.zipIdx.map Prod.snd).map ids := by
    simp only [SourceProject.forks, List.map_map]
    rfl
  have nodup : ((project.forks ids).map fun f => f.build.id).Nodup := by
    rw [numbered, List.zipIdx_map_snd]
    exact List.Nodup.map ids.injective List.nodup_range'
  exact List.inj_on_of_nodup_map nodup first second same

/-- A fork is made for a group of a package. -/
theorem mem_forks {f : ForkedBuild} (member : f ∈ project.forks ids) :
    ∃ p ∈ project.packages, ∃ g ∈ lastSuccessfulBuildChroots project p,
      f = forkBuild f.build.id p g.1 g.2 := by
  obtain ⟨⟨e, i⟩, numbered, rfl⟩ := List.mem_map.mp member
  have planned := List.fst_mem_of_mem_zipIdx numbered
  obtain ⟨p, package, listed⟩ := List.mem_flatMap.mp planned
  obtain ⟨g, grouped, rfl⟩ := List.mem_map.mp listed
  exact ⟨p, package, g, grouped, rfl⟩

/-- Every group of a package is forked. -/
theorem exists_fork {p : SourcePackage} (package : p ∈ project.packages)
    {g : SourceBuild × List BuildChroot} (grouped : g ∈ lastSuccessfulBuildChroots project p) :
    ∃ id, forkBuild id p g.1 g.2 ∈ project.forks ids := by
  have planned : (p, g) ∈ project.plan :=
    List.mem_flatMap.mpr ⟨p, package, List.mem_map_of_mem grouped⟩
  have fst : project.plan.zipIdx.map Prod.fst = project.plan := List.zipIdx_map_fst _ _
  rw [← fst] at planned
  obtain ⟨⟨_, i⟩, numbered, rfl⟩ := List.mem_map.mp planned
  exact ⟨ids i, List.mem_map_of_mem numbered⟩

/-! ## What is in `builds_map` -/

/-- What is written for a fork: the directories of each chroot that has one. -/
theorem mem_chrootWrites {id : Nat} {p : SourcePackage} {b : SourceBuild}
    {chroots : List BuildChroot} {name src dst : String} :
    (name, src, dst) ∈ SourceProject.chrootWrites (forkBuild id p b chroots) ↔
      ∃ c ∈ chroots, c.name = name ∧ c.resultDir = src ∧ src ≠ "" ∧ dst = targetDir id p.name := by
  have zipped : chroots.zip (chroots.map (forkedChroot id p)) =
      chroots.map fun c => (c, forkedChroot id p c) := by
    have mapped := @List.zip_map' _ _ _ (fun c => c) (forkedChroot id p) chroots
    rwa [List.map_id'] at mapped
  simp only [SourceProject.chrootWrites, forkBuild, zipped, List.mem_map, List.mem_filter]
  constructor
  · rintro ⟨_, ⟨⟨c, member, rfl⟩, nonempty⟩, same⟩
    obtain ⟨rfl, rest⟩ := Prod.mk.inj same
    obtain ⟨rfl, rfl⟩ := Prod.mk.inj rest
    exact ⟨c, member, rfl, rfl, of_decide_eq_true nonempty, rfl⟩
  · rintro ⟨c, member, rfl, rfl, nonempty, rfl⟩
    exact ⟨_, ⟨⟨c, member, rfl⟩, decide_eq_true nonempty⟩, rfl⟩

/-- Every directory that is written comes from the last successful build of a package in a chroot.
-/
theorem mem_writes {name src dst : String} (written : (name, src, dst) ∈ project.writes ids) :
    ∃ p ∈ project.packages, ∃ g ∈ lastSuccessfulBuildChroots project p, ∃ id,
      forkBuild id p g.1 g.2 ∈ project.forks ids ∧ dst = targetDir id p.name ∧
        ∃ c ∈ g.2, c.name = name ∧ c.resultDir = src ∧ src ≠ "" := by
  obtain ⟨f, forked, inside⟩ := List.mem_flatMap.mp written
  obtain ⟨p, package, g, grouped, same⟩ := mem_forks forked
  rw [same] at inside forked
  obtain ⟨c, member, name, src, nonempty, dst⟩ := mem_chrootWrites.mp inside
  exact ⟨p, package, g, grouped, _, forked, dst, c, member, name, src, nonempty⟩

/-- The writes never disagree: a directory belongs to one build, which is forked once. -/
theorem writes_functional : Functional (project.writes ids) := by
  intro name src dst dst' first second
  obtain ⟨p, package, g, grouped, i, forked, rfl, c, member, named, from_, nonempty⟩ :=
    mem_writes first
  obtain ⟨q, package', h, grouped', j, forked', rfl, e, member', named', from_', _⟩ :=
    mem_writes second
  have build := mem_builds_of_group (List.mem_map_of_mem (f := Prod.fst) grouped)
  have build' := mem_builds_of_group (List.mem_map_of_mem (f := Prod.fst) grouped')
  have same := project.resultDirs p package q package' g.1 build h.1 build' c
    (mem_chroots_of_group grouped member) e (mem_chroots_of_group grouped' member')
    (named.trans named'.symm) (from_.trans from_'.symm) (from_ ▸ nonempty)
  have equal := fork_eq_of_source forked forked' same
  have numbers : i = j := congrArg (fun f => f.build.id) equal
  have names : some p.name = some q.name := congrArg (fun f => f.build.package) equal
  rw [numbers, Option.some.inj names]

/-- No two directories are copied to the same place. -/
theorem writes_injective {name src src' dst : String}
    (first : (name, src, dst) ∈ project.writes ids)
    (second : (name, src', dst) ∈ project.writes ids) : src = src' := by
  obtain ⟨p, package, g, grouped, i, forked, target, c, member, named, from_, _⟩ :=
    mem_writes first
  obtain ⟨q, package', h, grouped', j, forked', target', e, member', named', from_', _⟩ :=
    mem_writes second
  have numbers := targetDir_injective (target.symm.trans target')
  have equal := fork_eq_of_id forked forked' numbers
  have sources : g.1 = h.1 := congrArg ForkedBuild.source equal
  have chroots : g.2 = h.2 := congrArg ForkedBuild.chroots equal
  have here := mem_chroots_of_group grouped member
  have there := mem_chroots_of_group grouped (chroots ▸ member')
  have same : c = e :=
    List.inj_on_of_nodup_map g.1.distinct here there (named.trans named'.symm)
  rw [← from_, ← from_', same]

/-- At first nothing is found. -/
theorem emptyMap_finds {name src dst : String} : ¬ Finds project.emptyMap name src dst := by
  have general : ∀ (chroots : List MockChroot) (dict : Nested String String String),
      ¬ Finds dict name src dst →
        ¬ Finds (chroots.foldl (fun dict c => dict.insert c.name ∅) dict) name src dst := by
    intro chroots
    induction chroots with
    | nil => exact fun _ => id
    | cons c rest ih =>
      intro dict nothing
      refine ih _ ?_
      by_cases same : name = c.name
      · subst same
        simp [Finds]
      · simpa [Finds, AList.lookup_insert_ne same] using nothing
  exact general _ _ (by simp [Finds])

/-- Under the name of a chroot `builds_map` has exactly what was written. -/
theorem buildsMap_finds {name src dst : String} (chroot : name ≠ "srpm-builds") :
    Finds (project.buildsMap ids) name src dst ↔ (name, src, dst) ∈ project.writes ids := by
  rw [← finds_setAll writes_functional fun _ _ _ => @emptyMap_finds project _ _ _]
  simp [Finds, SourceProject.buildsMap, AList.lookup_insert_ne chroot]

end Copr
