import Copr.Frontend.Forking
import Copr.Backend.ActionResults

/-!
# What a fork contains

A fork is complete when it has, for every package and chroot, the results of the newest successful
build in the main directory of the source. This composes `fork_copr` in the frontend with the fork
action on the backend.
-/

namespace Copr

open Dicts

/-! ## Complete forks -/

section Complete

variable {Results : Type}

/-- The results of a build in the main directory of a project, if they have a directory. -/
def Disk.resultsOf (disk : Disk Results) (path : ProjectPath) (c : BuildChroot) : Option Results :=
  if c.resultDir = "" then none else disk (path.chroot c.name) c.resultDir

/-- The destination has the results of the newest successful builds in the main directory of the
source, where the forked builds say that they are. -/
def SourceProject.CompleteFork (project : SourceProject) (world : Forking Results)
    (destination : ProjectPath) (forks : List ForkedBuild) (before after : Disk Results) : Prop :=
  ∀ p ∈ project.packages, ∀ chroot ∈ p.chroots project.activeChroots, ∀ b c,
    p.newestInMain chroot = some (b, c) →
      ∃ f ∈ forks, f.source = b ∧ ∃ fc ∈ f.build.buildChroots,
        fc.name = chroot.name ∧ fc.status = .forked ∧
          ∃ results, before.resultsOf project.path c = some results ∧
            after.resultsOf destination fc = some (world.resigned chroot.name results)

/-- No newer build of the package succeeded in the chroot, whatever its directory. -/
def SourcePackage.NothingNewer (p : SourcePackage) (chroot : MockChroot) (b : SourceBuild) :
    Prop :=
  ∃ older newer, p.builds = older ++ b :: newer ∧ ∀ d ∈ newer, d.succeededIn chroot = none

/-- What a complete fork needs: the newest successful builds in the main directory are the newest
of all, have results, and copying them succeeds. -/
def SourceProject.Copyable (project : SourceProject) (world : Forking Results)
    (forks : List ForkedBuild) (before : Disk Results) : Prop :=
  ∀ p ∈ project.packages, ∀ chroot ∈ p.chroots project.activeChroots, ∀ b c,
    p.newestInMain chroot = some (b, c) →
      p.NothingNewer chroot b ∧ (before.resultsOf project.path c).isSome = true ∧
        ∀ f ∈ forks, f.source = b →
          world.copyTree chroot.name c.resultDir (targetDir f.build.id p.name) = true

end Complete

/-! ## What is forked -/

/-- The newest build in the main directory is one of the builds and succeeded. -/
theorem newestInMain_spec {p : SourcePackage} {chroot : MockChroot} {b : SourceBuild}
    {c : BuildChroot} (newest : p.newestInMain chroot = some (b, c)) :
    b ∈ p.builds ∧ b.succeededIn chroot = some c := by
  obtain ⟨member, succeeded⟩ := lastSuccessful_spec newest
  exact ⟨(List.mem_filter.mp member).1, succeeded⟩

/-- The newest build in the main directory is the newest of all when nothing newer succeeded. -/
theorem nothingNewer_iff {p : SourcePackage} {chroot : MockChroot} {b : SourceBuild}
    {c : BuildChroot} (newest : p.newestInMain chroot = some (b, c)) :
    p.NothingNewer chroot b ↔ lastSuccessful p.builds chroot = some (b, c) := by
  rw [lastSuccessful_eq_some]
  constructor
  · rintro ⟨older, newer, split, failed⟩
    exact ⟨older, newer, split, (newestInMain_spec newest).2, failed⟩
  · rintro ⟨older, newer, split, _, failed⟩
    exact ⟨older, newer, split, failed⟩

variable {project : SourceProject} {ids : Nat ↪ Nat}

/-- A build belongs to one package. -/
theorem SourceProject.package_eq {p q : SourcePackage} (first : p ∈ project.packages)
    (second : q ∈ project.packages) {b : SourceBuild} (here : b ∈ p.builds)
    (there : b ∈ q.builds) : p = q := by
  obtain ⟨_, apart⟩ := List.nodup_flatMap.mp project.ids
  have symmetric : Std.Symm (Function.onFun List.Disjoint SourcePackage.builds) :=
    ⟨fun _ _ disjoint => disjoint.symm⟩
  by_contra different
  exact apart.forall first second different here there

/-- A chroot of a forked build comes from the newest successful build there. -/
theorem lastSuccessful_of_fork {f : ForkedBuild} (forked : f ∈ project.forks ids)
    {fc : BuildChroot} (member : fc ∈ f.build.buildChroots) {p : SourcePackage}
    (package : p ∈ project.packages) (build : f.source ∈ p.builds) {chroot : MockChroot}
    (named : fc.name = chroot.name) :
    ∃ c, lastSuccessful p.builds chroot = some (f.source, c) ∧
      fc = forkedChroot f.build.id p c := by
  obtain ⟨q, package', g, grouped, same⟩ := mem_forks forked
  have source : f.source = g.1 := congrArg ForkedBuild.source same
  have build' : f.source ∈ q.builds :=
    source ▸ mem_builds_of_group (List.mem_map_of_mem (f := Prod.fst) grouped)
  obtain rfl := project.package_eq package package' build build'
  have chroots : f.build.buildChroots = g.2.map (forkedChroot f.build.id p) :=
    congrArg (fun f => f.build.buildChroots) same
  rw [chroots] at member
  obtain ⟨c, inside, rfl⟩ := List.mem_map.mp member
  obtain ⟨other, _, newest⟩ := mem_lastSuccessfulBuildChroots.mp ⟨g.2, grouped, inside⟩
  have names : c.name = other.name := (succeededIn_spec (lastSuccessful_spec newest).2).2
  refine ⟨c, ?_, rfl⟩
  rw [source, ← newest]
  exact (lastSuccessful_congr (names.symm.trans named)).symm

/-- The newest successful build of a package in a chroot is forked with it, and the directories
are written into `builds_map` if there is one. -/
theorem exists_fork_of_newest {p : SourcePackage} (package : p ∈ project.packages)
    {chroot : MockChroot} (active : chroot ∈ p.chroots project.activeChroots) {b : SourceBuild}
    {c : BuildChroot} (newest : lastSuccessful p.builds chroot = some (b, c)) :
    ∃ f ∈ project.forks ids, f.source = b ∧
      forkedChroot f.build.id p c ∈ f.build.buildChroots ∧
        (c.resultDir ≠ "" →
          (c.name, c.resultDir, targetDir f.build.id p.name) ∈ project.writes ids) := by
  obtain ⟨chroots, grouped, inside⟩ :=
    mem_lastSuccessfulBuildChroots.mpr ⟨chroot, active, newest⟩
  obtain ⟨id, forked⟩ := @exists_fork project ids p package _ grouped
  refine ⟨_, forked, rfl, List.mem_map_of_mem inside, fun nonempty => ?_⟩
  exact List.mem_flatMap.mpr
    ⟨_, forked, mem_chrootWrites.mpr ⟨c, inside, rfl, rfl, nonempty, rfl⟩⟩

/-! ## What is copied -/

section Copied

variable {Results : Type} {world : Forking Results} {action : ForkAction} {disk : Disk Results}

/-- What was written into `builds_map` is what the destination has in the end. -/
theorem forkedChroots_of_written (sent : action.buildsMap = project.buildsMap ids)
    {c : BuildChroot} {src dst : String} (written : (c.name, src, dst) ∈ project.writes ids)
    (nonempty : src ≠ "" ∧ dst ≠ "") :
    action.forkedChroots world action.buildsMap.entries disk (action.destination.chroot c.name)
      dst = action.forked world disk c.name src dst := by
  have finds := @buildsMap_finds project ids
  obtain ⟨dirs, listed, looked⟩ := (finds c.name_ne_srpmBuilds).mpr written
  have member : (⟨c.name, dirs⟩ : Sigma fun _ : String => ForkedDirs) ∈
      action.buildsMap.entries := sent ▸ AList.mem_lookup_iff.mp listed
  have distinct : (dirs.entries.map Sigma.snd).Nodup := by
    refine List.Nodup.map_on ?_ (List.Nodup.of_map Sigma.fst dirs.nodupKeys)
    rintro ⟨src, dst⟩ first ⟨src', dst'⟩ second same
    obtain rfl : dst = dst' := same
    have here := (finds c.name_ne_srpmBuilds).mp ⟨dirs, listed, AList.mem_lookup_iff.mpr first⟩
    have there := (finds c.name_ne_srpmBuilds).mp ⟨dirs, listed, AList.mem_lookup_iff.mpr second⟩
    rw [writes_injective here there]
  exact forkedChroots_self action.buildsMap.nodupKeys member distinct
    (AList.mem_lookup_iff.mp looked) nonempty

end Copied

/-- What `fork_copr` sends: the forks of the plan and an action from the project to the destination.
-/
theorem forkCopr_spec {destination : ProjectPath} {existing : Option StorageEnum}
    {forks : List ForkedBuild} {action : ForkAction}
    (sent : project.forkCopr ids destination existing = some (forks, action)) :
    forks = project.forks ids ∧ action.source = project.path ∧
      action.destination = destination ∧ action.storage = project.storage ∧
        action.buildsMap = project.buildsMap ids := by
  unfold SourceProject.forkCopr at sent
  split at sent
  · cases sent
  · split at sent
    · obtain ⟨rfl, rfl⟩ := Prod.mk.inj (Option.some.inj sent)
      exact ⟨rfl, rfl, rfl, rfl, rfl⟩
    · cases sent

/-- A fork into a new project is sent. -/
theorem forkCopr_new {destination : ProjectPath} (differ : project.path ≠ destination) :
    ∃ action, project.forkCopr ids destination none = some (project.forks ids, action) := by
  simp [SourceProject.forkCopr, differ]

section Backend

variable {Results : Type} {world : Forking Results} {action : ForkAction} {disk : Disk Results}

/-- The results of a build that is forked arrive when it has some and copying them succeeds. -/
theorem resultsOf_fork (sent : action.buildsMap = project.buildsMap ids)
    (source : action.source = project.path) {p : SourcePackage} {c : BuildChroot} {id : Nat}
    (written : c.resultDir ≠ "" →
      (c.name, c.resultDir, targetDir id p.name) ∈ project.writes ids) {results : Results}
    (before : disk.resultsOf project.path c = some results) :
    Disk.resultsOf (action.forkedChroots world action.buildsMap.entries disk) action.destination
        (forkedChroot id p c) =
      if world.copyTree c.name c.resultDir (targetDir id p.name) then
        some (world.resigned c.name results)
      else none := by
  unfold Disk.resultsOf at before
  split at before
  · cases before
  · rename_i nonempty
    have named : targetDir id p.name ≠ "" := targetDir_ne_empty id p.name
    have copied := @forkedChroots_of_written project ids _ world action disk sent _ _ _
      (written nonempty) ⟨nonempty, named⟩
    rw [ForkAction.forked, source, before, Option.map_some] at copied
    unfold Disk.resultsOf
    rw [if_neg (show (forkedChroot id p c).resultDir ≠ "" from named)]
    exact copied

/-- In the backend storage a fork is complete exactly when what it needs was there. -/
theorem completeFork_iff (sent : action.buildsMap = project.buildsMap ids)
    (source : action.source = project.path) :
    project.CompleteFork world action.destination (project.forks ids) disk
        (action.forkedChroots world action.buildsMap.entries disk) ↔
      project.Copyable world (project.forks ids) disk := by
  constructor
  · intro complete p package chroot active b c newest
    obtain ⟨f, forked, rfl, fc, member, named, _, results, before, after⟩ :=
      complete p package chroot active b c newest
    obtain ⟨build, succeeded⟩ := newestInMain_spec newest
    obtain ⟨c', newestOfAll, rfl⟩ := lastSuccessful_of_fork forked member package build named
    obtain rfl : c = c' :=
      Option.some.inj (succeeded.symm.trans (lastSuccessful_spec newestOfAll).2)
    refine ⟨(nothingNewer_iff newest).mpr newestOfAll, by rw [before]; rfl, ?_⟩
    intro g forked' same
    obtain ⟨h, forked'', same', _, written⟩ :=
      @exists_fork_of_newest project ids p package chroot active _ c newestOfAll
    obtain rfl := fork_eq_of_source forked' forked same
    obtain rfl := fork_eq_of_source forked'' forked' same'
    rw [resultsOf_fork sent source written before] at after
    rw [← (succeededIn_spec succeeded).2]
    by_contra failed
    rw [if_neg failed] at after
    cases after
  · intro copyable p package chroot active b c newest
    obtain ⟨nothing, has, copies⟩ := copyable p package chroot active b c newest
    obtain ⟨results, before⟩ := Option.isSome_iff_exists.mp has
    obtain ⟨f, forked, rfl, member, written⟩ :=
      @exists_fork_of_newest project ids p package chroot active _ c
        ((nothingNewer_iff newest).mp nothing)
    have name := (succeededIn_spec (newestInMain_spec newest).2).2
    refine ⟨f, forked, rfl, _, member, name, rfl, results, before, ?_⟩
    rw [resultsOf_fork sent source written before, name, if_pos (copies f forked rfl)]

end Backend

/-- A fork that succeeds is complete exactly when what it needs was there, or nothing can
succeed. -/
theorem fork_complete_iff {Results : Type} (project : SourceProject) (ids : Nat ↪ Nat)
    (destination : ProjectPath) (existing : Option StorageEnum) (world : Forking Results)
    (disk : Disk Results) {forks : List ForkedBuild} {action : ForkAction}
    (sent : project.forkCopr ids destination existing = some (forks, action)) :
    ((action.run world disk).1 = .success →
      project.CompleteFork world destination forks disk (action.run world disk).2) ↔
        (project.storage = .backend → action.OtherSteps world disk →
          project.Copyable world forks disk) := by
  obtain ⟨rfl, source, rfl, storage, map⟩ := forkCopr_spec sent
  cases kind : project.storage with
  | pulp =>
    have fails := @ForkAction.run_pulp_ne _ world action disk (storage.trans kind)
    simp [fails]
  | backend =>
    have succeeds := @ForkAction.run_backend_success _ world action disk (storage.trans kind)
    rw [forall_prop_of_true rfl, ← completeFork_iff map source]
    constructor
    · intro complete steps
      have run := succeeds.mpr ⟨steps, rfl⟩
      rw [run] at complete
      exact complete rfl
    · intro complete succeeded
      obtain ⟨steps, _⟩ := succeeds.mp (Prod.ext succeeded rfl)
      rw [succeeds.mpr ⟨steps, rfl⟩]
      exact complete steps

namespace Sample

/-- The chroot of the project. -/
def fedora42 : MockChroot := ⟨"fedora", "42", "x86_64", "f42"⟩

/-- A build that succeeded. -/
def succeededBuild (id : Nat) (resultDir : String) (main : Bool) : SourceBuild where
  build :=
    { id := id
      sourceStatus := .succeeded
      package := some "hello"
      buildChroots := [{
        mockChroot := fedora42
        status := .succeeded
        resultDir := resultDir }] }
  distinct := List.nodup_singleton _
  main := main

/-- A build of the package, perhaps followed by one for a pull request. -/
def hello (pullRequest : Bool) : SourcePackage where
  name := "hello"
  builds := succeededBuild 1 "00000001-hello" true ::
    if pullRequest then [succeededBuild 2 "00000002-hello" false] else []
  denied := none

/-- A project with the package. -/
def source (pullRequest : Bool) : SourceProject where
  path := ⟨"owner", "project"⟩
  storage := .backend
  activeChroots := [fedora42]
  packages := [hello pullRequest]
  ids := by cases pullRequest <;> decide
  resultDirs := by
    intro p first q second
    obtain rfl := List.mem_singleton.mp first
    obtain rfl := List.mem_singleton.mp second
    cases pullRequest <;> decide

/-- The results of the first build are in the main directory. -/
def mainDirectory : Disk String := fun path dir =>
  if path = ⟨"owner", "project", "fedora-42-x86_64"⟩ ∧ dir = "00000001-hello" then
    some "hello-1.rpm"
  else none

/-- The next ids. -/
def nextIds : Nat ↪ Nat := ⟨(· + 3), fun _ _ same => Nat.add_right_cancel same⟩

end Sample

/-- Without a newer build elsewhere the fork is complete if it succeeds. -/
theorem fork_complete_iff_sample : ∃ forks action,
    (Sample.source false).forkCopr Sample.nextIds ⟨"owner", "fork"⟩ none = some (forks, action) ∧
      ((action.run (Sample.forking true) Sample.mainDirectory).1 = .success →
        (Sample.source false).CompleteFork (Sample.forking true) ⟨"owner", "fork"⟩ forks
          Sample.mainDirectory (action.run (Sample.forking true) Sample.mainDirectory).2) := by
  obtain ⟨action, sent⟩ := @forkCopr_new (Sample.source false) Sample.nextIds ⟨"owner", "fork"⟩
    (by decide)
  refine ⟨_, action, sent, (fork_complete_iff _ _ _ _ _ _ sent).mpr fun _ _ => ?_⟩
  intro p package chroot active b c newest
  obtain rfl := List.mem_singleton.mp package
  obtain rfl := List.mem_singleton.mp active
  obtain ⟨rfl, rfl⟩ := Prod.mk.inj (Option.some.inj newest)
  exact ⟨(nothingNewer_iff newest).mpr (by decide), by decide, fun _ _ _ => rfl⟩

/-- A newer build for a pull request is forked in the place of the one in the main directory, and
nothing is copied for it: the fork succeeds without any results. -/
theorem fork_not_complete : ∃ forks action,
    (Sample.source true).forkCopr Sample.nextIds ⟨"owner", "fork"⟩ none = some (forks, action) ∧
      (action.run (Sample.forking true) Sample.mainDirectory).1 = .success ∧
        ¬ (Sample.source true).CompleteFork (Sample.forking true) ⟨"owner", "fork"⟩ forks
          Sample.mainDirectory (action.run (Sample.forking true) Sample.mainDirectory).2 := by
  obtain ⟨action, sent⟩ := @forkCopr_new (Sample.source true) Sample.nextIds ⟨"owner", "fork"⟩
    (by decide)
  obtain ⟨_, source, destination, storage, map⟩ := forkCopr_spec sent
  have steps : action.OtherSteps (Sample.forking true) Sample.mainDirectory :=
    ⟨fun _ => ⟨rfl, rfl⟩, rfl, fun _ _ _ _ _ => ⟨rfl, fun _ => rfl⟩,
      fun _ _ _ => ⟨rfl, fun _ => rfl⟩⟩
  have run := (ForkAction.run_backend_success storage).mpr ⟨steps, rfl⟩
  refine ⟨_, action, sent, by rw [run], fun complete => ?_⟩
  rw [run, ← destination] at complete
  have copyable := (completeFork_iff map source).mp complete
  have newest : (Sample.hello true).newestInMain Sample.fedora42 =
      some (Sample.succeededBuild 1 "00000001-hello" true, _) := rfl
  obtain ⟨nothing, _⟩ := copyable _ (List.mem_singleton_self _) _ (List.mem_singleton_self _) _ _
    newest
  exact absurd ((nothingNewer_iff newest).mp nothing) (by decide)

end Copr
