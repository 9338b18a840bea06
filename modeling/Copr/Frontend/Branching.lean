import Mathlib.Data.List.Dedup
import Mathlib.Order.Basic
import Copr.Lib.Tables
import Copr.Lib.Traces
import Copr.Common.ActionData
import Copr.Frontend.Models

/-!
# Branching

`rawhide_to_release_function`: the newest builds of a rawhide chroot get a `BuildChroot` in the
chroot that is branched from it, and the backend is told to copy their results.
-/

namespace Copr

open Tables

/-- The two chroots that the command is called with, which exist. -/
structure Branch where
  /-- `mock_rawhide_chroot`. -/
  rawhide : MockChroot
  /-- `mock_chroot`. -/
  dest : MockChroot
  /-- A chroot is not branched from itself. -/
  differ : rawhide.name ≠ dest.name

/-- The columns of a `Copr` that never change. -/
structure StoredCopr where
  /-- `owner_name`. -/
  ownerName : String
  /-- `name`. -/
  name : String
  /-- `storage`. -/
  storage : StorageEnum
  deriving DecidableEq, Repr

/-- A `CoprDir`. -/
structure StoredDir where
  /-- `copr`. -/
  copr : StoredCopr
  /-- `name`. -/
  name : String
  deriving DecidableEq, Repr

/-- A `Copr` as the command sees it. -/
structure BranchedCopr where
  /-- The columns that never change. -/
  copr : StoredCopr
  /-- `appstream`. -/
  appstream : Bool
  /-- `auto_createrepo`. -/
  autoCreaterepo : Bool
  /-- `follow_fedora_branching`. -/
  followFedoraBranching : Bool
  /-- The mock chroots of `copr_chroots`. -/
  coprChroots : List MockChroot
  /-- The names of `dirs`. -/
  dirs : List String
  deriving DecidableEq, Repr

/-- A `Build` in its directory. -/
structure BranchedBuild where
  /-- `id`. -/
  id : Nat
  /-- `copr_dir`. -/
  coprDir : StoredDir
  /-- The name of `package`. -/
  package : String
  /-- `build_chroots`. -/
  buildChroots : List BuildChroot
  /-- The unique constraint on the chroots of a build. -/
  distinct : (buildChroots.map BuildChroot.name).Nodup

namespace BranchedBuild

/-- The `BuildChroot` in a mock chroot. -/
def chroot (b : BranchedBuild) (m : MockChroot) : Option BuildChroot :=
  b.buildChroots.find? fun c => decide (c.name = m.name)

/-- The build succeeded in a mock chroot. -/
def succeededIn (b : BranchedBuild) (m : MockChroot) : Bool :=
  b.buildChroots.any fun c => decide (c.name = m.name) && decide (c.status = .succeeded)

/-- `mock_chroot in build.chroots`. -/
def hasChroot (b : BranchedBuild) (m : MockChroot) : Bool :=
  b.buildChroots.any fun c => decide (c.name = m.name)

/-- `job.target_dir_name`: where the backend stores the results. -/
def targetDirName (b : BranchedBuild) : String := targetDir b.id b.package

/-- A `BuildChroot` is added, if there is none for the mock chroot. -/
def withChroot (b : BranchedBuild) (c : BuildChroot) : BranchedBuild :=
  if fresh : c.name ∈ b.buildChroots.map BuildChroot.name then b
  else
    { b with
      buildChroots := b.buildChroots ++ [c]
      distinct := by
        rw [List.map_append]
        apply List.nodup_append.mpr
        refine ⟨b.distinct, List.nodup_singleton _, ?_⟩
        intro name here other there same
        rw [List.map_singleton, List.mem_singleton] at there
        rw [same, there] at here
        exact fresh here }

/-- Some columns of the `BuildChroot`s change. -/
def mapChroots (b : BranchedBuild) (change : BuildChroot → BuildChroot)
    (keeps : ∀ c, (change c).name = c.name) : BranchedBuild :=
  { b with
    buildChroots := b.buildChroots.map change
    distinct := by
      have same : (b.buildChroots.map change).map BuildChroot.name =
          b.buildChroots.map BuildChroot.name := by
        rw [List.map_map]
        apply List.map_congr_left
        intro c _
        exact keeps c
      rw [same]
      exact b.distinct }

/-- `rbc`: the loop over the chroots ends with the rawhide chroot, or else with the last one. -/
def rawhideBuildChroot (b : BranchedBuild) (rawhide : MockChroot) : Option BuildChroot :=
  (b.chroot rawhide).or b.buildChroots.getLast?

end BranchedBuild

/-- `dest_build_chroot`, from the columns of `rbc`. -/
def forkedInto (dest : MockChroot) (rbc : BuildChroot) : BuildChroot :=
  { rbc with
    mockChroot := dest
    status := .forked
    results := [] }

/-- What the command does with a build to fork: it has a `BuildChroot` in the new chroot. -/
def BranchedBuild.branch (br : Branch) (b : BranchedBuild) : BranchedBuild :=
  match b.rawhideBuildChroot br.rawhide with
  | some rbc => b.withChroot (forkedInto br.dest rbc)
  | none => b

/-- What the command appends to `data["builds"]` for a build to fork. -/
def BranchedBuild.listed (br : Branch) (retryForked : Bool) (b : BranchedBuild) : List String :=
  if b.hasChroot br.dest && !retryForked then []
  else
    match b.rawhideBuildChroot br.rawhide with
    | some rbc => if rbc.resultDir = "" then [] else [rbc.resultDir]
    | none => []

/-- `data` of a `rawhide_to_release` action. -/
structure RawhideToReleaseData where
  /-- `projectname`. -/
  projectname : String
  /-- `ownername`. -/
  ownername : String
  /-- `copr_dir`. -/
  coprDir : String
  /-- `rawhide_chroot`. -/
  rawhideChroot : String
  /-- `appstream`. -/
  appstream : Bool
  /-- `dest_chroot`. -/
  destChroot : String
  /-- `storage`. -/
  storage : StorageEnum
  /-- `builds`. -/
  builds : List String
  deriving DecidableEq, Repr

/-- The actions that the command sends. -/
inductive BranchingAction
  /-- `createrepo` of some chroots in some directories, maybe of the `devel` repository. -/
  | createrepo (copr : StoredCopr) (projectDirnames chroots : List String)
      (appstream devel : Bool)
  /-- `rawhide_to_release`. -/
  | rawhideToRelease (data : RawhideToReleaseData)
  deriving DecidableEq, Repr

/-- An action in the database. -/
structure SentAction where
  /-- What to do. -/
  content : BranchingAction
  /-- `result`; none while the action waits. -/
  result : Option BackendResultEnum := none
  deriving DecidableEq, Repr

/-- `send_createrepo` for one directory and one chroot. -/
def sendCreaterepo (copr : BranchedCopr) (dirname chroot : String) : List SentAction :=
  let action := BranchingAction.createrepo copr.copr [dirname] [chroot] copr.appstream
  ⟨action false, none⟩ :: if copr.autoCreaterepo then [] else [⟨action true, none⟩]

/-- The tables that the command reads and writes. -/
structure BranchDatabase where
  /-- `Copr`. -/
  coprs : List BranchedCopr
  /-- `Build`. -/
  builds : Table BranchedBuild.id
  /-- `Action`, the oldest first. -/
  actions : List SentAction

namespace BranchDatabase

/-- `latest_pkg_builds_in_rawhide`. -/
def latestPkgBuildsInRawhide (db : BranchDatabase) (dir : StoredDir) (rawhide : MockChroot) :
    List Nat :=
  let rows := db.builds.rows.filter fun b => decide (b.coprDir = dir) && b.succeededIn rawhide
  (rows.map BranchedBuild.package).dedup.filterMap fun package =>
    ((rows.filter fun b => decide (b.package = package)).map BranchedBuild.id).max?

/-- `builds_to_fork`. -/
def buildsToFork (db : BranchDatabase) (dir : StoredDir) (rawhide : MockChroot) :
    List BranchedBuild :=
  db.builds.rows.filter fun b => decide (b.id ∈ db.latestPkgBuildsInRawhide dir rawhide)

/-- The primary key stays. -/
theorem branch_id (br : Branch) (b : BranchedBuild) : (b.branch br).id = b.id := by
  unfold BranchedBuild.branch
  split
  · unfold BranchedBuild.withChroot
    split <;> rfl
  · rfl

variable (br : Branch) (retryForked : Bool)

/-- `data` for a directory. -/
def branchData (db : BranchDatabase) (copr : BranchedCopr) (dirname : String) :
    RawhideToReleaseData where
  projectname := copr.copr.name
  ownername := copr.copr.ownerName
  coprDir := dirname
  rawhideChroot := br.rawhide.name
  appstream := copr.appstream
  destChroot := br.dest.name
  storage := copr.copr.storage
  builds := (db.buildsToFork ⟨copr.copr, dirname⟩ br.rawhide).flatMap (·.listed br retryForked)

/-- The loop body for a directory. -/
def processDir (copr : BranchedCopr) (db : BranchDatabase) (dirname : String) :
    BranchDatabase :=
  let forkBuilds := db.buildsToFork ⟨copr.copr, dirname⟩ br.rawhide
  if forkBuilds.isEmpty then
    { db with actions := db.actions ++ sendCreaterepo copr dirname br.dest.name }
  else
    let data := db.branchData br retryForked copr dirname
    { db with
      builds := db.builds.update (fun b => decide (b.id ∈ forkBuilds.map BranchedBuild.id))
        (·.branch br) (branch_id br)
      actions := db.actions ++
        if data.builds.isEmpty then [] else [⟨.rawhideToRelease data, none⟩] }

/-- `turn_on_the_chroot_for_copr`. -/
def turnOn (copr : BranchedCopr) : BranchedCopr :=
  if copr.coprChroots.any fun m => decide (m.name = br.dest.name) then copr
  else { copr with coprChroots := copr.coprChroots ++ [br.dest] }

/-- The loop body for a project. -/
def processCopr (db : BranchDatabase) (copr : BranchedCopr) : BranchDatabase :=
  copr.dirs.foldl (processDir br retryForked copr)
    { db with
      coprs := db.coprs.map fun c => if c.copr = copr.copr then turnOn br c else c }

/-- `coprs_query`. -/
def branchedCoprs (db : BranchDatabase) : List BranchedCopr :=
  db.coprs.filter fun copr => copr.followFedoraBranching &&
    copr.coprChroots.any fun m => decide (m.name = br.rawhide.name)

/-- `rawhide_to_release_function`. -/
def rawhideToReleaseFunction (db : BranchDatabase) : BranchDatabase :=
  (db.branchedCoprs br).foldl (processCopr br retryForked) db

end BranchDatabase

/-! ## The chroots of a build -/

namespace BranchedBuild

variable {b : BranchedBuild} {m : MockChroot} {c : BuildChroot}

/-- The build succeeded in a mock chroot, or was forked there. -/
def goodIn (b : BranchedBuild) (m : MockChroot) : Bool :=
  b.buildChroots.any fun c =>
    decide (c.name = m.name) && decide (c.status = .succeeded ∨ c.status = .forked)

/-- The chroot that is found is the one with the name. -/
theorem chroot_eq_some : b.chroot m = some c ↔ c ∈ b.buildChroots ∧ c.name = m.name := by
  constructor
  · intro found
    exact ⟨List.mem_of_find?_eq_some found, by simpa using List.find?_some found⟩
  · rintro ⟨member, named⟩
    cases found : b.chroot m with
    | none =>
      have absent := List.find?_eq_none.mp found c member
      simp [named] at absent
    | some other =>
      have inside := List.mem_of_find?_eq_some found
      have same : other.name = m.name := by simpa using List.find?_some found
      rw [List.inj_on_of_nodup_map b.distinct inside member (same.trans named.symm)]

/-- A build succeeded in a chroot when its `BuildChroot` there has. -/
theorem succeededIn_iff : b.succeededIn m = true ↔
    ∃ c, b.chroot m = some c ∧ c.status = .succeeded := by
  simp [succeededIn, chroot_eq_some, and_assoc]

/-- A build is good in a chroot when its `BuildChroot` there succeeded or is forked. -/
theorem goodIn_iff : b.goodIn m = true ↔
    ∃ c, b.chroot m = some c ∧ (c.status = .succeeded ∨ c.status = .forked) := by
  simp [goodIn, chroot_eq_some, and_assoc]

/-- A build has a chroot when there is a `BuildChroot`. -/
theorem hasChroot_iff : b.hasChroot m = true ↔ ∃ c, b.chroot m = some c := by
  simp [hasChroot, chroot_eq_some]

/-- A build that succeeded is good. -/
theorem goodIn_of_succeeded (succeeded : b.succeededIn m = true) : b.goodIn m = true := by
  have ⟨c, found, status⟩ := succeededIn_iff.mp succeeded
  exact goodIn_iff.mpr ⟨c, found, Or.inl status⟩

/-- The chroots after one was added. -/
theorem chroot_withChroot : (b.withChroot c).chroot m =
    (b.chroot m).or (if c.name = m.name then some c else none) := by
  unfold withChroot
  split
  · rename_i taken
    have ⟨other, inside, named⟩ := List.mem_map.mp taken
    split
    · rename_i same
      rw [chroot_eq_some.mpr ⟨inside, named.trans same⟩, Option.some_or]
    · rw [Option.or_none]
  · unfold chroot
    rw [List.find?_append]
    congr 1
    split <;> simp_all

/-- The chroots after some columns changed. -/
theorem chroot_mapChroots {change : BuildChroot → BuildChroot}
    {keeps : ∀ c, (change c).name = c.name} :
    (b.mapChroots change keeps).chroot m = (b.chroot m).map change := by
  unfold chroot mapChroots
  rw [List.find?_map]
  congr 2
  funext c
  simp [keeps]

/-- The rawhide chroot is the one that the loop ends with, if there is one. -/
theorem rawhideBuildChroot_of_chroot (found : b.chroot m = some c) :
    b.rawhideBuildChroot m = some c := by
  rw [rawhideBuildChroot, found, Option.some_or]

variable {br : Branch}

/-- The directory and the package of a build stay when it is branched. -/
theorem branch_same : (b.branch br).coprDir = b.coprDir ∧ (b.branch br).package = b.package := by
  unfold branch
  split
  · unfold withChroot
    split <;> exact ⟨rfl, rfl⟩
  · exact ⟨rfl, rfl⟩

/-- The other chroots of a build stay when it is branched. -/
theorem chroot_branch_other (other : m.name ≠ br.dest.name) :
    (b.branch br).chroot m = b.chroot m := by
  unfold branch
  split
  · rename_i rbc _
    have different : (forkedInto br.dest rbc).name ≠ m.name := Ne.symm other
    rw [chroot_withChroot, if_neg different, Option.or_none]
  · rfl

/-- A build that is branched has a `BuildChroot` in the new chroot. -/
theorem chroot_branch_dest {rbc : BuildChroot} (found : b.chroot br.rawhide = some rbc) :
    (b.branch br).chroot br.dest = (b.chroot br.dest).or (some (forkedInto br.dest rbc)) := by
  unfold branch
  rw [rawhideBuildChroot_of_chroot found]
  show (b.withChroot (forkedInto br.dest rbc)).chroot br.dest = _
  rw [chroot_withChroot, if_pos (show (forkedInto br.dest rbc).name = br.dest.name from rfl)]

/-- A build stays as good elsewhere when it is branched. -/
theorem goodIn_branch (other : m.name ≠ br.dest.name) :
    (b.branch br).goodIn m = b.goodIn m := by
  rw [Bool.eq_iff_iff, goodIn_iff, goodIn_iff, chroot_branch_other other]

/-- What is listed of a build is the directory of its results in the rawhide chroot. -/
theorem mem_listed {retryForked : Bool} {rbc : BuildChroot} {dir : String}
    (found : b.chroot br.rawhide = some rbc) :
    dir ∈ b.listed br retryForked ↔
      (b.hasChroot br.dest = true → retryForked = true) ∧ rbc.resultDir ≠ "" ∧
        dir = rbc.resultDir := by
  unfold listed
  rw [rawhideBuildChroot_of_chroot found]
  cases b.hasChroot br.dest <;> cases retryForked <;> by_cases empty : rbc.resultDir = "" <;>
    simp [empty]

end BranchedBuild

/-! ## The newest builds -/

/-- The newest build of a package in a directory that is good in a chroot. -/
structure BranchDatabase.Newest (db : BranchDatabase) (dir : StoredDir) (package : String)
    (m : MockChroot) (b : BranchedBuild) : Prop where
  /-- It is in the table. -/
  member : b ∈ db.builds.rows
  /-- It is in the directory. -/
  inside : b.coprDir = dir
  /-- It is a build of the package. -/
  built : b.package = package
  /-- It succeeded or is forked. -/
  good : b.goodIn m = true
  /-- No such build is newer. -/
  last : ∀ o ∈ db.builds.rows, o.coprDir = dir → o.package = package → o.goodIn m = true →
    o.id ≤ b.id

namespace BranchDatabase

variable {db : BranchDatabase} {dir : StoredDir} {package : String} {m : MockChroot}
  {b : BranchedBuild}

/-- Some build is the newest, if there is one at all. -/
theorem exists_newest (some : ∃ b ∈ db.builds.rows, b.coprDir = dir ∧ b.package = package ∧
    b.goodIn m = true) : ∃ b, db.Newest dir package m b := by
  have ⟨first, here, inDir, ofPackage, isGood⟩ := some
  let good := db.builds.rows.filter fun b =>
    decide (b.coprDir = dir) && (decide (b.package = package) && b.goodIn m)
  have ids : good.map BranchedBuild.id ≠ [] := by
    intro none
    have listed : first ∈ good := by simp [good, here, inDir, ofPackage, isGood]
    rw [List.map_eq_nil_iff.mp none] at listed
    exact List.not_mem_nil listed
  have ⟨newest, greatest⟩ := Option.ne_none_iff_exists'.mp
    fun none => ids (List.max?_eq_none_iff.mp none)
  have ⟨listed, bound⟩ := List.max?_eq_some_iff.mp greatest
  have ⟨b, isIn, is⟩ := List.mem_map.mp listed
  have ⟨member, inside, built, isGood⟩ : b ∈ db.builds.rows ∧ b.coprDir = dir ∧
      b.package = package ∧ b.goodIn m = true := by simpa [good] using isIn
  refine ⟨b, member, inside, built, isGood, ?_⟩
  intro o there inside built isGood
  rw [is]
  apply bound
  apply List.mem_map_of_mem
  simp [good, there, inside, built, isGood]

/-- The builds to fork are the newest ones that succeeded. -/
theorem mem_buildsToFork : b ∈ db.buildsToFork dir m ↔
    b ∈ db.builds.rows ∧ b.coprDir = dir ∧ b.succeededIn m = true ∧
      ∀ o ∈ db.builds.rows, o.coprDir = dir → o.succeededIn m = true → o.package = b.package →
        o.id ≤ b.id := by
  rw [buildsToFork, List.mem_filter, decide_eq_true_eq]
  apply and_congr_right
  intro member
  simp only [latestPkgBuildsInRawhide, List.mem_filterMap, List.mem_dedup,
    List.max?_eq_some_iff]
  constructor
  · rintro ⟨package, _, listed, bound⟩
    have ⟨o, isIn, is⟩ := List.mem_map.mp listed
    obtain ⟨there, built, inside, good⟩ : o ∈ db.builds.rows ∧ o.package = package ∧
        o.coprDir = dir ∧ o.succeededIn m = true := by simpa using isIn
    obtain rfl := Table.eq_of_key there member is
    refine ⟨inside, good, ?_⟩
    intro other here isInside isGood same
    apply bound
    apply List.mem_map_of_mem
    simp [here, isInside, isGood, same, built]
  · rintro ⟨inside, good, bound⟩
    refine ⟨b.package, ?_, ?_, ?_⟩
    · apply List.mem_map_of_mem
      simp [member, inside, good]
    · apply List.mem_map_of_mem
      simp [member, inside, good]
    · intro id listed
      have ⟨o, isIn, is⟩ := List.mem_map.mp listed
      have ⟨there, built, isInside, isGood⟩ : o ∈ db.builds.rows ∧ o.package = b.package ∧
          o.coprDir = dir ∧ o.succeededIn m = true := by simpa using isIn
      rw [← is]
      exact bound o there isInside isGood built

/-- The newest build is forked, unless it is a fork itself. -/
theorem Newest.selected (newest : db.Newest dir package m b)
    (succeeded : b.succeededIn m = true) : b ∈ db.buildsToFork dir m := by
  apply mem_buildsToFork.mpr
  refine ⟨newest.member, newest.inside, succeeded, ?_⟩
  intro o there inside good same
  exact newest.last o there inside (same.trans newest.built)
    (BranchedBuild.goodIn_of_succeeded good)

/-! ## One directory -/

section Directory

variable {br : Branch} {retryForked : Bool} {copr : BranchedCopr} {dirname : String}

/-- What an action of the command lists. -/
theorem mem_branchData {name : String} :
    name ∈ (db.branchData br retryForked copr dirname).builds ↔
      ∃ b ∈ db.buildsToFork ⟨copr.copr, dirname⟩ br.rawhide, name ∈ b.listed br retryForked := by
  simp [branchData]

/-- The builds after a directory was processed: those to fork are branched. -/
theorem mem_processDir_builds {b' : BranchedBuild} :
    b' ∈ (processDir br retryForked copr db dirname).builds.rows ↔
      ∃ b ∈ db.builds.rows,
        (b ∈ db.buildsToFork ⟨copr.copr, dirname⟩ br.rawhide ∧ b.branch br = b') ∨
          (b ∉ db.buildsToFork ⟨copr.copr, dirname⟩ br.rawhide ∧ b = b') := by
  simp only [processDir]
  split
  · rename_i empty
    rw [List.isEmpty_iff.mp empty]
    simp
  · show b' ∈ (db.builds.update _ (·.branch br) (branch_id br)).rows ↔ _
    rw [Table.mem_update]
    apply exists_congr
    intro b
    apply and_congr_right
    intro member
    have same : b.id ∈ (db.buildsToFork ⟨copr.copr, dirname⟩ br.rawhide).map BranchedBuild.id ↔
        b ∈ db.buildsToFork ⟨copr.copr, dirname⟩ br.rawhide := by
      constructor
      · intro listed
        have ⟨o, isIn, is⟩ := List.mem_map.mp listed
        rw [← Table.eq_of_key (mem_buildsToFork.mp isIn).1 member is]
        exact isIn
      · exact fun isIn => List.mem_map_of_mem isIn
    by_cases selected : b ∈ db.buildsToFork ⟨copr.copr, dirname⟩ br.rawhide
    · rw [if_pos (decide_eq_true (same.mpr selected))]
      simp [selected]
    · rw [if_neg fun listed => selected (same.mp (of_decide_eq_true listed))]
      simp [selected]

/-- The newest build stays the newest, with its `BuildChroot` if it is branched. -/
theorem Newest.processDir {dir : StoredDir} (newest : db.Newest dir package m b)
    (other : m.name ≠ br.dest.name) (retryForked : Bool) (copr : BranchedCopr)
    (dirname : String) :
    ∃ b', (b' = b ∨ b' = b.branch br) ∧
      (processDir br retryForked copr db dirname).Newest dir package m b' := by
  have same : ∀ o o' : BranchedBuild, o' = o ∨ o' = o.branch br →
      o'.id = o.id ∧ o'.coprDir = o.coprDir ∧ o'.package = o.package ∧
        o'.goodIn m = o.goodIn m := by
    intro o o' either
    cases either with
    | inl is => rw [is]; exact ⟨rfl, rfl, rfl, rfl⟩
    | inr is =>
      rw [is]
      exact ⟨branch_id br o, BranchedBuild.branch_same.1, BranchedBuild.branch_same.2,
        BranchedBuild.goodIn_branch other⟩
  have ⟨b', either, there⟩ : ∃ b', (b' = b ∨ b' = b.branch br) ∧
      b' ∈ (BranchDatabase.processDir br retryForked copr db dirname).builds.rows := by
    by_cases selected : b ∈ db.buildsToFork ⟨copr.copr, dirname⟩ br.rawhide
    · exact ⟨b.branch br, Or.inr rfl, mem_processDir_builds.mpr
        ⟨b, newest.member, Or.inl ⟨selected, rfl⟩⟩⟩
    · exact ⟨b, Or.inl rfl, mem_processDir_builds.mpr
        ⟨b, newest.member, Or.inr ⟨selected, rfl⟩⟩⟩
  have ⟨sameId, sameDir, samePackage, sameGood⟩ := same b b' either
  refine ⟨b', either, there, sameDir.trans newest.inside, samePackage.trans newest.built,
    sameGood.trans newest.good, ?_⟩
  intro o' changed inside built good
  have ⟨o, member, branched⟩ := mem_processDir_builds.mp changed
  have ⟨oId, oDir, oPackage, oGood⟩ := same o o' (by
    cases branched with
    | inl selected => exact Or.inr selected.2.symm
    | inr kept => exact Or.inl kept.2.symm)
  rw [oId, sameId]
  exact newest.last o member (oDir.symm.trans inside) (oPackage.symm.trans built)
    (oGood.symm.trans good)

/-- What `send_createrepo` sends. -/
theorem eq_of_mem_sendCreaterepo {chroot : String} {a : SentAction}
    (sent : a ∈ sendCreaterepo copr dirname chroot) :
    ∃ devel, a = ⟨.createrepo copr.copr [dirname] [chroot] copr.appstream devel, none⟩ := by
  simp only [sendCreaterepo] at sent
  cases sent with
  | head => exact ⟨false, rfl⟩
  | tail _ more =>
    split at more
    · exact absurd more List.not_mem_nil
    · exact ⟨true, List.mem_singleton.mp more⟩

/-- The actions after a directory was processed. -/
theorem processDir_actions (br : Branch) (retryForked : Bool) (copr : BranchedCopr)
    (db : BranchDatabase) (dirname : String) : ∃ sent,
    (processDir br retryForked copr db dirname).actions = db.actions ++ sent ∧
    (∀ a ∈ sent, a.result = none) ∧
    (∀ a ∈ sent, ∀ data, a.content = .rawhideToRelease data →
      data = db.branchData br retryForked copr dirname) ∧
    ((db.branchData br retryForked copr dirname).builds ≠ [] →
      ⟨.rawhideToRelease (db.branchData br retryForked copr dirname), none⟩ ∈ sent) := by
  simp only [processDir]
  split
  · rename_i empty
    refine ⟨_, rfl, ?_, ?_, ?_⟩
    · intro a listed
      have ⟨devel, is⟩ := eq_of_mem_sendCreaterepo listed
      rw [is]
    · intro a listed data content
      have ⟨devel, is⟩ := eq_of_mem_sendCreaterepo listed
      rw [is] at content
      cases content
    · intro nonempty
      exact absurd (by simp [branchData, List.isEmpty_iff.mp empty]) nonempty
  · refine ⟨_, rfl, ?_, ?_, ?_⟩
    · intro a listed
      split at listed
      · exact absurd listed List.not_mem_nil
      · rw [List.mem_singleton.mp listed]
    · intro a listed data content
      split at listed
      · exact absurd listed List.not_mem_nil
      · rw [List.mem_singleton.mp listed] at content
        exact (BranchingAction.rawhideToRelease.inj content).symm
    · intro nonempty
      rw [if_neg fun empty => nonempty (List.isEmpty_iff.mp empty)]
      exact List.mem_singleton_self _

end Directory

/-! ## The whole command -/

variable {br : Branch} {retryForked : Bool} {P Q : BranchDatabase → Prop}

/-- What holds after each directory and does not depend on the settings of projects holds after
the command. -/
theorem rawhideToReleaseFunction_keeps
    (coprs : ∀ db rows, P db → P { db with coprs := rows })
    (dirs : ∀ db copr dirname, P db → P (processDir br retryForked copr db dirname))
    (start : P db) : P (rawhideToReleaseFunction br retryForked db) := by
  apply List.foldlRecOn _ _ start
  intro db holds copr _
  apply List.foldlRecOn _ _ (coprs db _ holds)
  intro db holds dirname _
  exact dirs db copr dirname holds

/-- What one directory is processed for holds after the command. -/
theorem rawhideToReleaseFunction_reaches {copr : BranchedCopr} {dirname : String}
    (followed : copr ∈ db.branchedCoprs br) (inside : dirname ∈ copr.dirs)
    (coprs : ∀ db rows, P db → P { db with coprs := rows })
    (dirs : ∀ db copr dirname, P db → P (processDir br retryForked copr db dirname))
    (laterCoprs : ∀ db rows, P db → Q db → Q { db with coprs := rows })
    (laterDirs : ∀ db copr dirname, P db → Q db →
      Q (processDir br retryForked copr db dirname))
    (now : ∀ db, P db → Q (processDir br retryForked copr db dirname))
    (start : P db) : Q (rawhideToReleaseFunction br retryForked db) := by
  have copr_keeps : ∀ db copr, P db → P (processCopr br retryForked db copr) := by
    intro db copr holds
    apply List.foldlRecOn _ _ (coprs db _ holds)
    intro db holds dirname _
    exact dirs db copr dirname holds
  have copr_later : ∀ db copr, P db → Q db → Q (processCopr br retryForked db copr) := by
    intro db copr holds reached
    have both : P (processCopr br retryForked db copr) ∧
        Q (processCopr br retryForked db copr) := by
      apply List.foldlRecOn (motive := fun db => P db ∧ Q db) _ _
        ⟨coprs db _ holds, laterCoprs db _ holds reached⟩
      intro db holds dirname _
      exact ⟨dirs db copr dirname holds.1, laterDirs db copr dirname holds.1 holds.2⟩
    exact both.2
  apply Traces.foldl_reaches followed (fun db copr _ => copr_keeps db copr)
    (fun db copr _ => copr_later db copr) _ start
  intro db holds
  exact Traces.foldl_reaches inside (fun db name _ => dirs db copr name)
    (fun db name _ => laterDirs db copr name) now (coprs db _ holds)

end BranchDatabase

end Copr
