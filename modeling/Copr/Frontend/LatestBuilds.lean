import Mathlib.Data.List.Sort
import Copr.Lib.Newest
import Copr.Frontend.Paginators

/-!
# The latest builds of packages

`PackageGetList.get` and `GetPackage.get` of `coprs/views/apiv3_ns/apiv3_packages.py`. The list asks
for the latest builds of all packages at once (`get_packages_with_latest_builds_for_dir`), in the
main directory of the project; what it does not find this way, and what is asked for a single
package, comes from `Package.last_build`, which knows no directories.
-/

namespace Copr

/-- A row of the `package` table. -/
structure ListedPackage where
  /-- `id`. -/
  id : Nat
  /-- `name`. -/
  name : String
  /-- `copr_id`. -/
  coprId : Nat
  deriving DecidableEq, Repr

/-- A row of the `build` table. -/
structure PackageBuild where
  /-- `id`. -/
  id : Nat
  /-- `package_id`. -/
  packageId : Option Nat
  /-- `copr_dir_id`. -/
  coprDirId : Option Nat
  /-- `state` is `succeeded`. -/
  succeeded : Bool
  deriving DecidableEq, Repr

/-- A row of the `copr_dir` table. -/
structure PackageDir where
  /-- `id`. -/
  id : Nat
  /-- `copr_id`. -/
  coprId : Nat
  /-- `main`. -/
  main : Bool
  deriving DecidableEq, Repr

/-- The tables. -/
structure PackageTables where
  /-- The packages. -/
  packages : List ListedPackage
  /-- The builds. -/
  builds : List PackageBuild
  /-- The directories. -/
  dirs : List PackageDir
  /-- `id` is the primary key of the packages. -/
  packageIds : (packages.map ListedPackage.id).Nodup
  /-- Ids come from a sequence that starts with one. -/
  positive : ∀ p ∈ packages, 0 < p.id
  /-- The index `package_copr_id_name`. -/
  names : ∀ p ∈ packages, ∀ q ∈ packages, p.coprId = q.coprId → p.name = q.name → p = q
  /-- `id` is the primary key of the builds. -/
  buildIds : (builds.map PackageBuild.id).Nodup

/-- What is sent for a package, apart from its own columns. -/
structure PackageItem where
  /-- The package. -/
  package : ListedPackage
  /-- `latest`. -/
  latest : Option PackageBuild
  /-- `latest_succeeded`. -/
  latestSucceeded : Option PackageBuild
  deriving DecidableEq, Repr

/-- `MAX_PACKAGES_WITHOUT_PAGINATION`. -/
def maxPackagesWithoutPagination : Nat := 10000

namespace PackageTables

variable (tables : PackageTables)

/-- `Copr.main_dir`; `none` when `one` raises an exception. -/
def mainDir (coprId : Nat) : Option PackageDir :=
  match tables.dirs.filter fun dir => dir.coprId = coprId && dir.main with
  | [dir] => some dir
  | _ => none

/-- `Package.builds`. -/
def buildsOf (p : ListedPackage) : List PackageBuild :=
  (tables.builds.filter fun b => b.packageId = some p.id).insertionSort fun a b => a.id ≤ b.id

/-- `Package.last_build`. -/
def lastBuild (p : ListedPackage) (successful : Bool := false) : Option PackageBuild :=
  (tables.buildsOf p).reverse.find? fun b => !successful || b.succeeded

/-- The builds of some packages in a directory. -/
def buildsInDir (dirId : Nat) (pkgIds : List Nat) : List PackageBuild :=
  tables.builds.filter fun b => decide (b.packageId ∈ pkgIds.map some) &&
    decide (b.coprDirId = some dirId)

/-- `builds_ids`: the greatest id of each package. -/
def buildsIds (dirId : Nat) (pkgIds : List Nat) : List Nat :=
  let selected := tables.buildsInDir dirId pkgIds
  (selected.filter fun b => selected.all fun c =>
    decide (c.packageId = b.packageId → c.id ≤ b.id)).map PackageBuild.id

/-- `builds`, in some order. -/
def latestInDir (dirId : Nat) (pkgIds : List Nat) : List PackageBuild :=
  tables.builds.filter fun b => b.id ∈ tables.buildsIds dirId pkgIds

/-- The package whose `latest_build` is set for a build, by its id; nothing is done for a build
without a package. -/
def latestBuildOf (build : PackageBuild) : Option (Nat × PackageBuild) :=
  match build.packageId with
  | none | some 0 => none
  | some packageId => some (packageId, build)

/-- The loop of `get_packages_with_latest_builds_for_dir`: the attributes `latest_build` of the
packages, by their ids. -/
def assignLatest (builds : List PackageBuild) : AList fun _ : Nat => Nat × PackageBuild :=
  Newest.batch Prod.fst (builds.filterMap latestBuildOf)

/-- `to_dict`, for a package that may have the attribute `latest_build`. -/
def toDict (withLatestBuild withLatestSucceededBuild : Bool) (latestBuild : Option PackageBuild)
    (p : ListedPackage) : PackageItem where
  package := p
  latest :=
    if withLatestBuild then
      match latestBuild with
      | some build => some build
      | none => tables.lastBuild p
    else none
  latestSucceeded := if withLatestSucceededBuild then tables.lastBuild p true else none

/-- `models.Package`, with its columns and properties. -/
def packageModel (attributes : String → ModelAttribute ListedPackage) :
    PaginatedModel ListedPackage where
  tablename := "package"
  id := ListedPackage.id
  getAttribute := attributes

/-- `PackagesLogic.get_all`. -/
def getAll (attributes : String → ModelAttribute ListedPackage) (coprId : Nat) :
    Query (packageModel attributes) where
  rows := tables.packages.filter fun p => p.coprId = coprId
  keys := tables.packageIds.sublist (List.filter_sublist.map _)

/-- `PackageGetList.get` may answer with these items, or with this error. -/
def ListAnswers (attributes : String → ModelAttribute ListedPackage) (coprId : Nat)
    (params : PageParams) (withLatestBuild withLatestSucceededBuild : Bool)
    (answer : Except String (List PackageItem)) : Prop :=
  ∃ packages, (Paginator.init params).Gets (tables.getAll attributes coprId) packages ∧
    if maxPackagesWithoutPagination < packages.length then
      answer = .error ("Too many packages, please use pagination. Requests are limited to only " ++
        toString maxPackagesWithoutPagination ++ " packages at once.")
    else if withLatestBuild then
      ∃ dir builds, tables.mainDir coprId = some dir ∧
        builds.Perm (tables.latestInDir dir.id (packages.map ListedPackage.id)) ∧
          answer = .ok (packages.map fun p => tables.toDict withLatestBuild
            withLatestSucceededBuild (((assignLatest builds).lookup p.id).map Prod.snd) p)
    else
      answer = .ok (packages.map fun p =>
        tables.toDict withLatestBuild withLatestSucceededBuild none p)

/-- `GetPackage.get`, for a project with this name. -/
def getPackage (coprId : Nat) (coprName packagename : String)
    (withLatestBuild withLatestSucceededBuild : Bool) : Except String PackageItem :=
  match tables.packages.find? fun p => p.coprId = coprId && p.name = packagename with
  | none => .error ("No package with name " ++ packagename ++ " in copr " ++ coprName)
  | some p => .ok (tables.toDict withLatestBuild withLatestSucceededBuild none p)

/-- A build of a package. -/
def IsBuildOf (p : ListedPackage) (b : PackageBuild) : Prop :=
  b ∈ tables.builds ∧ b.packageId = some p.id

/-- The newest build of a package is in the directory, or none of its builds is. -/
def NewestInDir (dirId : Nat) (p : ListedPackage) : Prop :=
  (∀ b, tables.IsBuildOf p b → b.coprDirId ≠ some dirId) ∨
    ∃ b, tables.IsBuildOf p b ∧ b.coprDirId = some dirId ∧ ∀ c, tables.IsBuildOf p c → c.id ≤ b.id

variable {tables} {p : ListedPackage} {b c : PackageBuild} {dirId : Nat} {pkgIds : List Nat}
  {builds : List PackageBuild} {packages : List ListedPackage}

/-- A build is known by its id. -/
theorem eq_of_buildId (member : b ∈ tables.builds) (other : c ∈ tables.builds)
    (same : b.id = c.id) : b = c :=
  List.inj_on_of_nodup_map tables.buildIds member other same

/-! ## The plain way -/

/-- `buildsOf` lists exactly the builds of a package. -/
theorem mem_buildsOf : b ∈ tables.buildsOf p ↔ tables.IsBuildOf p b := by
  rw [buildsOf, List.mem_insertionSort, List.mem_filter, decide_eq_true_eq, IsBuildOf]

/-- Without a condition the last of the builds is found. -/
theorem lastBuild_eq_head? : tables.lastBuild p = (tables.buildsOf p).reverse.head? := by
  unfold lastBuild
  cases (tables.buildsOf p).reverse <;> rfl

/-- What is found is the newest build. -/
theorem lastBuild_eq_some_iff : tables.lastBuild p = some b ↔
    tables.IsBuildOf p b ∧ ∀ c, tables.IsBuildOf p c → c.id ≤ b.id := by
  have total : Std.Total fun a b : PackageBuild => a.id ≤ b.id :=
    ⟨fun a b => Nat.le_total a.id b.id⟩
  have trans : IsTrans PackageBuild fun a b => a.id ≤ b.id := ⟨fun _ _ _ => Nat.le_trans⟩
  have sorted : (tables.buildsOf p).reverse.Pairwise fun a b => b.id ≤ a.id :=
    List.pairwise_reverse.mpr
      (List.pairwise_insertionSort (fun a b : PackageBuild => a.id ≤ b.id) _)
  have members : ∀ c, c ∈ (tables.buildsOf p).reverse ↔ tables.IsBuildOf p c := by
    intro c
    rw [List.mem_reverse, mem_buildsOf]
  rw [lastBuild_eq_head?]
  cases all : (tables.buildsOf p).reverse with
  | nil =>
    refine iff_of_false (by simp) fun newest => ?_
    have there := (members b).mpr newest.1
    rw [all] at there
    contradiction
  | cons a rest =>
    rw [all] at sorted members
    have below := (List.pairwise_cons.mp sorted).1
    have newest : ∀ c, tables.IsBuildOf p c → c.id ≤ a.id := by
      intro c build
      rcases List.mem_cons.mp ((members c).mpr build) with rfl | later
      · exact Nat.le_refl _
      · exact below c later
    rw [List.head?_cons, Option.some.injEq]
    constructor
    · rintro rfl
      exact ⟨(members a).mp List.mem_cons_self, newest⟩
    · rintro ⟨build, greatest⟩
      have own := (members a).mp List.mem_cons_self
      exact eq_of_buildId own.1 build.1 (Nat.le_antisymm (greatest a own) (newest b build))

/-! ## The fast way -/

/-- The builds with the greatest ids in the directory. -/
theorem mem_latestInDir : b ∈ tables.latestInDir dirId pkgIds ↔
    b ∈ tables.builds ∧ (∃ id ∈ pkgIds, b.packageId = some id) ∧ b.coprDirId = some dirId ∧
      ∀ c ∈ tables.builds, c.coprDirId = some dirId → c.packageId = b.packageId → c.id ≤ b.id := by
  have selected : ∀ c, c ∈ tables.buildsInDir dirId pkgIds ↔
      c ∈ tables.builds ∧ (∃ id ∈ pkgIds, c.packageId = some id) ∧ c.coprDirId = some dirId := by
    intro c
    rw [buildsInDir, List.mem_filter, Bool.and_eq_true, decide_eq_true_eq, decide_eq_true_eq,
      List.mem_map]
    simp only [eq_comm]
  have greatest : ∀ c : PackageBuild, (tables.buildsInDir dirId pkgIds).all (fun d =>
      decide (d.packageId = c.packageId → d.id ≤ c.id)) = true ↔
        ∀ d ∈ tables.buildsInDir dirId pkgIds, d.packageId = c.packageId → d.id ≤ c.id := by
    intro c
    simp only [List.all_eq_true, decide_eq_true_eq]
  rw [latestInDir, List.mem_filter, decide_eq_true_eq, buildsIds, List.mem_map]
  simp only [List.mem_filter, greatest, selected]
  constructor
  · rintro ⟨member, c, ⟨⟨there, listed, inDir⟩, most⟩, same⟩
    obtain rfl := eq_of_buildId there member same
    refine ⟨member, listed, inDir, fun d other sameDir samePackage => ?_⟩
    exact most d ⟨other, samePackage ▸ listed, sameDir⟩ samePackage
  · rintro ⟨member, listed, inDir, most⟩
    exact ⟨member, b, ⟨⟨member, listed, inDir⟩,
      fun d other samePackage => most d other.1 other.2.2 samePackage⟩, rfl⟩

/-- A build counts for the package that its row names, and for no other. -/
theorem latestBuildOf_eq_some {id : Nat} (positive : 0 < id) :
    latestBuildOf b = some (id, c) ↔ b = c ∧ b.packageId = some id := by
  unfold latestBuildOf
  match b.packageId with
  | none => simp
  | some 0 =>
    refine iff_of_false (by simp) fun own => ?_
    have zero := Option.some.inj own.2
    omega
  | some (n + 1) => simp [and_comm]

/-- A package gets its newest build in the directory. -/
theorem assigned_eq_some (known : p ∈ tables.packages)
    (order : builds.Perm (tables.latestInDir dirId pkgIds))
    (assigned : ((assignLatest builds).lookup p.id).map Prod.snd = some b) :
    tables.IsBuildOf p b ∧ b.coprDirId = some dirId ∧
      ∀ c, tables.IsBuildOf p c → c.coprDirId = some dirId → c.id ≤ b.id := by
  obtain ⟨⟨id, build⟩, found, rfl⟩ := Option.map_eq_some_iff.mp assigned
  have there := Newest.mem_of_lookup_batch found
  obtain rfl : id = p.id := there.2
  obtain ⟨first, inLoop, set⟩ := List.mem_filterMap.mp there.1
  obtain ⟨rfl, own⟩ := (latestBuildOf_eq_some (tables.positive p known)).mp set
  obtain ⟨member, -, inDir, most⟩ := mem_latestInDir.mp (order.subset inLoop)
  exact ⟨⟨member, own⟩, inDir, fun c other sameDir =>
    most c other.1 sameDir (other.2.trans own.symm)⟩

/-- Of several builds one has the greatest id. -/
theorem exists_newest {builds : List PackageBuild} (some_ : b ∈ builds) :
    ∃ newest ∈ builds, ∀ c ∈ builds, c.id ≤ newest.id := by
  induction builds generalizing b with
  | nil => contradiction
  | cons first builds ih =>
    cases builds with
    | nil => exact ⟨first, List.mem_cons_self, fun c member => by
        rw [List.mem_singleton.mp member]⟩
    | cons second others =>
      obtain ⟨newest, member, most⟩ := ih List.mem_cons_self
      by_cases before : first.id ≤ newest.id
      · exact ⟨newest, List.mem_cons_of_mem _ member, List.forall_mem_cons.mpr ⟨before, most⟩⟩
      · refine ⟨first, List.mem_cons_self, List.forall_mem_cons.mpr ⟨Nat.le_refl _, ?_⟩⟩
        exact fun c other => (most c other).trans (by omega)

/-- A package gets a build if there is one in the directory. -/
theorem assigned_isSome (known : p ∈ tables.packages) (listed : p.id ∈ pkgIds)
    (order : builds.Perm (tables.latestInDir dirId pkgIds)) (build : tables.IsBuildOf p b)
    (inDir : b.coprDirId = some dirId) :
    ∃ newest, ((assignLatest builds).lookup p.id).map Prod.snd = some newest := by
  have inside : ∀ c, c ∈ (tables.builds.filter fun c =>
      c.packageId = some p.id && c.coprDirId = some dirId) ↔
        tables.IsBuildOf p c ∧ c.coprDirId = some dirId := by
    intro c
    simp [IsBuildOf, and_assoc]
  obtain ⟨newest, member, most⟩ := exists_newest ((inside b).mpr ⟨build, inDir⟩)
  obtain ⟨own, sameDir⟩ := (inside newest).mp member
  have inLoop : newest ∈ builds := by
    refine order.mem_iff.mpr (mem_latestInDir.mpr ⟨own.1, ⟨p.id, listed, own.2⟩, sameDir, ?_⟩)
    intro c other otherDir samePackage
    exact most c ((inside c).mpr ⟨⟨other, samePackage.trans own.2⟩, otherDir⟩)
  have set : (p.id, newest) ∈ builds.filterMap latestBuildOf :=
    List.mem_filterMap.mpr ⟨newest, inLoop,
      (latestBuildOf_eq_some (tables.positive p known)).mpr ⟨rfl, own.2⟩⟩
  have found : ((assignLatest builds).lookup p.id).isSome = true :=
    @Newest.lookup_batch_isSome _ _ _ Prod.fst _ _ set
  obtain ⟨pair, lookup⟩ := Option.isSome_iff_exists.mp found
  exact ⟨pair.2, by rw [lookup, Option.map_some]⟩

/-- With the main directory searched first, the list has the build of the plain way exactly if the
newest build is in the directory, or none is. -/
theorem listed_eq_iff (known : p ∈ tables.packages) (listed : p.id ∈ pkgIds)
    (order : builds.Perm (tables.latestInDir dirId pkgIds)) (withSucceeded : Bool) :
    (tables.toDict true withSucceeded (((assignLatest builds).lookup p.id).map Prod.snd) p).latest =
        (tables.toDict true withSucceeded none p).latest ↔ tables.NewestInDir dirId p := by
  simp only [toDict, if_true]
  cases assigned : ((assignLatest builds).lookup p.id).map Prod.snd with
  | none =>
    refine iff_of_true rfl (Or.inl fun b build inDir => ?_)
    obtain ⟨newest, found⟩ := assigned_isSome known listed order build inDir
    rw [assigned] at found
    contradiction
  | some b =>
    obtain ⟨build, inDir, most⟩ := assigned_eq_some known order assigned
    rw [eq_comm, lastBuild_eq_some_iff]
    constructor
    · exact fun newest => Or.inr ⟨b, build, inDir, newest.2⟩
    · rintro (absent | ⟨newest, own, sameDir, greatest⟩)
      · exact absurd inDir (absent b build)
      · have same := Nat.le_antisymm (greatest b build) (most newest own sameDir)
        obtain rfl := eq_of_buildId build.1 own.1 same
        exact ⟨build, greatest⟩

/-- A package is found by its name. -/
theorem getPackage_eq (known : p ∈ tables.packages) (coprName : String)
    (withLatest withSucceeded : Bool) :
    tables.getPackage p.coprId coprName p.name withLatest withSucceeded =
      .ok (tables.toDict withLatest withSucceeded none p) := by
  have found : (tables.packages.find? fun q => q.coprId = p.coprId && q.name = p.name) =
      some p := by
    cases first : tables.packages.find? fun q => q.coprId = p.coprId && q.name = p.name with
    | none =>
      have other := List.find?_eq_none.mp first p known
      simp at other
    | some q =>
      have same := List.find?_some first
      simp only [Bool.and_eq_true, decide_eq_true_eq] at same
      rw [tables.names q (List.mem_of_find?_eq_some first) p known same.1 same.2]
  rw [getPackage, found]

/-- The build that the list has for a package is the one that a request for the single package
has, exactly if the newest build of the package is in the main directory or none of its builds is
there. -/
theorem latest_builds_agree_iff (tables : PackageTables)
    (attributes : String → ModelAttribute ListedPackage) (coprId : Nat) (coprName : String)
    (params : PageParams) (withSucceeded : Bool) (items : List PackageItem)
    (answered : tables.ListAnswers attributes coprId params true withSucceeded (.ok items))
    (dir : PackageDir) (main : tables.mainDir coprId = some dir) :
    ∀ item ∈ items, ∃ single,
      tables.getPackage coprId coprName item.package.name true withSucceeded = .ok single ∧
        single.package = item.package ∧
          (item.latest = single.latest ↔ tables.NewestInDir dir.id item.package) := by
  obtain ⟨packages, gets, answer⟩ := answered
  split at answer
  · contradiction
  · obtain ⟨found, builds, isMain, order, same⟩ := answer
    obtain rfl := Option.some.inj (main.symm.trans isMain)
    obtain rfl := Except.ok.inj same
    intro item member
    obtain ⟨p, listed, rfl⟩ := List.mem_map.mp member
    have inProject : p ∈ tables.packages ∧ p.coprId = coprId := by
      have row := Pagination.gets_subset gets listed
      simpa [getAll] using row
    obtain ⟨known, rfl⟩ := inProject
    exact ⟨_, getPackage_eq known coprName true withSucceeded, rfl,
      listed_eq_iff known (List.mem_map_of_mem listed) order withSucceeded⟩

end PackageTables

namespace Sample

/-- A package with an older build in the main directory and a newer one in another directory. -/
def packageTables : PackageTables where
  packages := [⟨1, "hello", 1⟩]
  builds := [⟨1, some 1, some 1, true⟩, ⟨2, some 1, some 2, true⟩]
  dirs := [⟨1, 1, true⟩, ⟨2, 1, false⟩]
  packageIds := by decide
  positive := by decide
  names := by decide
  buildIds := by decide

/-- The same with no other build. -/
def onlyMainBuild : PackageTables where
  packages := [⟨1, "hello", 1⟩]
  builds := [⟨1, some 1, some 1, true⟩]
  dirs := [⟨1, 1, true⟩, ⟨2, 1, false⟩]
  packageIds := by decide
  positive := by decide
  names := by decide
  buildIds := by decide

/-- Packages are ordered by their ids. -/
def packageIdColumn : String → ModelAttribute ListedPackage :=
  fun _ => .column (.ascending ListedPackage.id)

end Sample

namespace PackageTables

open Sample SortedPages

/-- A package with one build. -/
theorem latest_builds_agree_iff_one :
    onlyMainBuild.ListAnswers packageIdColumn 1 {} true false
        (.ok [⟨⟨1, "hello", 1⟩, some ⟨1, some 1, some 1, true⟩, none⟩]) ∧
      ∀ single, onlyMainBuild.getPackage 1 "project" "hello" true false = .ok single →
        single.latest = some ⟨1, some 1, some 1, true⟩ := by
  have answers : onlyMainBuild.ListAnswers packageIdColumn 1 {} true false
      (.ok [⟨⟨1, "hello", 1⟩, some ⟨1, some 1, some 1, true⟩, none⟩]) :=
    ⟨[⟨1, "hello", 1⟩], ⟨_, rfl, [⟨1, "hello", 1⟩], by decide, by decide, rfl⟩,
      ⟨1, 1, true⟩, [⟨1, some 1, some 1, true⟩], rfl, by decide, rfl⟩
  refine ⟨answers, fun single got => ?_⟩
  obtain ⟨other, found, -, agree⟩ := latest_builds_agree_iff onlyMainBuild packageIdColumn 1
    "project" {} false _ answers ⟨1, 1, true⟩ rfl _ List.mem_cons_self
  obtain rfl := Except.ok.inj (got.symm.trans found)
  refine (agree.mpr (Or.inr ⟨⟨1, some 1, some 1, true⟩, ?_, rfl, ?_⟩)).symm
  · exact ⟨by decide, rfl⟩
  · intro c own
    obtain rfl := List.mem_singleton.mp own.1
    exact Nat.le_refl _

/-- The list has the older build, in the main directory. -/
theorem newer_build_elsewhere :
    packageTables.ListAnswers packageIdColumn 1 {} true false
        (.ok [⟨⟨1, "hello", 1⟩, some ⟨1, some 1, some 1, true⟩, none⟩]) ∧
      packageTables.getPackage 1 "project" "hello" true false =
        .ok ⟨⟨1, "hello", 1⟩, some ⟨2, some 1, some 2, true⟩, none⟩ :=
  ⟨⟨[⟨1, "hello", 1⟩], ⟨_, rfl, [⟨1, "hello", 1⟩], by decide, by decide, rfl⟩,
    ⟨1, 1, true⟩, [⟨1, some 1, some 1, true⟩], rfl, by decide, rfl⟩, rfl⟩

end PackageTables

end Copr
