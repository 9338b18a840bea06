import Mathlib.Data.List.Sort
import Copr.Frontend.BuildStates
import Copr.Frontend.Paginators

/-!
# The list of builds

`ListBuild.get` of `coprs/views/apiv3_ns/apiv3_builds.py` over the rows of the `build` table. The
state of a build is no column: with a status, all builds from the offset on are fetched and
filtered afterwards.
-/

namespace Copr

open SortedPages

/-- The text of a status. -/
def StatusEnum.key : StatusEnum → String
  | .failed => "failed"
  | .succeeded => "succeeded"
  | .canceled => "canceled"
  | .running => "running"
  | .pending => "pending"
  | .skipped => "skipped"
  | .starting => "starting"
  | .importing => "importing"
  | .forked => "forked"
  | .waiting => "waiting"
  | .unknown => "unknown"

/-- A row of the `build` table. -/
structure ListedBuild where
  /-- `copr_id`. -/
  coprId : Nat
  /-- The build. -/
  build : Build
  deriving DecidableEq, Repr

/-- The `build` table. -/
structure ListedBuilds where
  /-- The rows. -/
  rows : List ListedBuild
  /-- `id` is the primary key. -/
  keys : (rows.map fun row => row.build.id).Nodup

/-- What a request for a list of builds asks for. -/
structure ListBuildParams where
  /-- `packagename`. -/
  packagename : Option String := none
  /-- `status`. -/
  status : Option String := none
  /-- The parameters of the page. -/
  page : PageParams := {}
  deriving DecidableEq, Repr

namespace ListBuild

/-- A parameter that is neither `None` nor empty. -/
def given (text : Option String) : Option String := text.filter fun text => text ≠ ""

/-- `models.Build`, with its other columns and properties. -/
def buildModel (attributes : String → ModelAttribute ListedBuild) : PaginatedModel ListedBuild where
  tablename := "build"
  id row := row.build.id
  getAttribute name :=
    if name = "id" then .column (.ascending fun row => row.build.id) else attributes name

/-- `models.Build.id.desc()`. -/
def idDesc : Criterion ListedBuild := Criterion.descending (.ascending fun row => row.build.id)

/-- The filter for the name of the package, if there is one. -/
def hasPackage (packagename : Option String) (row : ListedBuild) : Bool :=
  match given packagename with
  | none => true
  | some name => decide (row.build.package = some name)

/-- The filter for the status, if there is one. -/
def hasStatus (status : Option String) (row : ListedBuild) : Bool :=
  match given status with
  | none => true
  | some status => decide (row.build.state.key = status)

variable (attributes : String → ModelAttribute ListedBuild) (builds : ListedBuilds) (coprId : Nat)
  (packagename status : Option String)

/-- `BuildsLogic.get_multiple`. -/
def getMultiple : Query (buildModel attributes) where
  rows := builds.rows
  keys := builds.keys
  orderBy := [idDesc]

/-- The builds of the project, filtered by the name of the package. -/
def projectBuilds : List ListedBuild :=
  (builds.rows.filter fun row => row.coprId = coprId).filter (hasPackage packagename)

/-- The builds of the project have different ids. -/
theorem projectBuilds_keys :
    ((projectBuilds builds coprId packagename).map (buildModel attributes).id).Nodup :=
  builds.keys.sublist ((List.filter_sublist.trans List.filter_sublist).map _)

/-- `subquery`. -/
def subquery : Query (buildModel attributes) where
  rows := projectBuilds builds coprId packagename
  keys := projectBuilds_keys attributes builds coprId packagename
  orderBy := (getMultiple attributes builds).orderBy

/-- The response may have these items. -/
def Gets (params : ListBuildParams) (items : List ListedBuild) : Prop :=
  let limit := params.page.limit
  let paginatorLimit := if (given params.status).isSome then none else limit
  ∃ found, SubqueryPaginator.Gets (.init { params.page with limit := paginatorLimit })
      (getMultiple attributes builds) (subquery attributes builds coprId params.packagename)
        found ∧
    items =
      if (given params.status).isSome then window limit 0 (found.filter (hasStatus params.status))
      else found

/-- The builds of the project that match the filters. -/
def matching : List ListedBuild :=
  builds.rows.filter fun row =>
    decide (row.coprId = coprId) && hasPackage packagename row && hasStatus status row

/-- The builds of the project, filtered by the name of the package, with the newest first. -/
def newestFirst : List ListedBuild :=
  (projectBuilds builds coprId packagename).insertionSort fun a b => b.build.id ≤ a.build.id

variable {attributes builds coprId packagename status} {params : ListBuildParams}
  {items : List ListedBuild}

/-- The newest builds come first. -/
theorem newestFirst_sorted : Sorted idDesc (newestFirst builds coprId packagename) := by
  have total : Std.Total fun a b : ListedBuild => b.build.id ≤ a.build.id :=
    ⟨fun a b => Nat.le_total b.build.id a.build.id⟩
  have trans : IsTrans ListedBuild fun a b => b.build.id ≤ a.build.id :=
    ⟨fun _ _ _ first second => Nat.le_trans second first⟩
  exact (List.pairwise_insertionSort (fun a b : ListedBuild => b.build.id ≤ a.build.id) _).imp
    fun le => decide_eq_true le

/-- The newest-first order has exactly the builds of the project. -/
theorem newestFirst_perm :
    (newestFirst builds coprId packagename).Perm (projectBuilds builds coprId packagename) :=
  List.perm_insertionSort _ _

/-- What matches the filters is what has the status, among the builds of the package. -/
theorem filter_hasStatus :
    ((newestFirst builds coprId packagename).filter (hasStatus status)).Perm
      (matching builds coprId packagename status) := by
  refine (newestFirst_perm.filter _).trans ?_
  rw [projectBuilds, matching, List.filter_filter, List.filter_filter]
  refine List.Perm.of_eq (List.filter_congr fun row _ => ?_)
  cases hasStatus status row <;> cases hasPackage packagename row <;> simp

/-- The order by id tells builds apart. -/
theorem distinguishes_idDesc :
    Distinguishes (Criterion.all [idDesc]) (projectBuilds builds coprId packagename) := by
  intro x inX y inY le back
  have first := of_decide_eq_true (Bool.and_eq_true_iff.mp le).1
  have second := of_decide_eq_true (Bool.and_eq_true_iff.mp back).1
  exact List.inj_on_of_nodup_map (projectBuilds_keys (fun _ => .missing) builds coprId packagename)
    inX inY (Nat.le_antisymm second first)

/-- What the paginator gets: a window of the builds with the newest first. -/
theorem paginator_gets_iff {p : Paginator} (order : p.order = "id") :
    SubqueryPaginator.Gets p (getMultiple attributes builds)
        (subquery attributes builds coprId packagename) items ↔
      items = window p.limit p.offset (newestFirst builds coprId packagename) := by
  have column : (buildModel attributes).getAttribute p.order =
      .column (.ascending fun row => row.build.id) := by
    rw [order]
    rfl
  have subset : (subquery attributes builds coprId packagename).rows ⊆
      (getMultiple attributes builds).rows :=
    (List.filter_sublist.trans List.filter_sublist).subset
  exact Pagination.subquery_gets_iff_eq_window column subset rfl distinguishes_idDesc
    newestFirst_perm (sorted_andThen newestFirst_sorted fun _ _ _ _ _ _ => rfl)

/-- The request for a page of `n` builds. -/
def request (packagename status : Option String) (page : PageParams) (n k : Nat) :
    ListBuildParams where
  packagename := packagename
  status := status
  page := { page with limit := some n, offset := some (k * n) }

/-- The items of a page: the offset counts all builds of the package, the limit those with the
status. -/
theorem gets_iff {page : PageParams} {n k : Nat} (positive : 0 < n)
    (ordering : (Paginator.init page).order = "id") :
    Gets attributes builds coprId (request packagename status page n k) items ↔
      items = filteredPage (hasStatus status) n k (newestFirst builds coprId packagename) := by
  obtain ⟨m, rfl⟩ : ∃ m, n = m + 1 := ⟨n - 1, by omega⟩
  have found_iff : ∀ limit found, SubqueryPaginator.Gets
      (.init { page with limit := limit, offset := some (k * (m + 1)) })
      (getMultiple attributes builds) (subquery attributes builds coprId packagename) found ↔
        found = window (Paginator.init { page with limit := limit }).limit (k * (m + 1))
          (newestFirst builds coprId packagename) :=
    fun limit found => paginator_gets_iff ordering
  cases filter : given status with
  | none =>
    have all : hasStatus status = fun _ => true := by
      funext row
      rw [hasStatus, filter]
    simp only [Gets, request, filter, Option.isSome_none, Bool.false_eq_true, if_false, found_iff]
    rw [all]
    simp [filteredPage, window, Paginator.init]
  | some text =>
    simp only [Gets, request, filter, Option.isSome_some, if_true, found_iff]
    simp [filteredPage, window, Paginator.init]

/-- The pages of the list have each build that matches exactly once, and no other one, exactly when
on each page-sized block of the package's builds all builds have the status, or none after it. -/
theorem build_list_complete_iff (attributes : String → ModelAttribute ListedBuild)
    (builds : ListedBuilds) (coprId : Nat) (packagename status : Option String) (n : Nat)
    (positive : 0 < n) (page : PageParams) (ordering : (Paginator.init page).order = "id") :
    ∃ pages : Nat → List ListedBuild,
      (∀ k items, Gets attributes builds coprId (request packagename status page n k) items ↔
        items = pages k) ∧
      ∀ count, (projectBuilds builds coprId packagename).length ≤ count * n →
        (((List.range count).map pages).flatten.Perm (matching builds coprId packagename status) ↔
          ∀ k, KeptOrLast (hasStatus status) n k (newestFirst builds coprId packagename)) := by
  refine ⟨fun k => filteredPage (hasStatus status) n k (newestFirst builds coprId packagename),
    fun k items => gets_iff positive ordering, fun count enough => ?_⟩
  rw [← filteredPages_iff (newestFirst_perm.length_eq.trans_le enough)]
  exact ⟨fun perm => perm.trans filter_hasStatus.symm, fun perm => perm.trans filter_hasStatus⟩

end ListBuild

namespace Sample

/-- A canceled build and an older one that is pending. -/
def canceledAndPending : ListedBuilds where
  rows := [
    { coprId := 1, build :=
      { id := 1, sourceStatus := .pending, package := some "hello", buildChroots := [] } },
    { coprId := 1, build :=
      { id := 2, canceled := true, sourceStatus := .succeeded, package := some "hello",
        buildChroots := [] } }]
  keys := by decide

end Sample

namespace ListBuild

open Sample

/-- Without a status the pages are complete. -/
theorem build_list_complete_iff_sample :
    ∃ pages : Nat → List ListedBuild,
      (∀ k items, Gets (fun _ => .missing) canceledAndPending 1 (request none none {} 1 k) items ↔
        items = pages k) ∧
      ((List.range 2).map pages).flatten.Perm (matching canceledAndPending 1 none none) := by
  obtain ⟨pages, gets, complete⟩ := build_list_complete_iff (fun _ => .missing) canceledAndPending
    1 none none 1 (by decide) {} rfl
  exact ⟨pages, gets, (complete 2 (by decide)).mpr fun k => Or.inl fun row _ => rfl⟩

/-- A build that has the status is on its own page and on the one before, which has another
build. -/
theorem pending_build_twice :
    ∃ items, matching canceledAndPending 1 none (some "pending") = items ∧ items ≠ [] ∧
      ∀ k < 2, ∀ page, Gets (fun _ => .missing) canceledAndPending 1
        (request none (some "pending") {} 1 k) page ↔ page = items := by
  refine ⟨canceledAndPending.rows.take 1, by decide, by decide, fun k inside page => ?_⟩
  rw [gets_iff (by decide) rfl]
  match k, inside with
  | 0, _ =>
    have first : filteredPage (hasStatus (some "pending")) 1 0
        (newestFirst canceledAndPending 1 none) = canceledAndPending.rows.take 1 := by decide
    rw [first]
  | 1, _ =>
    have second : filteredPage (hasStatus (some "pending")) 1 1
        (newestFirst canceledAndPending 1 none) = canceledAndPending.rows.take 1 := by decide
    rw [second]

end ListBuild

end Copr
