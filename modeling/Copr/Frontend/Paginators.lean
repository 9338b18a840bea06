import Copr.Lib.SortedPages

/-!
# Pages of the API

`Paginator` and `SubqueryPaginator` of `coprs/views/apiv3_ns/__init__.py`. A query has rows and may
have an `ORDER BY` of its own, to which `order_by` appends. The database returns the rows of a
statement in some order that its `ORDER BY` allows, so what a paginator gets is one of several
lists.
-/

namespace Copr

open SortedPages

variable {α : Type*}

/-- What `getattr(self.model, name, None)` is. -/
inductive ModelAttribute (α : Type*)
  /-- `None`. -/
  | missing
  /-- A property, which is no `InstrumentedAttribute`. -/
  | property
  /-- A column, with its order. -/
  | column (order : Criterion α)

/-- A model class. -/
structure PaginatedModel (α : Type*) where
  /-- `__tablename__`. -/
  tablename : String
  /-- `id`. -/
  id : α → Nat
  /-- The attributes. -/
  getAttribute : String → ModelAttribute α

/-- A query for rows of a model. -/
structure Query (model : PaginatedModel α) where
  /-- The rows. -/
  rows : List α
  /-- `id` is the primary key. -/
  keys : (rows.map model.id).Nodup
  /-- The `ORDER BY` of the query. -/
  orderBy : List (Criterion α) := []

/-- `order_type`. -/
inductive OrderType
  /-- `ASC`. -/
  | asc
  /-- `DESC`. -/
  | desc
  deriving DecidableEq, Repr

/-- The parameters of a request. -/
structure PageParams where
  /-- `limit`. -/
  limit : Option Nat := none
  /-- `offset`. -/
  offset : Option Nat := none
  /-- `order`. -/
  order : Option String := none
  /-- `order_type`. -/
  orderType : Option OrderType := none
  deriving DecidableEq, Repr

/-- `Paginator`, without the query. -/
structure Paginator where
  /-- `limit`. -/
  limit : Option Nat
  /-- `offset`. -/
  offset : Nat
  /-- `order`. -/
  order : String
  /-- `order_type`. -/
  orderType : Option OrderType
  deriving DecidableEq, Repr

/-- A `SELECT` statement. -/
structure Statement (α : Type*) where
  /-- The rows that are selected. -/
  rows : List α
  /-- `ORDER BY`. -/
  orderBy : List (Criterion α)
  /-- `LIMIT`. -/
  limit : Option Nat
  /-- `OFFSET`. -/
  offset : Nat

/-- The database may return these rows. -/
def Statement.Returns (s : Statement α) (result : List α) : Prop :=
  Outcome (Criterion.all s.orderBy) s.limit s.offset s.rows result

namespace Paginator

/-- `__init__`. -/
def init (params : PageParams) : Paginator :=
  let order := match params.order with
    | none | some "" => "id"
    | some order => order
  { limit := match params.limit with
      | none | some 0 => none
      | some limit => some limit
    offset := params.offset.getD 0
    order := order
    orderType := match params.orderType with
      | some orderType => some orderType
      | none => if order = "id" then some .desc else if order = "name" then some .asc else none }

/-- The criterion for a column. -/
def orderFun (p : Paginator) (order : Criterion α) : Criterion α :=
  match p.orderType with
  | some .desc => order.descending
  | _ => order

/-- `paginate_query`; an error is the message of the exception. -/
def paginateQuery {model : PaginatedModel α} (p : Paginator) (query : Query model) :
    Except String (Statement α) :=
  match model.getAttribute p.order with
  | .missing =>
    .error ("Cannot order by " ++ p.order ++ ", " ++ model.tablename ++
      " doesn't have such property")
  | .property => .error ("Cannot order by " ++ p.order)
  | .column order => .ok {
      rows := query.rows
      orderBy := query.orderBy ++ [p.orderFun order]
      limit := p.limit
      offset := p.offset }

/-- `Paginator.get` may give these rows. -/
def Gets {model : PaginatedModel α} (p : Paginator) (query : Query model) (result : List α) :
    Prop :=
  ∃ statement, p.paginateQuery query = .ok statement ∧ statement.Returns result

end Paginator

namespace SubqueryPaginator

/-- The statement around the subquery, which has returned these ids. -/
def filtered {model : PaginatedModel α} (query : Query model) (ids : List Nat) : Statement α where
  rows := query.rows.filter fun row => model.id row ∈ ids
  orderBy := query.orderBy
  limit := none
  offset := 0

/-- `SubqueryPaginator.get` may give these rows. -/
def Gets {model : PaginatedModel α} (p : Paginator) (query subquery : Query model)
    (result : List α) : Prop :=
  ∃ statement page, p.paginateQuery subquery = .ok statement ∧ statement.Returns page ∧
    (filtered query (page.map model.id)).Returns result

end SubqueryPaginator

namespace Pagination

variable {model : PaginatedModel α} (query subquery : Query model) (want : Criterion α)
  (limit : Option Nat) (offset : Nat)

/-- What a statement with this query sorts by. -/
def sortedBy (query : Query model) (want : Criterion α) : Criterion α :=
  Criterion.all (query.orderBy ++ [want])

/-- These rows can be the page, in any order, when rows are sorted by the criterion. -/
def OnPage (c : Criterion α) (limit : Option Nat) (offset : Nat) (rows page : List α) : Prop :=
  ∃ result, Outcome c limit offset rows result ∧ page.Perm result

/-- The `ORDER BY` of the subquery puts the same rows on the page as that of the query. -/
def SamePage : Prop :=
  ∀ page, OnPage (sortedBy subquery want) limit offset query.rows page ↔
    OnPage (sortedBy query want) limit offset query.rows page

/-- Rows of the page that the query's own `ORDER BY` does not tell apart are equal in the requested
column. -/
def OwnOrderDecides : Prop :=
  ∀ page, OnPage (sortedBy query want) limit offset query.rows page →
    ∀ x ∈ page, ∀ y ∈ page, (Criterion.all query.orderBy).le x y = true →
      (Criterion.all query.orderBy).le y x = true → want.le x y = true

/-- The pages that one gets, whatever the database returns, are together the rows in the requested
order. -/
def PagesComplete (n : Nat) (gets : Nat → List α → Prop) : Prop :=
  ∀ pages : Nat → List α, (∀ k, gets k (pages k)) → ∀ count, query.rows.length ≤ count * n →
    ((List.range count).map pages).flatten.Perm query.rows ∧
      Sorted want ((List.range count).map pages).flatten

/-- The `ORDER BY` of the subquery puts on the page what the requested column puts there, and the
`ORDER BY` of the query puts these rows in the order of the column. -/
structure PageFits (n k : Nat) : Prop where
  /-- The rows. -/
  rows : ∀ page, OnPage (sortedBy subquery want) (some n) (k * n) query.rows page ↔
    OnPage want (some n) (k * n) query.rows page
  /-- Their order. -/
  order : ∀ page, OnPage want (some n) (k * n) query.rows page → ∀ x ∈ page, ∀ y ∈ page, x ≠ y →
    want.le x y = true → (Criterion.all query.orderBy).le y x = false

variable {query subquery want limit offset} {c : Criterion α} {rows page result : List α}
  {p : Paginator} {order : Criterion α} {n : Nat}

/-- The order of a statement: the query's own, then the requested one. -/
theorem sortedBy_eq (query : Query model) (want : Criterion α) :
    sortedBy query want = (Criterion.all query.orderBy).andThen want :=
  Criterion.all_concat query.orderBy want

/-- What is returned is on the page. -/
theorem onPage_of_outcome (outcome : Outcome c limit offset rows result) :
    OnPage c limit offset rows result := ⟨result, outcome, List.Perm.refl result⟩

/-- The order of the rows on a page does not matter. -/
theorem OnPage.perm (on : OnPage c limit offset rows page) (perm : result.Perm page) :
    OnPage c limit offset rows result := by
  obtain ⟨first, outcome, same⟩ := on
  exact ⟨first, outcome, perm.trans same⟩

/-- A page that is sorted is returned. -/
theorem OnPage.outcome (on : OnPage c limit offset rows page) (sorted : Sorted c page) :
    Outcome c limit offset rows page := by
  obtain ⟨first, outcome, same⟩ := on
  exact outcome.rearrange same sorted

/-- A page has no row twice. -/
theorem OnPage.nodup (on : OnPage c limit offset rows page) (nodup : rows.Nodup) : page.Nodup := by
  obtain ⟨first, outcome, same⟩ := on
  obtain ⟨sub, perm, sublist⟩ := outcome.subperm
  exact same.nodup_iff.mpr (perm.nodup_iff.mp (sublist.nodup nodup))

/-- A page has rows of the query. -/
theorem OnPage.subset (on : OnPage c limit offset rows page) : page ⊆ rows := by
  obtain ⟨first, outcome, same⟩ := on
  exact fun row member => outcome.subperm.subset (same.subset member)

/-- Two queries with the same rows have the same pages. -/
theorem outcome_of_perm {other : List α} (same : rows.Perm other) :
    Outcome c limit offset rows result ↔ Outcome c limit offset other result := by
  constructor
  · rintro ⟨p, perm, sorted, rfl⟩
    exact ⟨p, perm.trans same, sorted, rfl⟩
  · rintro ⟨p, perm, sorted, rfl⟩
    exact ⟨p, perm.trans same.symm, sorted, rfl⟩

/-- The rows of a query are different. -/
theorem rows_nodup (query : Query model) : query.rows.Nodup := query.keys.of_map _

/-- The rows whose ids are on a page of some of them are the rows of the page. -/
theorem filter_ids (on : OnPage c limit offset rows page) (nodup : rows.Nodup)
    (subset : rows ⊆ query.rows) :
    (query.rows.filter fun row => model.id row ∈ page.map model.id).Perm page := by
  refine (List.perm_ext_iff_of_nodup ((rows_nodup query).filter _) (on.nodup nodup)).mpr
    fun row => ?_
  rw [List.mem_filter, decide_eq_true_eq]
  constructor
  · rintro ⟨member, id⟩
    obtain ⟨other, inPage, same⟩ := List.mem_map.mp id
    have inRows := subset (on.subset inPage)
    exact List.inj_on_of_nodup_map query.keys inRows member same ▸ inPage
  · exact fun inPage => ⟨subset (on.subset inPage), List.mem_map_of_mem inPage⟩

/-- What `Paginator.get` gives. -/
theorem gets_iff (column : model.getAttribute p.order = .column order) :
    p.Gets query result ↔
      Outcome (sortedBy query (p.orderFun order)) p.limit p.offset query.rows result := by
  have statement : p.paginateQuery query = .ok {
      rows := query.rows
      orderBy := query.orderBy ++ [p.orderFun order]
      limit := p.limit
      offset := p.offset } := by
    rw [Paginator.paginateQuery, column]
  rw [Paginator.Gets, statement]
  constructor
  · rintro ⟨_, ⟨rfl⟩, returns⟩
    exact returns
  · exact fun returns => ⟨_, rfl, returns⟩

/-- What `Paginator.get` gives are rows of the query. -/
theorem gets_subset (gets : p.Gets query result) : result ⊆ query.rows := by
  obtain ⟨statement, paginated, returns⟩ := gets
  unfold Paginator.paginateQuery at paginated
  split at paginated
  · contradiction
  · contradiction
  · obtain rfl := Except.ok.inj paginated
    exact Outcome.subperm returns |>.subset

/-- What `SubqueryPaginator.get` gives: the rows of the subquery's page, in the query's own
order. -/
theorem subquery_gets_iff_of_subset (column : model.getAttribute p.order = .column order)
    (subset : subquery.rows ⊆ query.rows) :
    SubqueryPaginator.Gets p query subquery result ↔
      OnPage (sortedBy subquery (p.orderFun order)) p.limit p.offset subquery.rows result ∧
        Sorted (Criterion.all query.orderBy) result := by
  have inner : ∀ page, (∃ statement, p.paginateQuery subquery = .ok statement ∧
      statement.Returns page) ↔
        Outcome (sortedBy subquery (p.orderFun order)) p.limit p.offset subquery.rows page :=
    fun page => gets_iff column
  constructor
  · rintro ⟨statement, page, paginated, returns, all, perm, sorted, rfl⟩
    have outcome := (inner page).mp ⟨statement, paginated, returns⟩
    have same := filter_ids (onPage_of_outcome outcome) (rows_nodup subquery) subset
    exact ⟨⟨page, outcome, perm.trans same⟩, sorted⟩
  · rintro ⟨⟨page, outcome, perm⟩, sorted⟩
    obtain ⟨statement, paginated, returns⟩ := (inner page).mpr outcome
    have same := filter_ids (onPage_of_outcome outcome) (rows_nodup subquery) subset
    exact ⟨statement, page, paginated, returns, result, perm.trans same.symm, sorted, rfl⟩

/-- With the same rows in the subquery, the page is one of the query's rows. -/
theorem subquery_gets_iff (column : model.getAttribute p.order = .column order)
    (same : query.rows.Perm subquery.rows) :
    SubqueryPaginator.Gets p query subquery result ↔
      OnPage (sortedBy subquery (p.orderFun order)) p.limit p.offset query.rows result ∧
        Sorted (Criterion.all query.orderBy) result := by
  rw [subquery_gets_iff_of_subset column same.symm.subset]
  have pages : ∀ c : Criterion α, OnPage c p.limit p.offset subquery.rows result ↔
      OnPage c p.limit p.offset query.rows result := by
    intro c
    simp only [OnPage, outcome_of_perm same.symm]
  rw [pages]

/-- Both paginators give the same exactly when the subquery's order selects the same page and the
query's own order decides what the requested one would decide on it. -/
theorem same_gets_iff (column : model.getAttribute p.order = .column order)
    (same : query.rows.Perm subquery.rows) :
    (∀ result, SubqueryPaginator.Gets p query subquery result ↔ p.Gets query result) ↔
      SamePage query subquery (p.orderFun order) p.limit p.offset ∧
        OwnOrderDecides query (p.orderFun order) p.limit p.offset := by
  simp only [subquery_gets_iff column same, gets_iff column]
  constructor
  · intro agree
    have samePage : SamePage query subquery (p.orderFun order) p.limit p.offset := by
      intro page
      constructor
      · intro on
        obtain ⟨r, perm, sorted⟩ := exists_sorted (Criterion.all query.orderBy) page
        have outcome := (agree r).mp ⟨on.perm perm, sorted⟩
        exact (onPage_of_outcome outcome).perm perm.symm
      · rintro ⟨r, outcome, perm⟩
        exact ((agree r).mpr outcome).1.perm perm
    refine ⟨samePage, ?_⟩
    intro page on x inX y inY le back
    by_cases equal : x = y
    · subst equal
      simpa using (p.orderFun order).total x x
    · -- The database may put `x` before `y`, so this must be right for the column.
      obtain ⟨r, perm, sorted, first⟩ := exists_sorted_before (on.nodup (rows_nodup query)) inY inX
        (fun same => equal same.symm) le
      have outcome := (agree r).mp ⟨((samePage page).mpr on).perm perm, sorted⟩
      rw [sortedBy_eq] at outcome
      exact outcome.sorted.ties first back
  · rintro ⟨samePage, decides⟩ result
    constructor
    · rintro ⟨on, sorted⟩
      have there := (samePage result).mp on
      refine there.outcome ?_
      rw [sortedBy_eq]
      exact sorted_andThen sorted (decides result there)
    · intro outcome
      refine ⟨(samePage result).mpr (onPage_of_outcome outcome), ?_⟩
      have sorted := outcome.sorted
      rw [sortedBy_eq] at sorted
      exact sorted.of_andThen

/-- A page has as many rows as limit and offset leave. -/
theorem OnPage.length_eq (on : OnPage c limit offset rows page) :
    page.length = (window limit offset rows).length := by
  obtain ⟨first, outcome, perm⟩ := on
  exact perm.length_eq.trans outcome.length_eq

/-- With different values in the column, the rows on the page are determined. -/
theorem OnPage.perm_window {q : List α} (on : OnPage c limit offset rows page)
    (apart : Distinguishes c rows) (perm : q.Perm rows) (sorted : Sorted c q) :
    page.Perm (window limit offset q) := by
  obtain ⟨first, ⟨p, permP, sortedP, rfl⟩, same⟩ := on
  rw [sorted_unique apart perm permP sorted sortedP]
  exact same

/-- The rows between an offset and a limit are rows. -/
theorem window_sublist (limit : Option Nat) (offset : Nat) (rows : List α) :
    (window limit offset rows).Sublist rows := by
  cases limit with
  | none => exact List.drop_sublist offset rows
  | some n => exact (List.take_sublist n _).trans (List.drop_sublist offset rows)

/-- With one order for both statements that tells all rows apart, the page is one window of the
sorted rows. -/
theorem subquery_gets_iff_eq_window {q : List α}
    (column : model.getAttribute p.order = .column order) (subset : subquery.rows ⊆ query.rows)
    (sameOrder : subquery.orderBy = query.orderBy)
    (apart : Distinguishes (Criterion.all query.orderBy) subquery.rows)
    (perm : q.Perm subquery.rows) (sorted : Sorted (Criterion.all query.orderBy) q) :
    SubqueryPaginator.Gets p query subquery result ↔ result = window p.limit p.offset q := by
  rw [subquery_gets_iff_of_subset column subset, sortedBy_eq, sameOrder]
  have inRows : ∀ x ∈ window p.limit p.offset q, x ∈ subquery.rows := fun x member =>
    perm.subset ((window_sublist p.limit p.offset q).subset member)
  have apartBoth : Distinguishes ((Criterion.all query.orderBy).andThen (p.orderFun order))
      subquery.rows := fun x inX y inY le back =>
    apart x inX y inY (Bool.and_eq_true_iff.mp le).1 (Bool.and_eq_true_iff.mp back).1
  have sortedBoth : Sorted ((Criterion.all query.orderBy).andThen (p.orderFun order)) q := by
    refine sorted_andThen sorted fun x inX y inY le back => ?_
    rw [apart x (perm.subset inX) y (perm.subset inY) le back]
    simpa using (p.orderFun order).total y y
  have sortedPage := sorted.sublist (window_sublist p.limit p.offset q)
  constructor
  · rintro ⟨on, own⟩
    exact sorted_unique (fun x inX y inY => apart x (inRows x inX) y (inRows y inY))
      (on.perm_window apartBoth perm sortedBoth) (List.Perm.refl _) own sortedPage
  · rintro rfl
    exact ⟨onPage_of_outcome ⟨q, perm, sortedBoth, rfl⟩, sortedPage⟩

section Pages

variable {gets : Nat → List α → Prop} (gives : ∀ k result, gets k result ↔
  OnPage (sortedBy subquery want) (some n) (k * n) query.rows result ∧
    Sorted (Criterion.all query.orderBy) result)

include gives

/-- If each page fits, the pages are together the sorted rows. -/
theorem pagesComplete_of_fits (apart : Distinguishes want query.rows)
    (fits : ∀ k, PageFits query subquery want n k) : PagesComplete query want n gets := by
  obtain ⟨q, perm, sorted⟩ := exists_sorted want query.rows
  intro pages each count enough
  have page : ∀ k, pages k = window (some n) (k * n) q := by
    intro k
    obtain ⟨on, own⟩ := (gives k (pages k)).mp (each k)
    have there := ((fits k).rows (pages k)).mp on
    have permPage := there.perm_window apart perm sorted
    have sortedPage : Sorted want (pages k) := by
      refine List.Pairwise.imp_of_mem ?_ own
      intro x y inX inY le
      cases column : want.le x y with
      | true => rfl
      | false =>
        have back : want.le y x = true := by
          have total := want.total x y
          rwa [column, Bool.false_or] at total
        have different : y ≠ x := by
          rintro rfl
          rw [column] at back
          contradiction
        rw [(fits k).order (pages k) there y inY x inX different back] at le
        contradiction
    have inRows : ∀ x ∈ window (some n) (k * n) q, x ∈ query.rows := fun x member =>
      perm.subset ((window_sublist (some n) (k * n) q).subset member)
    exact sorted_unique (fun x inX y inY => apart x (inRows x inX) y (inRows y inY)) permPage
      (List.Perm.refl _) sortedPage (sorted.sublist (window_sublist (some n) (k * n) q))
  have whole : ((List.range count).map pages).flatten = q := by
    rw [funext page, flatten_pages, List.take_of_length_le (by rw [perm.length_eq]; exact enough)]
  rw [whole]
  exact ⟨perm, sorted⟩

/-- If the pages are together the sorted rows, each of them fits. -/
theorem fits_of_pagesComplete (positive : 0 < n) (apart : Distinguishes want query.rows)
    (complete : PagesComplete query want n gets) (k : Nat) :
    PageFits query subquery want n k := by
  obtain ⟨q, perm, sorted⟩ := exists_sorted want query.rows
  have arranged : ∀ j page, OnPage (sortedBy subquery want) (some n) (j * n) query.rows page →
      ∃ r, gets j r ∧ r.Perm page := by
    intro j page on
    obtain ⟨r, permR, sortedR⟩ := exists_sorted (Criterion.all query.orderBy) page
    exact ⟨r, (gives j r).mpr ⟨on.perm permR, sortedR⟩, permR⟩
  have some_ : ∀ j, ∃ r, gets j r := by
    intro j
    obtain ⟨page, outcome⟩ :=
      exists_outcome (sortedBy subquery want) (some n) (j * n) query.rows
    obtain ⟨r, got, -⟩ := arranged j page (onPage_of_outcome outcome)
    exact ⟨r, got⟩
  choose other others using some_
  have window_length : ∀ j, (window (some n) (j * n) query.rows).length =
      (window (some n) (j * n) q).length := by
    intro j
    simp only [window, List.length_take, List.length_drop, perm.length_eq]
  -- Whatever is got for the page, with any other pages it must complete the sorted rows.
  have only : ∀ r, gets k r → r = window (some n) (k * n) q := by
    intro r got
    let pages := Function.update other k r
    have at_k : pages k = r := Function.update_self k r other
    have each : ∀ j, gets j (pages j) := by
      intro j
      by_cases equal : j = k
      · subst equal
        rw [at_k]
        exact got
      · have unchanged : pages j = other j := Function.update_of_ne equal r other
        rw [unchanged]
        exact others j
    let count := query.rows.length + k + 1
    have enough : query.rows.length ≤ count * n := by
      have factor : count ≤ count * n := Nat.le_mul_of_pos_right count positive
      omega
    obtain ⟨permAll, sortedAll⟩ := complete pages each count enough
    have whole : ((List.range count).map pages).flatten = q.take (count * n) := by
      rw [List.take_of_length_le (by rw [perm.length_eq]; exact enough)]
      exact sorted_unique apart permAll perm sortedAll sorted
    rw [← at_k]
    refine page_eq whole (fun j => ?_) (by omega)
    exact ((gives j (pages j)).mp (each j)).1.length_eq.trans (window_length j)
  have wanted : OnPage want (some n) (k * n) query.rows (window (some n) (k * n) q) :=
    onPage_of_outcome ⟨q, perm, sorted, rfl⟩
  have there : ∀ page, OnPage want (some n) (k * n) query.rows page →
      OnPage (sortedBy subquery want) (some n) (k * n) query.rows page := by
    intro page on
    have same := only (other k) (others k)
    have onOther := ((gives k (other k)).mp (others k)).1
    rw [same] at onOther
    exact onOther.perm (on.perm_window apart perm sorted)
  refine ⟨fun page => ⟨?_, there page⟩, ?_⟩
  · intro on
    obtain ⟨r, got, permR⟩ := arranged k page on
    rw [only r got] at permR
    exact wanted.perm permR.symm
  · intro page on x inX y inY different le
    by_contra notFalse
    have back : (Criterion.all query.orderBy).le y x = true := by
      simpa using notFalse
    obtain ⟨r, permR, sortedR, first⟩ :=
      exists_sorted_before (on.nodup (rows_nodup query)) inX inY different back
    have got : gets k r := (gives k r).mpr ⟨(there page on).perm permR, sortedR⟩
    rw [only r got] at first
    have inOrder := List.Pairwise.sublist (first.trans (window_sublist (some n) (k * n) q)) sorted
    have reverse := (List.pairwise_cons.mp inOrder).1 x List.mem_cons_self
    exact different (apart x (on.subset inX) y (on.subset inY) le reverse)

end Pages

/-- The subquery paginator lists what the plain one lists exactly when, on the page, the orders that
the queries bring with them agree with the requested one; its pages are together the sorted rows
exactly when this is so on each of them. -/
theorem subquery_paginator_iff (model : PaginatedModel α) (query subquery : Query model)
    (same : query.rows.Perm subquery.rows) (params : PageParams) (order : Criterion α)
    (column : model.getAttribute (Paginator.init params).order = .column order) :
    let p := Paginator.init params
    let want := p.orderFun order
    ((∀ result, SubqueryPaginator.Gets p query subquery result ↔ p.Gets query result) ↔
      SamePage query subquery want p.limit p.offset ∧
        OwnOrderDecides query want p.limit p.offset) ∧
      ∀ n, 0 < n → Distinguishes want query.rows →
        (PagesComplete query want n (fun k => SubqueryPaginator.Gets
          (Paginator.init { params with limit := some n, offset := some (k * n) }) query subquery) ↔
            ∀ k, PageFits query subquery want n k) := by
  intro p want
  refine ⟨same_gets_iff column same, fun n positive apart => ?_⟩
  have gives : ∀ k result, SubqueryPaginator.Gets
      (Paginator.init { params with limit := some n, offset := some (k * n) }) query subquery
        result ↔ OnPage (sortedBy subquery want) (some n) (k * n) query.rows result ∧
          Sorted (Criterion.all query.orderBy) result := by
    intro k result
    obtain ⟨m, rfl⟩ : ∃ m, n = m + 1 := ⟨n - 1, by omega⟩
    exact subquery_gets_iff column same
  exact ⟨fun complete k => fits_of_pagesComplete gives positive apart complete k,
    pagesComplete_of_fits gives apart⟩

end Pagination

namespace Sample

/-- Builds, as pairs of an id and the time of their submission. -/
def submittedBuilds : PaginatedModel (Nat × Nat) where
  tablename := "build"
  id := Prod.fst
  getAttribute name :=
    if name = "id" then .column (.ascending Prod.fst)
    else if name = "submitted_on" then .column (.ascending Prod.snd)
    else if name = "state" then .property
    else .missing

/-- Two builds. -/
def unorderedBuilds : Query submittedBuilds where
  rows := [(1, 1), (2, 2)]
  keys := by decide

/-- The same builds, as `BuildsLogic.get_multiple` orders them. -/
def orderedBuilds : Query submittedBuilds where
  rows := [(1, 1), (2, 2)]
  keys := by decide
  orderBy := [(Criterion.ascending Prod.fst).descending]

end Sample

namespace Pagination

open Sample

/-- The order by id is decided by the query's own, and no two rows are equal in it. -/
theorem subquery_paginator_iff_ordered :
    let want : Criterion (Nat × Nat) := (Criterion.ascending Prod.fst).descending
    (SubqueryPaginator.Gets (.init {}) orderedBuilds orderedBuilds [(2, 2), (1, 1)] ↔
      (Paginator.init {}).Gets orderedBuilds [(2, 2), (1, 1)]) ∧
        (PagesComplete orderedBuilds want 1 (fun k => SubqueryPaginator.Gets
          (.init { limit := some 1, offset := some (k * 1) }) orderedBuilds orderedBuilds) ↔
            ∀ k, PageFits orderedBuilds orderedBuilds want 1 k) := by
  intro want
  have decides : ∀ x ∈ orderedBuilds.rows, ∀ y ∈ orderedBuilds.rows,
      (Criterion.all orderedBuilds.orderBy).le x y = true →
        (Criterion.all orderedBuilds.orderBy).le y x = true → want.le x y = true := by
    decide
  have apart : Distinguishes want orderedBuilds.rows := by
    unfold Distinguishes
    decide
  have both := subquery_paginator_iff submittedBuilds orderedBuilds orderedBuilds
    (List.Perm.refl _) {} (.ascending Prod.fst) rfl
  refine ⟨both.1.mpr ⟨fun page => Iff.rfl, fun page on x inX y inY => ?_⟩ _,
    both.2 1 (by decide) apart⟩
  exact decides x (on.subset inX) y (on.subset inY)

/-- With no `ORDER BY` of its own the outer statement may return the page in another order than the
requested one. With the order that `BuildsLogic.get_multiple` has, the requested order is not that
of the pages. -/
theorem subquery_pages_unordered :
    let params : PageParams := { order := some "submitted_on", orderType := some .asc }
    let want : Criterion (Nat × Nat) := .ascending Prod.snd
    SubqueryPaginator.Gets (.init params) unorderedBuilds unorderedBuilds [(2, 2), (1, 1)] ∧
      ¬ (Paginator.init params).Gets unorderedBuilds [(2, 2), (1, 1)] ∧
      Distinguishes want orderedBuilds.rows ∧
      ¬ PagesComplete orderedBuilds want 1 (fun k => SubqueryPaginator.Gets
        (.init { params with limit := some 1, offset := some (k * 1) }) orderedBuilds
          orderedBuilds) := by
  intro params want
  have column : submittedBuilds.getAttribute (Paginator.init params).order = .column want := rfl
  refine ⟨?_, ?_, ?_, ?_⟩
  · refine (subquery_gets_iff column (List.Perm.refl _)).mpr ⟨?_, by decide⟩
    exact ⟨[(1, 1), (2, 2)], ⟨[(1, 1), (2, 2)], List.Perm.refl _, by decide, rfl⟩, by decide⟩
  · intro gets
    exact absurd ((gets_iff column).mp gets).sorted (by decide)
  · unfold Distinguishes
    decide
  · intro complete
    have sorted : Sorted (Criterion.all orderedBuilds.orderBy) [(2, 2), (1, 1)] := by decide
    have byId : Sorted (sortedBy orderedBuilds want) [(2, 2), (1, 1)] := by decide
    have columns : ∀ k, submittedBuilds.getAttribute (Paginator.init { params with
        limit := some 1, offset := some (k * 1) }).order = .column want := fun _ => rfl
    have pages := complete (fun k => window (some 1) (k * 1) [(2, 2), (1, 1)]) (fun k => by
      refine (subquery_gets_iff (columns k) (List.Perm.refl _)).mpr ⟨?_, ?_⟩
      · exact onPage_of_outcome ⟨[(2, 2), (1, 1)], by decide, byId, rfl⟩
      · exact sorted.sublist (window_sublist (some 1) (k * 1) [(2, 2), (1, 1)])) 2 (by decide)
    exact absurd pages.2 (by decide)

end Pagination

end Copr
