import Mathlib.Data.List.Dedup
import Copr.Lib.WorkLists
import Copr.Frontend.RepoIds

/-!
# Runtime dependencies

`get_transitive_runtime_dependencies` of `ComplexLogic` in `coprs/logic/complex_logic.py`, with
`get_copr_by_repo` and the lookups below it. The rows of the `copr` table are given, as are the URL
functions and the order in which Python enumerates a set.
-/

namespace Copr

open WorkLists

/-! ## Projects -/

/-- The owner of a project. -/
inductive DependencyOwner
  /-- A user, by `username`. -/
  | user (username : String)
  /-- A group, by `name`. -/
  | group (name : String)
  deriving DecidableEq, Repr

/-- A row of the `copr` table. -/
structure DependencyProject where
  /-- `id`. -/
  id : Nat
  /-- The group, or else the user. -/
  owner : DependencyOwner
  /-- `name`. -/
  name : String
  /-- `deleted`. -/
  deleted : Bool := false
  /-- `runtime_dependencies`. -/
  runtimeDependencies : Option String := none
  deriving DecidableEq, Repr

/-- The `copr` table. -/
structure DependencyTable where
  /-- The rows. -/
  rows : List DependencyProject
  /-- The indexes `copr_name_in_group_uniq` and `copr_name_for_user_uniq`, both on projects that are
  not deleted. -/
  unique : ∀ p ∈ rows, ∀ q ∈ rows, p.deleted = false → q.deleted = false →
    p.owner = q.owner → p.name = q.name → p = q

/-- The order in which a set of texts is enumerated. -/
structure ListedSets where
  /-- `list(set(texts))`. -/
  list : List String → List String
  /-- A set has the elements that were added. -/
  mem : ∀ texts text, text ∈ list texts ↔ text ∈ texts
  /-- A set has no element twice. -/
  nodup : ∀ texts, (list texts).Nodup

/-- What `get_copr_by_repo` returns, or that it raises `ObjectNotFound`. -/
inductive RepoLookup
  /-- A project. -/
  | found (copr : DependencyProject)
  /-- `ObjectNotFound`. -/
  | objectNotFound
  /-- `None`. -/
  | notCopr
  deriving DecidableEq, Repr

/-- The three lists of `get_transitive_runtime_dependencies`, as sets. -/
structure TransitiveDependencies where
  /-- `internal_deps`. -/
  internal : List DependencyProject := []
  /-- `external_deps`. -/
  external : List String := []
  /-- `non_existing`. -/
  nonExisting : List String := []
  deriving DecidableEq, Repr

namespace RuntimeDependencies

section Source

variable (lib : UrlLibrary) (order : ListedSets) (table : DependencyTable)

/-- Whose project `get_copr_by_owner` looks for; an empty name raises `IndexError`. -/
def soughtOwner (ownerName : List Char) : Option DependencyOwner :=
  match ownerName with
  | [] => none
  | '@' :: groupName => some (.group (String.ofList groupName))
  | name => some (.user (String.ofList name))

/-- The filters of the query for a project. -/
def isSought (owner : DependencyOwner) (coprName : List Char) (copr : DependencyProject) : Bool :=
  decide (copr.owner = owner) && decide (copr.name = String.ofList coprName) && !copr.deleted

/-- `get_copr_by_owner`: `none` when it raises `IndexError`, nothing inside when it raises
`ObjectNotFound`. -/
def getCoprByOwner (ownerName coprName : List Char) : Option (Option DependencyProject) :=
  (soughtOwner ownerName).map fun owner => table.rows.find? (isSought owner coprName)

/-- `get_copr_by_repo`; `none` when it raises another exception than `ObjectNotFound`. -/
def getCoprByRepo (repoUrl : String) : Option RepoLookup := do
  let parsed ← lib.urlparse repoUrl
  if parsed.scheme = "copr" then
    match Text.split (parsed.netloc ++ parsed.path) '/' with
    | [owner, copr] =>
      (getCoprByOwner table owner copr).map fun
        | some found => .found found
        | none => .objectNotFound
    | _ => some .notCopr
  else some .notCopr

/-- The texts in `runtime_dependencies`. -/
def listed (copr : DependencyProject) : List String :=
  match copr.runtimeDependencies with
  | none => []
  | some text => lib.words text

/-- `runtime_deps`. -/
def runtimeDeps (copr : DependencyProject) : List String := order.list (listed lib copr)

/-- One dependency of the analyzed project: the sets, and what is scheduled. -/
def analyze (copr : DependencyProject) (s : TransitiveDependencies × List DependencyProject)
    (dep : String) : Option (TransitiveDependencies × List DependencyProject) :=
  match getCoprByRepo lib table dep with
  | none => none
  | some .objectNotFound => some ({ s.1 with nonExisting := s.1.nonExisting.insert dep }, s.2)
  | some .notCopr => some ({ s.1 with external := s.1.external.insert dep }, s.2)
  | some (.found coprDep) =>
    if copr = coprDep then some s
    else some ({ s.1 with internal := s.1.internal.insert coprDep }, s.2 ++ [coprDep])

/-- The body of the loop over the work list. -/
def analyzeCopr (copr : DependencyProject) (s : TransitiveDependencies)
    (analyzed : DependencyProject) :
    Option (TransitiveDependencies × List DependencyProject) :=
  (runtimeDeps lib order analyzed).foldlM (analyze lib table copr) (s, [])

/-- `get_transitive_runtime_dependencies` returns these lists. -/
def Returns (copr : Option DependencyProject) (result : TransitiveDependencies) : Prop :=
  match copr with
  | none => result = {}
  | some copr => EndsWith (analyzeCopr lib order table copr) (WorkList.ofTasks [copr]) {} result

end Source

/-! ## What is meant -/

section Meaning

variable (lib : UrlLibrary) (table : DependencyTable)

/-- A dependency is the reference `copr://owner/name`. -/
def Names (dep : String) (owner name : List Char) : Prop :=
  ∃ parsed, lib.urlparse dep = some parsed ∧ parsed.scheme = "copr" ∧
    (parsed.netloc ++ parsed.path).toList = owner ++ '/' :: name ∧ '/' ∉ owner ∧ '/' ∉ name

/-- The project with an owner and a name. -/
def Existing (owner name : List Char) (copr : DependencyProject) : Prop :=
  copr ∈ table.rows ∧ copr.deleted = false ∧ soughtOwner owner = some copr.owner ∧
    copr.name = String.ofList name

/-- One project lists a reference to the other. -/
def DependsOn (p q : DependencyProject) : Prop :=
  ∃ dep ∈ listed lib p, ∃ owner name, Names lib dep owner name ∧ Existing table owner name q

/-- A dependency is an external URL, not a reference. -/
def External (dep : String) : Prop := ∀ owner name, ¬ Names lib dep owner name

/-- A dependency is a reference to a project that does not exist. -/
def Missing (dep : String) : Prop :=
  ∃ owner name, Names lib dep owner name ∧ ∀ copr, ¬ Existing table owner name copr

/-- The project itself or one that it depends on lists the dependency. -/
def ListedBelow (copr : DependencyProject) (dep : String) : Prop :=
  ∃ p, Relation.ReflTransGen (DependsOn lib table) copr p ∧ dep ∈ listed lib p

end Meaning

/-! ## What is looked up -/

section Lookup

variable {lib : UrlLibrary} {order : ListedSets} {table : DependencyTable} {dep : String}
  {owner name : List Char} {copr p q : DependencyProject}

/-- A dependency is one reference at most. -/
theorem Names.unique {owner' name' : List Char} (first : Names lib dep owner name)
    (second : Names lib dep owner' name') : owner = owner' ∧ name = name' := by
  obtain ⟨parsed, parse, -, shape, plain, -⟩ := first
  obtain ⟨parsed', parse', -, shape', plain', -⟩ := second
  obtain rfl := Option.some.inj (parse.symm.trans parse')
  exact Text.around_separator plain plain' (shape.symm.trans shape')

/-- An owner and a name stand for one project at most. -/
theorem Existing.unique (first : Existing table owner name p)
    (second : Existing table owner name q) : p = q := by
  obtain ⟨inP, liveP, ownerP, nameP⟩ := first
  obtain ⟨inQ, liveQ, ownerQ, nameQ⟩ := second
  exact table.unique p inP q inQ liveP liveQ (Option.some.inj (ownerP.symm.trans ownerQ))
    (nameP.trans nameQ.symm)

/-- The lookup by owner and name. -/
theorem getCoprByOwner_spec (table : DependencyTable) (name : List Char) (given : owner ≠ []) :
    (∃ p, getCoprByOwner table owner name = some (some p) ∧ Existing table owner name p) ∨
      getCoprByOwner table owner name = some none ∧ ∀ p, ¬ Existing table owner name p := by
  obtain ⟨sought, same⟩ : ∃ sought, soughtOwner owner = some sought := by
    unfold soughtOwner
    split
    · contradiction
    · exact ⟨_, rfl⟩
    · exact ⟨_, rfl⟩
  have unfolded :
      getCoprByOwner table owner name = some (table.rows.find? (isSought sought name)) := by
    rw [getCoprByOwner, same]
    rfl
  have matches_ : ∀ p ∈ table.rows, isSought sought name p = true ↔
      Existing table owner name p := by
    intro p member
    simp only [isSought, Bool.and_eq_true, decide_eq_true_eq, Bool.not_eq_true', Existing, same,
      Option.some.injEq, eq_comm (a := sought)]
    tauto
  rw [unfolded]
  cases found : table.rows.find? (isSought sought name) with
  | some p =>
    have member := List.mem_of_find?_eq_some found
    exact Or.inl ⟨p, rfl, (matches_ p member).mp (List.find?_some found)⟩
  | none =>
    refine Or.inr ⟨rfl, fun p existing => ?_⟩
    exact List.find?_eq_none.mp found p existing.1 ((matches_ p existing.1).mpr existing)

/-- The lookup by URL, where the URL has an owner if it is a reference. -/
theorem getCoprByRepo_spec (table : DependencyTable)
    (readable : BuildConfigLogic.Readable lib dep) :
    (∃ owner name p, getCoprByRepo lib table dep = some (.found p) ∧ Names lib dep owner name ∧
        Existing table owner name p) ∨
      (getCoprByRepo lib table dep = some .objectNotFound ∧ Missing lib table dep) ∨
      (getCoprByRepo lib table dep = some .notCopr ∧ External lib dep) := by
  obtain ⟨parsed, parse, named⟩ := readable
  have unfolded : getCoprByRepo lib table dep = if parsed.scheme = "copr" then
      match Text.split (parsed.netloc ++ parsed.path) '/' with
      | [owner, copr] =>
        (getCoprByOwner table owner copr).map fun
          | some found => .found found
          | none => .objectNotFound
      | _ => some .notCopr
    else some .notCopr := by
    rw [getCoprByRepo, parse]
    rfl
  by_cases copr : parsed.scheme = "copr"
  · rw [if_pos copr] at unfolded
    by_cases two : ∃ owner name, Text.split (parsed.netloc ++ parsed.path) '/' = [owner, name]
    · obtain ⟨owner, name, two⟩ := two
      rw [two] at unfolded
      obtain ⟨shape, plain, plain'⟩ := Text.splitOn_eq_two_iff.mp two
      have names : Names lib dep owner name := ⟨parsed, parse, copr, shape, plain, plain'⟩
      have given : owner ≠ [] := by
        rintro rfl
        have begins : (parsed.netloc.toList ++ parsed.path.toList).head? = some '/' := by
          rw [← String.toList_append, shape]
          rfl
        obtain ⟨c, rest, filled⟩ : ∃ c rest, parsed.netloc.toList = c :: rest :=
          List.exists_cons_of_ne_nil fun empty =>
            (named copr).1 (String.toList_injective (empty.trans String.toList_empty.symm))
        rw [filled] at begins
        obtain rfl := Option.some.inj begins
        exact lib.netloc_slash dep parsed parse (filled ▸ List.mem_cons_self)
      rcases getCoprByOwner_spec table name given with
        ⟨p, found, existing⟩ | ⟨none_, absent⟩
      · refine Or.inl ⟨owner, name, p, ?_, names, existing⟩
        rw [unfolded]
        simp only [found, Option.map_some]
      · refine Or.inr (Or.inl ⟨?_, owner, name, names, absent⟩)
        rw [unfolded]
        simp only [none_, Option.map_some]
    · refine Or.inr (Or.inr ⟨?_, ?_⟩)
      · rw [unfolded]
        split
        · rename_i owner name split
          exact absurd ⟨owner, name, split⟩ two
        · rfl
      · rintro owner name ⟨parsed', parse', -, shape, plain, plain'⟩
        obtain rfl := Option.some.inj (parse.symm.trans parse')
        exact two ⟨owner, name, Text.splitOn_eq_two_iff.mpr ⟨shape, plain, plain'⟩⟩
  · refine Or.inr (Or.inr ⟨by rw [unfolded, if_neg copr], ?_⟩)
    rintro owner name ⟨parsed', parse', scheme, -⟩
    obtain rfl := Option.some.inj (parse.symm.trans parse')
    exact copr scheme

/-- The lookup finds a project exactly when the URL names its owner and its name. -/
theorem found_iff (readable : BuildConfigLogic.Readable lib dep) :
    getCoprByRepo lib table dep = some (.found p) ↔
      ∃ owner name, Names lib dep owner name ∧ Existing table owner name p := by
  rcases getCoprByRepo_spec table readable with
    ⟨owner, name, q, found, names, existing⟩ | ⟨absent, owner, name, names, none_⟩ |
      ⟨other, foreign⟩
  · rw [found]
    constructor
    · intro same
      obtain rfl := RepoLookup.found.inj (Option.some.inj same)
      exact ⟨owner, name, names, existing⟩
    · rintro ⟨owner', name', names', existing'⟩
      obtain ⟨rfl, rfl⟩ := names.unique names'
      rw [existing.unique existing']
  · rw [absent]
    constructor
    · intro same
      cases same
    · rintro ⟨owner', name', names', existing'⟩
      obtain ⟨rfl, rfl⟩ := names.unique names'
      exact absurd existing' (none_ p)
  · rw [other]
    constructor
    · intro same
      cases same
    · rintro ⟨owner', name', names', -⟩
      exact absurd names' (foreign owner' name')

/-- When the lookup raises `ObjectNotFound`. -/
theorem objectNotFound_iff (readable : BuildConfigLogic.Readable lib dep) :
    getCoprByRepo lib table dep = some .objectNotFound ↔ Missing lib table dep := by
  rcases getCoprByRepo_spec table readable with
    ⟨owner, name, q, found, names, existing⟩ | ⟨absent, missing⟩ | ⟨other, foreign⟩
  · rw [found]
    constructor
    · intro same
      cases same
    · rintro ⟨owner', name', names', none_⟩
      obtain ⟨rfl, rfl⟩ := names.unique names'
      exact absurd existing (none_ q)
  · exact ⟨fun _ => missing, fun _ => absent⟩
  · rw [other]
    constructor
    · intro same
      cases same
    · rintro ⟨owner', name', names', -⟩
      exact absurd names' (foreign owner' name')

/-- When the lookup returns `None`. -/
theorem notCopr_iff (readable : BuildConfigLogic.Readable lib dep) :
    getCoprByRepo lib table dep = some .notCopr ↔ External lib dep := by
  rcases getCoprByRepo_spec table readable with
    ⟨owner, name, q, found, names, -⟩ | ⟨absent, owner, name, names, -⟩ | ⟨other, foreign⟩
  · rw [found]
    constructor
    · intro same
      cases same
    · exact fun foreign => absurd names (foreign owner name)
  · rw [absent]
    constructor
    · intro same
      cases same
    · exact fun foreign => absurd names (foreign owner name)
  · exact ⟨fun _ => foreign, fun _ => other⟩

end Lookup

/-! ## The loop -/

section Loop

variable (lib : UrlLibrary) (order : ListedSets) (table : DependencyTable)
  (copr : DependencyProject)

/-- What one dependency does to the sets. -/
def collect (found : TransitiveDependencies) (dep : String) : Option TransitiveDependencies :=
  (analyze lib table copr (found, []) dep).map Prod.fst

/-- What one dependency schedules. -/
def scheduled (dep : String) : List DependencyProject :=
  match getCoprByRepo lib table dep with
  | some (.found coprDep) => if copr = coprDep then [] else [coprDep]
  | _ => []

/-- What a project schedules. -/
def next (analyzed : DependencyProject) : List DependencyProject :=
  (runtimeDeps lib order analyzed).flatMap (scheduled lib table copr)

variable {lib order table copr} {found final : TransitiveDependencies} {deps : List String}
  {p q start : DependencyProject}

/-- A dependency changes the sets and schedules, both independently of what was scheduled. -/
theorem analyze_eq (tasks : List DependencyProject) (dep : String) :
    analyze lib table copr (found, tasks) dep =
      (collect lib table copr found dep).map fun found' =>
        (found', tasks ++ scheduled lib table copr dep) := by
  unfold collect analyze scheduled
  cases getCoprByRepo lib table dep with
  | none => rfl
  | some result =>
    cases result with
    | found coprDep => by_cases same : copr = coprDep <;> simp [same]
    | objectNotFound => simp
    | notCopr => simp

/-- The dependencies of a project change the sets and schedule. -/
theorem foldlM_analyze (tasks : List DependencyProject) :
    deps.foldlM (analyze lib table copr) (found, tasks) =
      (deps.foldlM (collect lib table copr) found).map fun found' =>
        (found', tasks ++ deps.flatMap (scheduled lib table copr)) := by
  induction deps generalizing found tasks with
  | nil => simp
  | cons dep deps ih =>
    rw [List.foldlM_cons, List.foldlM_cons, analyze_eq]
    cases collect lib table copr found dep with
    | none => rfl
    | some found' =>
      change deps.foldlM (analyze lib table copr) (found', _) = _
      rw [ih, List.flatMap_cons, List.append_assoc]
      rfl

/-- The body of the loop over readable dependencies. -/
theorem analyzeCopr_eq (found : TransitiveDependencies) (analyzed : DependencyProject) :
    analyzeCopr lib order table copr found analyzed =
      ((runtimeDeps lib order analyzed).foldlM (collect lib table copr) found).map fun found' =>
        (found', next lib order table copr analyzed) := by
  rw [analyzeCopr, foldlM_analyze, List.nil_append]
  rfl

/-- Readable dependencies raise nothing but `ObjectNotFound`. -/
theorem collect_isSome {dep : String} (readable : BuildConfigLogic.Readable lib dep) :
    (collect lib table copr found dep).isSome = true := by
  unfold collect analyze
  rcases getCoprByRepo_spec table readable with
    ⟨owner, name, q, looked, -⟩ | ⟨looked, -⟩ | ⟨looked, -⟩
  · rw [looked]
    by_cases same : copr = q <;> simp [same]
  · simp [looked]
  · simp [looked]

/-- Any number of readable dependencies raise nothing. -/
theorem foldlM_collect_isSome (readable : ∀ dep ∈ deps, BuildConfigLogic.Readable lib dep) :
    (deps.foldlM (collect lib table copr) found).isSome = true := by
  induction deps generalizing found with
  | nil => rfl
  | cons dep deps ih =>
    rw [List.forall_mem_cons] at readable
    have first : (collect lib table copr found dep).isSome = true := collect_isSome readable.1
    obtain ⟨found', one⟩ := Option.isSome_iff_exists.mp first
    rw [List.foldlM_cons, one]
    exact ih readable.2

/-- What the sets hold after one dependency. -/
structure Collected (lib : UrlLibrary) (table : DependencyTable) (copr : DependencyProject)
    (deps : List String) (found final : TransitiveDependencies) : Prop where
  /-- The projects. -/
  internal : ∀ q, q ∈ final.internal ↔ q ∈ found.internal ∨
    q ≠ copr ∧ ∃ dep ∈ deps, getCoprByRepo lib table dep = some (.found q)
  /-- The URLs. -/
  external : ∀ dep, dep ∈ final.external ↔ dep ∈ found.external ∨
    dep ∈ deps ∧ getCoprByRepo lib table dep = some .notCopr
  /-- The references. -/
  nonExisting : ∀ dep, dep ∈ final.nonExisting ↔ dep ∈ found.nonExisting ∨
    dep ∈ deps ∧ getCoprByRepo lib table dep = some .objectNotFound
  /-- No element comes twice. -/
  nodup : found.internal.Nodup ∧ found.external.Nodup ∧ found.nonExisting.Nodup →
    final.internal.Nodup ∧ final.external.Nodup ∧ final.nonExisting.Nodup

/-- One dependency is collected as an external, a missing or an existing one. -/
theorem collected_one {dep : String} (one : collect lib table copr found dep = some final) :
    Collected lib table copr [dep] found final := by
  unfold collect analyze at one
  cases looked : getCoprByRepo lib table dep with
  | none =>
    rw [looked] at one
    contradiction
  | some result =>
    rw [looked] at one
    cases result with
    | found coprDep =>
      by_cases same : copr = coprDep
      · simp only [if_pos same, Option.map_some, Option.some.injEq] at one
        obtain rfl := one
        subst same
        constructor
        · intro q
          simp only [List.mem_singleton, exists_eq_left, looked, Option.some.injEq,
            RepoLookup.found.injEq]
          exact ⟨Or.inl, fun member => member.elim id fun new => absurd new.2.symm new.1⟩
        · simp_all
        · simp_all
        · exact id
      · simp only [if_neg same, Option.map_some, Option.some.injEq] at one
        obtain rfl := one
        constructor
        · intro q
          simp only [List.mem_insert_iff, List.mem_singleton, exists_eq_left, looked,
            Option.some.injEq, RepoLookup.found.injEq]
          constructor
          · rintro (rfl | old)
            · exact Or.inr ⟨fun equal => same equal.symm, rfl⟩
            · exact Or.inl old
          · rintro (old | ⟨-, rfl⟩)
            · exact Or.inr old
            · exact Or.inl rfl
        · simp_all
        · simp_all
        · exact fun nodup => ⟨nodup.1.insert, nodup.2⟩
    | objectNotFound =>
      simp only [Option.map_some, Option.some.injEq] at one
      obtain rfl := one
      constructor
      · simp_all
      · simp_all
      · intro other
        simp only [List.mem_insert_iff, List.mem_singleton]
        constructor
        · rintro (rfl | old)
          · exact Or.inr ⟨rfl, looked⟩
          · exact Or.inl old
        · rintro (old | ⟨rfl, -⟩)
          · exact Or.inr old
          · exact Or.inl rfl
      · exact fun nodup => ⟨nodup.1, nodup.2.1, nodup.2.2.insert⟩
    | notCopr =>
      simp only [Option.map_some, Option.some.injEq] at one
      obtain rfl := one
      constructor
      · simp_all
      · intro other
        simp only [List.mem_insert_iff, List.mem_singleton]
        constructor
        · rintro (rfl | old)
          · exact Or.inr ⟨rfl, looked⟩
          · exact Or.inl old
        · rintro (old | ⟨rfl, -⟩)
          · exact Or.inr old
          · exact Or.inl rfl
      · simp_all
      · exact fun nodup => ⟨nodup.1, nodup.2.1.insert, nodup.2.2⟩

/-- Any number of dependencies are collected as external, missing or existing ones. -/
theorem collected (all : deps.foldlM (collect lib table copr) found = some final) :
    Collected lib table copr deps found final := by
  induction deps generalizing found with
  | nil =>
    obtain rfl := Option.some.inj all
    constructor <;> simp
  | cons dep deps ih =>
    rw [List.foldlM_cons] at all
    obtain ⟨middle, one, rest⟩ := Option.bind_eq_some_iff.mp all
    have first := collected_one one
    have later := ih rest
    constructor
    · intro q
      rw [later.internal, first.internal]
      simp only [List.mem_singleton, exists_eq_left, List.exists_mem_cons_iff]
      tauto
    · intro other
      rw [later.external, first.external, List.mem_singleton, List.mem_cons]
      tauto
    · intro other
      rw [later.nonExisting, first.nonExisting, List.mem_singleton, List.mem_cons]
      tauto
    · exact fun nodup => later.nodup (first.nodup nodup)

/-- The projects that are scheduled are dependencies other than the start. -/
theorem mem_next (readable : ∀ dep ∈ listed lib p, BuildConfigLogic.Readable lib dep) :
    q ∈ next lib order table copr p ↔ q ≠ copr ∧ DependsOn lib table p q := by
  have one : ∀ dep, q ∈ scheduled lib table copr dep ↔
      q ≠ copr ∧ getCoprByRepo lib table dep = some (.found q) := by
    intro dep
    unfold scheduled
    split
    · rename_i coprDep looked
      by_cases same : copr = coprDep
      · subst same
        simp only [if_pos, List.not_mem_nil, looked, Option.some.injEq, RepoLookup.found.injEq,
          false_iff, not_and]
        exact fun other equal => other equal.symm
      · simp only [if_neg same, List.mem_singleton, looked, Option.some.injEq,
          RepoLookup.found.injEq]
        exact ⟨fun equal => ⟨fun start => same (start ▸ equal), equal.symm⟩, fun both =>
          both.2.symm⟩
    · rename_i other
      exact ⟨fun none => absurd none List.not_mem_nil, fun both => absurd both.2 (other q)⟩
  simp only [next, List.mem_flatMap, one, runtimeDeps, order.mem]
  constructor
  · rintro ⟨dep, inside, other, looked⟩
    obtain ⟨owner, name, names, existing⟩ := (found_iff (readable dep inside)).mp looked
    exact ⟨other, dep, inside, owner, name, names, existing⟩
  · rintro ⟨other, dep, inside, owner, name, names, existing⟩
    exact ⟨dep, inside, other, (found_iff (readable dep inside)).mpr
      ⟨owner, name, names, existing⟩⟩

/-- What the work list reaches is what the start depends on, and the start. -/
theorem reached_iff
    (readable : ∀ p ∈ table.rows, ∀ dep ∈ listed lib p, BuildConfigLogic.Readable lib dep)
    (known : start ∈ table.rows) :
    Reached (next lib order table start) [start] p ↔
      Relation.ReflTransGen (DependsOn lib table) start p := by
  constructor
  · rintro ⟨origin, listed_, path⟩
    obtain rfl := List.mem_singleton.mp listed_
    have member : Relation.ReflTransGen (DependsOn lib table) origin p ∧ p ∈ table.rows := by
      induction path with
      | refl => exact ⟨.refl, known⟩
      | tail _ out ih =>
        have depends := ((mem_next (readable _ ih.2)).mp out).2
        obtain ⟨dep, -, owner, name, -, existing⟩ := depends
        exact ⟨ih.1.tail ((mem_next (readable _ ih.2)).mp out).2, existing.1⟩
    exact member.1
  · intro path
    refine ⟨start, List.mem_singleton_self start, ?_⟩
    have member : Relation.ReflTransGen (fun a b => b ∈ next lib order table start a) start p ∧
        p ∈ table.rows := by
      induction path with
      | refl => exact ⟨.refl, known⟩
      | @tail b c _ depends ih =>
        have row : c ∈ table.rows := by
          obtain ⟨dep, -, owner, name, -, existing⟩ := depends
          exact existing.1
        by_cases same : c = start
        · rw [same]
          exact ⟨.refl, known⟩
        · exact ⟨ih.1.tail ((mem_next (readable b ih.2)).mpr ⟨same, depends⟩), row⟩
    exact member.1

end Loop

/-- `get_transitive_runtime_dependencies` ends, with one result: the existing projects that the
start depends on, directly or not, without the start; the external URLs and the references to
missing projects that the start or one of these lists; nothing twice. -/
theorem transitive_runtime_dependencies (lib : UrlLibrary) (order : ListedSets)
    (table : DependencyTable) (start : DependencyProject) (known : start ∈ table.rows)
    (accepted : ∀ p ∈ table.rows,
      BuildConfigLogic.Accepted lib (p.runtimeDependencies.getD "")) :
    ∃ result, Returns lib order table (some start) result ∧
      (∀ other, Returns lib order table (some start) other → other = result) ∧
      (result.internal.Nodup ∧ result.external.Nodup ∧ result.nonExisting.Nodup) ∧
      (∀ q, q ∈ result.internal ↔
        q ≠ start ∧ Relation.TransGen (DependsOn lib table) start q) ∧
      (∀ dep, dep ∈ result.external ↔ External lib dep ∧ ListedBelow lib table start dep) ∧
      (∀ dep, dep ∈ result.nonExisting ↔
        Missing lib table dep ∧ ListedBelow lib table start dep) := by
  have readable : ∀ p ∈ table.rows, ∀ dep ∈ listed lib p,
      BuildConfigLogic.Readable lib dep := by
    intro p row dep inside
    unfold listed at inside
    split at inside
    · contradiction
    · rename_i text stored
      have text_ := accepted p row
      rw [stored] at text_
      exact text_.readable inside
  have row : ∀ p, Relation.ReflTransGen (DependsOn lib table) start p → p ∈ table.rows := by
    intro p path
    cases path with
    | refl => exact known
    | tail _ depends =>
      obtain ⟨dep, -, owner, name, -, existing⟩ := depends
      exact existing.1
  have reached : ∀ p, Reached (next lib order table start) [start] p ↔
      Relation.ReflTransGen (DependsOn lib table) start p := fun p => reached_iff readable known
  obtain ⟨visited, result, ends, -, members, folded⟩ := @loop_ends _ _ _
    (analyzeCopr lib order table start) (next lib order table start) [start]
    (fun visited found => (visited.flatMap (runtimeDeps lib order)).foldlM
      (collect lib table start) {} = some found) {} rfl
    (by
      intro visited found p path _ before
      have some_ : ((order.list (listed lib p)).foldlM (collect lib table start)
          found).isSome = true :=
        foldlM_collect_isSome fun dep inside => readable p (row p ((reached p).mp path)) dep
          ((order.mem _ dep).mp inside)
      obtain ⟨found', after⟩ := Option.isSome_iff_exists.mp some_
      refine ⟨found', by rw [analyzeCopr_eq, runtimeDeps, after]; rfl, ?_⟩
      rw [List.flatMap_append, List.foldlM_append, before, List.flatMap_singleton]
      exact after)
    table.rows (fun p path => row p ((reached p).mp path))
  have sets := collected folded
  have inside : ∀ dep, dep ∈ visited.flatMap (runtimeDeps lib order) ↔
      ListedBelow lib table start dep := by
    intro dep
    simp only [List.mem_flatMap, runtimeDeps, order.mem, members, reached, ListedBelow]
  have below : ∀ dep, ListedBelow lib table start dep → BuildConfigLogic.Readable lib dep := by
    rintro dep ⟨p, path, member⟩
    exact readable p (row p path) dep member
  refine ⟨result, ends, fun other also => also.unique ends, sets.nodup (by simp), ?_, ?_, ?_⟩
  · intro q
    simp only [sets.internal, List.not_mem_nil, false_or, inside]
    refine and_congr_right fun _ => ?_
    rw [Relation.TransGen.tail'_iff]
    constructor
    · rintro ⟨dep, ⟨p, path, member⟩, looked⟩
      obtain ⟨owner, name, names, existing⟩ := (found_iff (below dep ⟨p, path, member⟩)).mp looked
      exact ⟨p, path, dep, member, owner, name, names, existing⟩
    · rintro ⟨p, path, dep, member, owner, name, names, existing⟩
      exact ⟨dep, ⟨p, path, member⟩, (found_iff (below dep ⟨p, path, member⟩)).mpr
        ⟨owner, name, names, existing⟩⟩
  · intro dep
    simp only [sets.external, List.not_mem_nil, false_or, inside]
    constructor
    · rintro ⟨member, looked⟩
      exact ⟨(notCopr_iff (below dep member)).mp looked, member⟩
    · rintro ⟨foreign, member⟩
      exact ⟨member, (notCopr_iff (below dep member)).mpr foreign⟩
  · intro dep
    simp only [sets.nonExisting, List.not_mem_nil, false_or, inside]
    constructor
    · rintro ⟨member, looked⟩
      exact ⟨(objectNotFound_iff (below dep member)).mp looked, member⟩
    · rintro ⟨missing, member⟩
      exact ⟨member, (objectNotFound_iff (below dep member)).mpr missing⟩

end RuntimeDependencies

namespace Sample

/-- Sets in the order of the last additions. -/
def listedSets : ListedSets where
  list := List.dedup
  mem _ _ := List.mem_dedup
  nodup := List.nodup_dedup

/-- A project of a user that depends on the project of a group, on itself and on more. -/
def dependentProject : DependencyProject where
  id := 1
  owner := .user "u"
  name := "p"
  runtimeDependencies := some "copr://@g/q copr://u/p https://r/ copr://u/gone"

/-- A project of a group that depends on the one above. -/
def groupProject : DependencyProject where
  id := 2
  owner := .group "g"
  name := "q"
  runtimeDependencies := some "copr://u/p"

/-- A table with both projects. -/
def dependencyTable : DependencyTable where
  rows := [dependentProject, groupProject]
  unique := by decide

end Sample

namespace RuntimeDependencies

open Sample

/-- The dependencies of the projects of the sample were accepted. -/
theorem transitive_runtime_dependencies_sample :
    ∃ result, Returns urlLibrary listedSets dependencyTable (some dependentProject) result ∧
      result.internal.Nodup := by
  obtain ⟨result, returns, -, ⟨nodup, -⟩, -⟩ := transitive_runtime_dependencies urlLibrary
    listedSets dependencyTable dependentProject (by decide) (by
      intro p row
      obtain rfl | rfl : p = dependentProject ∨ p = groupProject := by
        simpa [dependencyTable] using row
      · exact ⟨fun _ _ => true, by decide⟩
      · exact ⟨fun _ _ => true, by decide⟩)
  exact ⟨result, returns, nodup⟩

/-- The group's project, one URL and one reference to a project that does not exist. -/
example : (rounds (analyzeCopr urlLibrary listedSets dependencyTable dependentProject) 2
    (WorkList.ofTasks [dependentProject], {})).map (fun s => (s.1.isEmpty, s.2)) =
      some (true, {
        internal := [groupProject]
        external := ["https://r/"]
        nonExisting := ["copr://u/gone"] }) := by
  decide

end RuntimeDependencies

end Copr
