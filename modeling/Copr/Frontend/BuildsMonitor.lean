import Mathlib.Data.Nat.Basic
import Copr.Lib.Groups

/-!
# The monitor of a directory

`package_build_chroots` of `BuildsMonitorLogic` in `coprs/logic/builds_logic.py`, over any result of
its query: the rows in which a `BuildChroot`, its build and the package of this build are joined,
sorted by the name of the package, then the newest build first. Names are ordered by the collation
of the database, in which different names are not equal.
-/

namespace Copr

open Groups

variable {Name : Type*}

/-- `Package`. -/
structure MonitorPackage (Name : Type*) where
  /-- `id`. -/
  id : Nat
  /-- `name`. -/
  name : Name
  deriving DecidableEq, Repr

/-- `Build`. -/
structure MonitorBuild (Name : Type*) where
  /-- `id`. -/
  id : Nat
  /-- `package`. -/
  package : Option (MonitorPackage Name)
  /-- `copr_dir_id`. -/
  coprDirId : Option Nat
  deriving DecidableEq, Repr

/-- A row of the joined tables: a `BuildChroot` whose build has a package. -/
structure MonitorRow (Name : Type*) where
  /-- `build.id`. -/
  buildId : Nat
  /-- `build.package`. -/
  package : MonitorPackage Name
  /-- `mock_chroot_id`. -/
  mockChrootId : Nat
  deriving DecidableEq, Repr

/-- The tables that the query joins. -/
structure MonitorTables (Name : Type*) where
  /-- The `BuildChroot`s, with their builds. -/
  buildChroots : List (MonitorBuild Name × Nat)
  /-- A build has one `BuildChroot` in a chroot. -/
  unique : (buildChroots.map fun bch => (bch.1.id, bch.2)).Nodup
  /-- In a directory, which is of one project, a name is of one package. -/
  packages : ∀ a ∈ buildChroots, ∀ b ∈ buildChroots, ∀ p q, a.1.package = some p →
    b.1.package = some q → a.1.coprDirId = b.1.coprDirId → p.name = q.name → p = q

/-- What is yielded for one package. -/
structure MonitorData (Name : Type*) where
  /-- `name`. -/
  name : Option Name
  /-- `chroots`. -/
  chroots : List (MonitorRow Name)
  deriving DecidableEq, Repr

namespace BuildsMonitorLogic

/-! ## The query -/

/-- The joins and filters of `package_build_chroots_query`. -/
def selectRow (coprDirId : Nat) (mockChrootIds : List Nat) (bch : MonitorBuild Name × Nat) :
    Option (MonitorRow Name) :=
  bch.1.package.bind fun package =>
    if bch.2 ∈ mockChrootIds ∧ bch.1.coprDirId = some coprDirId then
      some { buildId := bch.1.id, package := package, mockChrootId := bch.2 }
    else none

/-- The rows of `package_build_chroots_query`, in any order. -/
def selected (tables : MonitorTables Name) (coprDirId : Nat) (mockChrootIds : List Nat) :
    List (MonitorRow Name) :=
  tables.buildChroots.filterMap (selectRow coprDirId mockChrootIds)

variable [LinearOrder Name]

/-- The order of `package_build_chroots_query`. -/
def Before (a b : MonitorRow Name) : Prop :=
  a.package.name < b.package.name ∨ a.package.name = b.package.name ∧ b.buildId ≤ a.buildId

/-- The database may return these rows. -/
def IsResult (tables : MonitorTables Name) (coprDirId : Nat) (mockChrootIds : List Nat)
    (rows : List (MonitorRow Name)) : Prop :=
  rows.Perm (selected tables coprDirId mockChrootIds) ∧ rows.Pairwise Before

/-! ## The stream -/

/-- `_Finder`. -/
structure Finder (Name : Type*) where
  /-- `mock_chroot_ids_found`. -/
  mockChrootIdsFound : List Nat := []
  /-- `package_name`. -/
  packageName : Option Name := none
  /-- `chroots`. -/
  chroots : List (MonitorRow Name) := []

namespace Finder

omit [LinearOrder Name] in
/-- `get_data`. -/
def getData (f : Finder Name) : Option (MonitorData Name) :=
  if f.chroots = [] then none else some { name := f.packageName, chroots := f.chroots }

omit [LinearOrder Name] in
/-- `_add_item`. -/
def addItem (f : Finder Name) (bch : MonitorRow Name) : Finder Name where
  mockChrootIdsFound := f.mockChrootIdsFound.insert bch.mockChrootId
  packageName := some bch.package.name
  chroots := f.chroots ++ [bch]

/-- `add`, with what it returns. -/
def add (f : Finder Name) (bch : MonitorRow Name) : Option (MonitorData Name) × Finder Name :=
  match f.packageName with
  | none => (none, f.addItem bch)
  | some packageName =>
    if bch.package.name = packageName then
      if bch.mockChrootId ∈ f.mockChrootIdsFound then (none, f)
      else (none, f.addItem bch)
    else (f.getData, addItem {} bch)

end Finder

/-- What is yielded from some point on. -/
def stream (f : Finder Name) : List (MonitorRow Name) → List (MonitorData Name)
  | [] => f.getData.toList
  | bch :: rows => (f.add bch).1.toList ++ stream (f.add bch).2 rows

/-- `package_build_chroots`, over the rows of the query. -/
def packageBuildChroots (rows : List (MonitorRow Name)) : List (MonitorData Name) :=
  stream {} rows

/-! ## What is yielded -/

omit [LinearOrder Name] in
/-- The data of a group. -/
def dataOf (group : Name × List (MonitorRow Name)) : MonitorData Name where
  name := some group.1
  chroots := group.2

/-- The rows that have come are grouped: the groups before the last one were yielded, the last one
is held. -/
def Holds (come : List (MonitorRow Name)) (yielded : List (MonitorData Name)) (f : Finder Name) :
    Prop :=
  (come = [] ∧ yielded = [] ∧ f = {}) ∨
    ∃ groups name kept, yielded = groups.map dataOf ∧ f.packageName = some name ∧
      f.chroots = kept ∧ kept ≠ [] ∧
      (∀ c, c ∈ f.mockChrootIdsFound ↔ c ∈ kept.map MonitorRow.mockChrootId) ∧
      Grouped (fun r => r.package.name) MonitorRow.mockChrootId come (groups ++ [(name, kept)])

variable {come rows : List (MonitorRow Name)} {yielded : List (MonitorData Name)}
  {f : Finder Name} {bch : MonitorRow Name}

omit [LinearOrder Name] in
/-- A finder with chroots has data. -/
theorem getData_of_ne_nil {name : Name} {kept : List (MonitorRow Name)}
    (named : f.packageName = some name) (chroots : f.chroots = kept) (filled : kept ≠ []) :
    f.getData = some (dataOf (name, kept)) := by
  rw [Finder.getData, chroots, if_neg filled, named]
  rfl

/-- A row that comes in its turn. -/
theorem Holds.add (holds : Holds come yielded f)
    (sorted : ∀ r ∈ come, r.package.name ≤ bch.package.name) :
    Holds (come ++ [bch]) (yielded ++ (f.add bch).1.toList) (f.add bch).2 := by
  rcases holds with ⟨rfl, rfl, rfl⟩ |
    ⟨groups, name, kept, rfl, named, chroots, filled, found, grouped⟩
  · refine Or.inr ⟨[], bch.package.name, [bch], rfl, rfl, rfl, by simp, ?_, ?_⟩
    · intro c
      simp [Finder.add, Finder.addItem]
    · exact grouped_nil.begin (by simp)
  · have there : ∃ r ∈ come, r.package.name = name :=
      ((grouped.group name kept).mp (List.mem_append_right _ (List.mem_singleton_self _))).1
    by_cases same : bch.package.name = name
    · subst same
      have joined := grouped.join
      by_cases known : bch.mockChrootId ∈ kept.map MonitorRow.mockChrootId
      · rw [if_pos known] at joined
        have step : f.add bch = (none, f) := by
          simp [Finder.add, named, (found bch.mockChrootId).mpr known]
        rw [step]
        exact Or.inr
          ⟨groups, bch.package.name, kept, by simp, named, chroots, filled, found, joined⟩
      · rw [if_neg known] at joined
        have step : f.add bch = (none, f.addItem bch) := by
          have unknown : bch.mockChrootId ∉ f.mockChrootIdsFound :=
            fun member => known ((found bch.mockChrootId).mp member)
          simp [Finder.add, named, unknown]
        rw [step]
        refine Or.inr
          ⟨groups, bch.package.name, kept ++ [bch], by simp, rfl, ?_, by simp, ?_, joined⟩
        · rw [Finder.addItem, chroots]
        · intro c
          rw [Finder.addItem, List.mem_insert_iff, found, List.map_append, List.mem_append]
          simp [or_comm]
    · have step : f.add bch = (f.getData, Finder.addItem {} bch) := by
        simp [Finder.add, named, same]
      rw [step, getData_of_ne_nil named chroots filled]
      refine Or.inr ⟨groups ++ [(name, kept)], bch.package.name, [bch], by simp, rfl, rfl, by simp,
        ?_, ?_⟩
      · intro c
        simp [Finder.addItem]
      · refine grouped.begin fun r member => ?_
        -- The last group has the highest name so far, and the new name is another one.
        have top : r.package.name ≤ name := by
          have keys := grouped.rise
          rw [List.map_append, List.pairwise_append] at keys
          have own : ∃ s ∈ come, s.package.name = r.package.name := ⟨r, member, rfl⟩
          have inGroups := (grouped.group r.package.name _).mpr ⟨own, rfl⟩
          rcases List.mem_append.mp inGroups with earlier | last
          · exact (keys.2.2 _ (List.mem_map_of_mem earlier) name (List.mem_singleton_self _)).le
          · rw [List.mem_singleton, Prod.mk.injEq] at last
            exact last.1.le
        obtain ⟨s, inCome, equal⟩ := there
        have below : name ≤ bch.package.name := equal ▸ sorted s inCome
        exact lt_of_le_of_lt top (lt_of_le_of_ne below fun equal => same equal.symm)

/-- From any point on, what is yielded completes the groups. -/
theorem Holds.stream (holds : Holds come yielded f)
    (sorted : (come ++ rows).Pairwise fun a b => a.package.name ≤ b.package.name) :
    ∃ groups, yielded ++ stream f rows = groups.map dataOf ∧
      Grouped (fun r => r.package.name) MonitorRow.mockChrootId (come ++ rows) groups := by
  induction rows generalizing come yielded f with
  | nil =>
    rw [List.append_nil]
    rcases holds with ⟨rfl, rfl, rfl⟩ |
      ⟨groups, name, kept, rfl, named, chroots, filled, -, grouped⟩
    · exact ⟨[], rfl, grouped_nil⟩
    · refine ⟨groups ++ [(name, kept)], ?_, grouped⟩
      rw [BuildsMonitorLogic.stream, getData_of_ne_nil named chroots filled]
      simp
  | cons bch rows ih =>
    have further := holds.add fun r member =>
      (List.pairwise_append.mp sorted).2.2 r member bch List.mem_cons_self
    have split : come ++ bch :: rows = come ++ [bch] ++ rows := by simp
    rw [split] at sorted ⊢
    obtain ⟨groups, same, grouped⟩ := ih further sorted
    exact ⟨groups, by rw [← same, BuildsMonitorLogic.stream, List.append_assoc], grouped⟩

/-- The stream is right for the rows of the query. -/
structure Monitored (rows : List (MonitorRow Name)) (out : List (MonitorData Name)) : Prop where
  /-- Each name that occurs comes once, in the order of the names. -/
  names : ∃ names : List Name, out.map MonitorData.name = names.map some ∧ names.Pairwise (· < ·) ∧
    ∀ name, name ∈ names ↔ ∃ r ∈ rows, r.package.name = name
  /-- A name stands for a package. -/
  packages : ∀ r ∈ rows, ∀ s ∈ rows, r.package.name = s.package.name → r.package = s.package
  /-- A package has one entry for each chroot that occurs for it. -/
  chroots : ∀ data ∈ out, (data.chroots.map MonitorRow.mockChrootId).Nodup ∧
    ∀ c, c ∈ data.chroots.map MonitorRow.mockChrootId ↔
      ∃ r ∈ rows, data.name = some r.package.name ∧ r.mockChrootId = c
  /-- This entry is of the package, and of the highest build for the chroot. -/
  latest : ∀ data ∈ out, ∀ b ∈ data.chroots, b ∈ rows ∧ data.name = some b.package.name ∧
    ∀ r ∈ rows, r.package = b.package → r.mockChrootId = b.mockChrootId →
      r = b ∨ r.buildId < b.buildId

section Result

variable {tables : MonitorTables Name} {coprDirId : Nat} {mockChrootIds : List Nat}
  {r s : MonitorRow Name}

/-- A row of the monitor is a build chroot of the directory with its package, build and mock chroot.
-/
theorem exists_of_mem (result : IsResult tables coprDirId mockChrootIds rows)
    (member : r ∈ rows) : ∃ bch ∈ tables.buildChroots, bch.1.package = some r.package ∧
      bch.1.coprDirId = some coprDirId ∧ bch.1.id = r.buildId ∧ bch.2 = r.mockChrootId := by
  obtain ⟨bch, listed, selects⟩ := List.mem_filterMap.mp (result.1.mem_iff.mp member)
  obtain ⟨package, joined, kept⟩ := Option.bind_eq_some_iff.mp selects
  split at kept
  · rename_i wanted
    obtain rfl := Option.some.inj kept
    exact ⟨bch, listed, joined, wanted.2, rfl, rfl⟩
  · contradiction

/-- In the rows a name is of one package. -/
theorem package_eq (result : IsResult tables coprDirId mockChrootIds rows) (first : r ∈ rows)
    (second : s ∈ rows) (same : r.package.name = s.package.name) : r.package = s.package := by
  obtain ⟨a, inA, packageA, dirA, -⟩ := exists_of_mem result first
  obtain ⟨b, inB, packageB, dirB, -⟩ := exists_of_mem result second
  exact tables.packages a inA b inB _ _ packageA packageB (dirA.trans dirB.symm) same

/-- In the rows a build and a chroot are of one row. -/
theorem row_eq (result : IsResult tables coprDirId mockChrootIds rows) (first : r ∈ rows)
    (second : s ∈ rows) (build : r.buildId = s.buildId) (chroot : r.mockChrootId = s.mockChrootId) :
    r = s := by
  obtain ⟨a, inA, packageA, -, idA, chrootA⟩ := exists_of_mem result first
  obtain ⟨b, inB, packageB, -, idB, chrootB⟩ := exists_of_mem result second
  have same : a = b := List.inj_on_of_nodup_map tables.unique inA inB (by
    rw [idA, idB, chrootA, chrootB, build, chroot])
  rw [same, packageB] at packageA
  obtain ⟨buildId, package, mockChrootId⟩ := r
  obtain ⟨buildId', package', mockChrootId'⟩ := s
  simp_all

end Result

/-- For every directory and every result of the query, each package is yielded once, in order, with
its latest results. -/
theorem package_build_chroots_monitored (tables : MonitorTables Name) (coprDirId : Nat)
    (mockChrootIds : List Nat) (rows : List (MonitorRow Name))
    (result : IsResult tables coprDirId mockChrootIds rows) :
    Monitored rows (packageBuildChroots rows) := by
  have byName : ([] ++ rows).Pairwise fun a b : MonitorRow Name =>
      a.package.name ≤ b.package.name :=
    result.2.imp fun before => before.elim le_of_lt fun both => both.1.le
  have begins : Holds ([] : List (MonitorRow Name)) [] {} := Or.inl ⟨rfl, rfl, rfl⟩
  obtain ⟨groups, same, grouped⟩ := begins.stream byName
  have out : packageBuildChroots rows = groups.map dataOf := same
  have groupOf : ∀ data ∈ packageBuildChroots rows, ∃ name kept, data = dataOf (name, kept) ∧
      (∃ r ∈ rows, r.package.name = name) ∧
      kept = firsts MonitorRow.mockChrootId (rows.filter fun r => r.package.name = name) := by
    intro data member
    rw [out] at member
    obtain ⟨⟨name, kept⟩, inGroups, rfl⟩ := List.mem_map.mp member
    obtain ⟨there, kept_eq⟩ := (grouped.group name kept).mp inGroups
    exact ⟨name, kept, rfl, there, kept_eq⟩
  refine ⟨⟨groups.map Prod.fst, ?_, grouped.rise, ?_⟩, ?_, ?_, ?_⟩
  · rw [out, List.map_map, List.map_map]
    rfl
  · intro name
    constructor
    · intro member
      obtain ⟨⟨name', kept⟩, inGroups, rfl⟩ := List.mem_map.mp member
      exact ((grouped.group name' kept).mp inGroups).1
    · intro there
      exact List.mem_map_of_mem ((grouped.group name _).mpr ⟨there, rfl⟩)
  · exact fun r first s second => package_eq result first second
  · intro data member
    obtain ⟨name, kept, rfl, -, rfl⟩ := groupOf data member
    refine ⟨firsts_nodup MonitorRow.mockChrootId, fun c => ?_⟩
    constructor
    · intro listed
      obtain ⟨b, inKept, rfl⟩ := List.mem_map.mp listed
      have row := List.mem_filter.mp (firsts_subset MonitorRow.mockChrootId inKept)
      exact ⟨b, row.1, congrArg some (of_decide_eq_true row.2).symm, rfl⟩
    · rintro ⟨r, row, ofName, rfl⟩
      refine label_mem_firsts MonitorRow.mockChrootId (List.mem_filter.mpr ⟨row, ?_⟩)
      exact decide_eq_true (Option.some.inj ofName).symm
  · intro data member b inKept
    obtain ⟨name, kept, rfl, -, rfl⟩ := groupOf data member
    have row := List.mem_filter.mp (firsts_subset MonitorRow.mockChrootId inKept)
    have ofName : b.package.name = name := of_decide_eq_true row.2
    refine ⟨row.1, congrArg some ofName.symm, fun r inRows package chroot => ?_⟩
    have inGroup : r ∈ rows.filter fun r => r.package.name = name :=
      List.mem_filter.mpr ⟨inRows, decide_eq_true ((congrArg _ package).trans ofName)⟩
    have sorted : (rows.filter fun r => r.package.name = name).Pairwise Before :=
      result.2.filter _
    rcases firsts_first MonitorRow.mockChrootId sorted inKept inGroup chroot with same | before
    · exact Or.inl same
    · rcases before with lower | ⟨-, notNewer⟩
      · exact absurd (congrArg MonitorPackage.name package) lower.ne'
      · by_cases equal : r.buildId = b.buildId
        · exact Or.inl (row_eq result inRows row.1 equal chroot)
        · exact Or.inr (Nat.lt_of_le_of_ne notNewer equal)

end BuildsMonitorLogic

namespace Sample

/-- Two packages with builds in two chroots. -/
def monitorTables : MonitorTables Nat where
  buildChroots := [(⟨1, some ⟨1, 0⟩, some 1⟩, 7), (⟨2, some ⟨2, 5⟩, some 1⟩, 7),
    (⟨3, some ⟨1, 0⟩, some 1⟩, 7), (⟨3, some ⟨1, 0⟩, some 1⟩, 8), (⟨4, none, some 1⟩, 7)]
  unique := by decide
  packages := by
    have all : ∀ a ∈ ([(⟨1, some ⟨1, 0⟩, some 1⟩, 7), (⟨2, some ⟨2, 5⟩, some 1⟩, 7),
        (⟨3, some ⟨1, 0⟩, some 1⟩, 7), (⟨3, some ⟨1, 0⟩, some 1⟩, 8), (⟨4, none, some 1⟩, 7)] :
        List (MonitorBuild Nat × Nat)), ∀ p ∈ a.1.package, p.id = if p.name = 0 then 1 else 2 := by
      decide
    intro a inA b inB p q packageA packageB _ same
    have idP := all a inA p packageA
    have idQ := all b inB q packageB
    obtain ⟨idP', nameP⟩ := p
    obtain ⟨idQ', nameQ⟩ := q
    simp_all

/-- What the query returns: by name, the newest build first. -/
def monitorRows : List (MonitorRow Nat) :=
  [⟨3, ⟨1, 0⟩, 8⟩, ⟨3, ⟨1, 0⟩, 7⟩, ⟨1, ⟨1, 0⟩, 7⟩, ⟨2, ⟨2, 5⟩, 7⟩]

end Sample

namespace BuildsMonitorLogic

open Sample

/-- The rows of the sample are a result of the query. -/
theorem package_build_chroots_monitored_sample :
    Monitored monitorRows (packageBuildChroots monitorRows) :=
  package_build_chroots_monitored monitorTables 1 [7, 8] monitorRows
    ⟨by decide, by
      unfold monitorRows Before
      decide⟩

/-- The older build of the first package is left out. -/
example : packageBuildChroots monitorRows =
    [⟨some 0, [⟨3, ⟨1, 0⟩, 8⟩, ⟨3, ⟨1, 0⟩, 7⟩]⟩, ⟨some 5, [⟨2, ⟨2, 5⟩, 7⟩]⟩] := by
  decide

end BuildsMonitorLogic

end Copr
