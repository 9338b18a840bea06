import Copr.Lib.Tables
import Copr.Lib.Text
import Copr.Backend.Storage

/-!
# Distributions in Pulp

What Pulp serves: repositories, their publications, and distributions that point to either. An
object is told by its name here, since names are unique in Pulp. A deleted repository takes its
publications with it, and the distributions that pointed to it or to one of them point to nothing.
-/

namespace Copr

open Tables Text

/-- The name of a distribution. -/
structure DistributionName where
  /-- The name of the repository that the distribution was created for. -/
  path : ChrootPath
  /-- The name ends with `-devel`. -/
  devel : Bool
  deriving DecidableEq, Repr

/-- The name as Pulp has it. -/
def DistributionName.text (name : DistributionName) : String :=
  name.path.text ++ if name.devel then "-devel" else ""

/-- What a distribution points to. -/
inductive Target
  /-- Neither `repository` nor `publication` is set. -/
  | nothing
  /-- `repository`. -/
  | repository (path : ChrootPath)
  /-- `publication`: one of a repository, by its number. -/
  | publication (path : ChrootPath) (number : Nat)
  deriving DecidableEq, Repr

/-- The repository whose packages are served. -/
def Target.source : Target → Option ChrootPath
  | .nothing => none
  | .repository path => some path
  | .publication path _ => some path

/-- A distribution. -/
structure Distribution where
  /-- `name`. -/
  name : DistributionName
  /-- `repository` or `publication`. -/
  target : Target
  deriving DecidableEq, Repr

/-- The field `repository`. -/
def Distribution.repository (x : Distribution) : Option ChrootPath :=
  match x.target with
  | .repository path => some path
  | _ => none

/-- What is left of a distribution when some repositories are deleted. -/
def Distribution.without (gone : List ChrootPath) (x : Distribution) : Distribution :=
  if x.target.source.any (decide <| · ∈ gone) then { x with target := .nothing } else x

/-- A repository. -/
structure Repository where
  /-- The packages in its last version. -/
  content : List String
  /-- How many publications were created from it. -/
  publications : Nat
  deriving DecidableEq, Repr

/-- The tables of Pulp. -/
structure PulpTables where
  /-- The repositories that exist. -/
  repositories : ChrootPath → Option Repository
  /-- The distributions, in the order in which they are listed. -/
  distributions : Table Distribution.name

namespace Distribution

variable {gone more : List ChrootPath} {x : Distribution} {path : ChrootPath}

@[simp] theorem without_name : (x.without gone).name = x.name := by
  unfold without
  split <;> rfl

@[simp] theorem without_nil : x.without [] = x := by
  have none : (x.target.source.any (decide <| · ∈ ([] : List ChrootPath))) = false := by
    cases x.target.source <;> rfl
  rw [without, none]
  rfl

/-- A distribution stays as it is while what it points to is not deleted. -/
theorem without_eq_self :
    x.without gone = x ↔ ∀ path, x.target.source = some path → path ∉ gone := by
  unfold without
  cases pointed : x.target.source with
  | none => simp
  | some path =>
    by_cases member : path ∈ gone
    · have points : x.target ≠ .nothing := by
        intro nothing
        rw [nothing] at pointed
        contradiction
      have changed : ({ x with target := .nothing } : Distribution) ≠ x := by
        intro same
        exact points (congrArg target same).symm
      simp [member, changed]
    · simp [member]

/-- Repositories can be deleted one after another. -/
theorem without_append : x.without (gone ++ more) = (x.without gone).without more := by
  by_cases first : x.target.source.any (decide <| · ∈ gone)
  · have both : x.target.source.any (decide <| · ∈ gone ++ more) := by
      rw [Option.any_eq_true] at first ⊢
      apply first.imp
      intro path found
      exact ⟨found.1, by simpa using Or.inl (of_decide_eq_true found.2)⟩
    have left : (x.without gone).target = .nothing := by
      rw [without, if_pos first]
    have nothing : ((x.without gone).without more) = x.without gone := by
      rw [without_eq_self, left]
      intro path impossible
      contradiction
    rw [nothing, without, without, if_pos first, if_pos both]
  · have same : x.without gone = x := if_neg first
    have whole : (x.target.source.any (decide <| · ∈ gone ++ more)) =
        x.target.source.any (decide <| · ∈ more) := by
      cases pointed : x.target.source with
      | none => rfl
      | some path =>
        rw [pointed] at first
        have absent : path ∉ gone := by simpa using first
        simp [absent]
    rw [same, without, without, whole]

/-- A distribution that points to a repository has its name there. -/
theorem source_of_repository (pointed : x.repository = some path) :
    x.target.source = some path := by
  unfold repository at pointed
  split at pointed
  · rename_i same
    rw [same]
    exact pointed
  · contradiction

/-- What is left still points to a repository that is not deleted. -/
theorem repository_without :
    (x.without gone).repository = some path ↔ x.repository = some path ∧ path ∉ gone := by
  unfold without
  by_cases deleted : x.target.source.any (decide <| · ∈ gone)
  · rw [if_pos deleted]
    constructor
    · intro impossible
      contradiction
    · rintro ⟨pointed, absent⟩
      rw [source_of_repository pointed] at deleted
      exact absurd (by simpa using deleted) absent
  · rw [if_neg deleted]
    constructor
    · intro pointed
      rw [source_of_repository pointed] at deleted
      exact ⟨pointed, by simpa using deleted⟩
    · exact And.left

end Distribution

namespace PulpTables

/-- Some distributions are deleted. -/
def deleteDistributions (t : PulpTables) (gone : List DistributionName) : PulpTables :=
  { t with distributions := t.distributions.remove fun x => decide (x.name ∈ gone) }

/-- Some repositories are deleted. -/
def deleteRepositories (t : PulpTables) (gone : List ChrootPath) : PulpTables where
  repositories path := if path ∈ gone then none else t.repositories path
  distributions := t.distributions.update (fun _ => true) (Distribution.without gone)
    fun _ => Distribution.without_name

/-- The names of distributions that begin with a text, in the order in which they are listed. -/
def matching (t : PulpTables) (start : String) : List Distribution :=
  t.distributions.rows.filter fun x => startswith x.name.text start

variable {t : PulpTables} {x : Distribution}

/-- The distributions after some were deleted. -/
theorem mem_deleteDistributions {gone : List DistributionName} :
    x ∈ (t.deleteDistributions gone).distributions.rows ↔
      x ∈ t.distributions.rows ∧ x.name ∉ gone := by
  simp [deleteDistributions, Table.mem_remove]

/-- The distributions after some repositories were deleted. -/
theorem deleteRepositories_rows {gone : List ChrootPath} :
    (t.deleteRepositories gone).distributions.rows =
      t.distributions.rows.map (Distribution.without gone) := by
  simp [deleteRepositories, Table.update]

/-- A repository is created unless there is one of that name. -/
def createRepository (t : PulpTables) (path : ChrootPath) : PulpTables :=
  { t with
    repositories := Function.update t.repositories path
      (some ((t.repositories path).getD ⟨[], 0⟩)) }

/-- A distribution is created unless there is one of that name. -/
def createDistribution (t : PulpTables) (x : Distribution) : PulpTables :=
  { t with distributions := t.distributions.insert x }

/-- A distribution points to something else. -/
def updateDistribution (t : PulpTables) (name : DistributionName) (target : Target) : PulpTables :=
  { t with
    distributions := t.distributions.update (fun x => decide (x.name = name))
      (fun x => { x with target := target }) fun _ => rfl }

/-- A publication of the last version is created. -/
def publish (t : PulpTables) (path : ChrootPath) : PulpTables :=
  { t with
    repositories := Function.update t.repositories path
      ((t.repositories path).map fun r => { r with publications := r.publications + 1 }) }

/-- Packages are added to a repository. -/
def addContent (t : PulpTables) (path : ChrootPath) (packages : List String) : PulpTables :=
  { t with
    repositories := Function.update t.repositories path
      ((t.repositories path).map fun r => { r with content := r.content ++ packages }) }

/-- The first publication that is listed for a repository. -/
def newestPublication (t : PulpTables) (path : ChrootPath) : Option Target :=
  (t.repositories path).bind fun r =>
    if r.publications = 0 then none else some (.publication path r.publications)

variable {path : ChrootPath} {name : DistributionName} {target : Target}

/-- The newest publication is one of the repository. -/
theorem source_newestPublication (newest : t.newestPublication path = some target) :
    target.source = some path := by
  obtain ⟨r, -, chosen⟩ := Option.bind_eq_some_iff.mp newest
  have same := (Option.ite_none_left_eq_some.mp chosen).2
  cases same
  rfl

/-- What is found after a distribution was created. -/
@[simp] theorem find_createDistribution : (t.createDistribution x).distributions.find name =
    (t.distributions.find name).or (if x.name = name then some x else none) :=
  Table.find_insert

/-- What is found after a distribution was updated. -/
@[simp] theorem find_updateDistribution {other : DistributionName} :
    (t.updateDistribution name target).distributions.find other =
      (t.distributions.find other).map fun y =>
        if y.name = name then { y with target := target } else y := by
  simp [updateDistribution]

end PulpTables

end Copr
