import Copr.Lib.CommitGraph
import Copr.Lib.Dicts

/-!
# The import of a package into dist-git

`sync_branch` and `import_package` of `copr_dist_git/package_import.py`. Git and the package
tool are modelled by what they do to branches, to the checked out branch and to the index; each
of their steps may fail, and what a failed step leaves behind is part of the failure. A lock
keeps the imports into one repository apart. Uploads to the lookaside cache are left out.
-/

namespace Copr

open CommitGraph Dicts

variable {τ : Type*}

/-- The repository of a package; it has a branch that is checked out in a new clone. -/
structure Origin (τ : Type*) where
  /-- All branches. -/
  refs : Refs τ
  /-- The branch of a new clone. -/
  main : String
  /-- This branch exists. -/
  there : main ∈ refs

namespace Origin

/-- A branch is created or moved. -/
def set (origin : Origin τ) (branch : String) (c : Commit τ) : Origin τ where
  refs := origin.refs.insert branch c
  main := origin.main
  there := (AList.mem_insert _).mpr (Or.inr origin.there)

/-- `mkbranch`, where `base` finds the commit of a new branch. -/
def mkbranch (base : Origin τ → String → Commit τ) (origin : Origin τ) (branch : String) :
    Origin τ :=
  if branch ∈ origin.refs then origin else origin.set branch (base origin branch)

/-- `setup_git_repo`. -/
def setupGitRepo (base : Origin τ → String → Commit τ) (origin : Origin τ)
    (branches : List String) : Origin τ :=
  branches.foldl (mkbranch base) origin

/-- `clone`. -/
def clone (origin : Origin τ) : Checkout τ :=
  let head := (origin.refs.lookup origin.main).get (AList.lookup_isSome.mpr origin.there)
  { locals := (∅ : Refs τ).insert origin.main head
    branch := origin.main
    head := head
    current := AList.lookup_insert _
    index := head.tree }

end Origin

/-- The steps of one branch that fail. -/
structure Faults (τ : Type*) where
  /-- `switch_branch` raises an `rpkgError`. -/
  switchBranch : Bool := false
  /-- `import_srpm` or `upload` raises an error and leaves this behind. -/
  importSrpm : Option τ := none
  /-- `commit` raises an `rpkgError` although there is something to commit. -/
  commit : Bool := false
  /-- `git read-tree` fails and leaves this behind. -/
  readTree : Option τ := none
  /-- `git show` fails. -/
  showDate : Bool := false
  /-- `git diff` fails. -/
  diff : Bool := false
  /-- `git commit` fails. -/
  syncCommit : Bool := false
  /-- `push` raises an `rpkgError`. -/
  push : Bool := false
  deriving DecidableEq, Repr

/-- One branch of the list: its name, the time of a commit, and what fails. -/
structure Visit (τ : Type*) where
  /-- The branch. -/
  branch : String
  /-- When a commit would be made. -/
  stamp : Nat
  /-- What fails. -/
  faults : Faults τ := {}
  deriving DecidableEq, Repr

/-- An import in progress. -/
structure Import (τ : Type*) where
  /-- The repository. -/
  origin : Origin τ
  /-- The clone. -/
  clone : Checkout τ
  /-- `branch_commits`. -/
  branchCommits : List (String × Commit τ)

namespace Import

variable [DecidableEq τ]

/-- `switch_branch`; `none` is an `rpkgError`. -/
def switchBranch (i : Import τ) (v : Visit τ) : Option (Checkout τ) :=
  if v.faults.switchBranch || i.clone.dirty then none
  else
    match i.clone.locals.lookup v.branch with
    | some c => some (i.clone.moveTo v.branch c)
    | none => (i.origin.refs.lookup v.branch).map fun c => i.clone.moveTo v.branch c

/-- The first branch of an import; a commit that fails is taken for an empty one. -/
def importSrpm (content : τ) (v : Visit τ) (w : Checkout τ) : Except (Checkout τ) (Checkout τ) :=
  match v.faults.importSrpm with
  | some left => .error (w.stage left)
  | none =>
    let w := w.stage content
    .ok (if w.dirty && !v.faults.commit then w.commit v.stamp else w)

/-- The loop of `sync_branch`: the first branch of `branch_commits` that can be merged. -/
def mergeable (branchCommits : List (String × Commit τ)) (w : Checkout τ) : Option (Commit τ) :=
  branchCommits.findSome? fun (branch, _) =>
    (w.locals.lookup branch).filter fun c => (Commit.ffOnly w.head c).isSome

/-- The content of the first branch is read and committed. -/
def readTree (first : Commit τ) (v : Visit τ) (w : Checkout τ) :
    Except (Checkout τ) (Checkout τ) :=
  match v.faults.readTree with
  | some left => .error (w.stage left)
  | none =>
    let w := w.stage first.tree
    if v.faults.showDate then .error w
    else if w.dirty || v.faults.diff then
      if w.dirty && !v.faults.syncCommit then .ok (w.commit v.stamp) else .error w
    else .ok w

/-- `sync_branch`. -/
def syncBranch (branchCommits : List (String × Commit τ)) (v : Visit τ) (w : Checkout τ) :
    Except (Checkout τ) (Checkout τ) :=
  match (mergeable branchCommits w).bind (Commit.ffOnly w.head) with
  | some c => .ok (w.moveTo w.branch c)
  | none =>
    match branchCommits.head?.bind fun entry => w.locals.lookup entry.1 with
    | some first => readTree first v w
    | none => .error w

/-- The content of a branch that is checked out; an error carries the state it leaves. -/
def fill (i : Import τ) (content : τ) (v : Visit τ) (w : Checkout τ) :
    Except (Checkout τ) (Checkout τ) :=
  if i.branchCommits = [] then importSrpm content v w else syncBranch i.branchCommits v w

/-- The loop of `import_package` for one branch. -/
def visit (content : τ) (i : Import τ) (v : Visit τ) : Import τ :=
  match i.switchBranch v with
  | none => i
  | some w =>
    match i.fill content v w with
    | .error w => { i with clone := w }
    | .ok w =>
      if v.faults.push then { i with clone := w }
      else
        { origin := i.origin.set v.branch w.head
          clone := w
          branchCommits := put i.branchCommits v.branch w.head }

/-- A new clone. -/
def start (origin : Origin τ) : Import τ := ⟨origin, origin.clone, []⟩

end Import

/-- `import_package`: the repository afterwards, and `branch_commits`. -/
def importPackage [DecidableEq τ] (base : Origin τ → String → Commit τ) (origin : Origin τ)
    (content : τ) (visits : List (Visit τ)) : Origin τ × List (String × Commit τ) :=
  let ready := origin.setupGitRepo base (visits.map Visit.branch)
  let done := visits.foldl (Import.visit content) (Import.start ready)
  (done.origin, done.branchCommits)

end Copr
