import Mathlib.Data.List.AList

/-!
# Commits and fast-forward merges

A commit is known by its content, its time and its parent, so it stands for its whole history.
A fast-forward merge moves from a commit to one of its descendants; it does nothing where the
other commit is an ancestor, and is refused otherwise. Files that are checked out or imported
make up an index, which becomes the content of the next commit.
-/

namespace Copr.CommitGraph

variable {τ : Type*}

/-- A commit with its history. -/
inductive Commit (τ : Type*)
  /-- The first commit of a repository. -/
  | root (stamp : Nat) (tree : τ)
  /-- A commit on top of another one. -/
  | child (parent : Commit τ) (stamp : Nat) (tree : τ)
  deriving DecidableEq, Repr

namespace Commit

/-- The content of a commit. -/
def tree : Commit τ → τ
  | root _ tree => tree
  | child _ _ tree => tree

/-- The commit and its ancestors. -/
def history : Commit τ → List (Commit τ)
  | root stamp tree => [root stamp tree]
  | child parent stamp tree => child parent stamp tree :: parent.history

/-- The content of a commit on top of another one. -/
@[simp] theorem tree_child (parent : Commit τ) (stamp : Nat) (tree : τ) :
    (child parent stamp tree).tree = tree := rfl

variable [DecidableEq τ]

/-- `git merge --ff-only`: where the branch is afterwards, or `none` if it is refused. -/
def ffOnly (head other : Commit τ) : Option (Commit τ) :=
  if head ∈ other.history then some other
  else if other ∈ head.history then some head
  else none

/-- The other commit is an ancestor, so that there is nothing to merge. -/
def ahead (head other : Commit τ) : Bool :=
  !decide (head ∈ other.history) && decide (other ∈ head.history)

/-- A merge goes to the other commit unless the branch is ahead of it. -/
theorem ffOnly_cases {head other c : Commit τ} (merged : ffOnly head other = some c) :
    (ahead head other = false ∧ c = other) ∨ (ahead head other = true ∧ c = head) := by
  unfold ffOnly at merged
  unfold ahead
  split at merged
  · rename_i below
    have same : other = c := Option.some.inj merged
    exact Or.inl ⟨by simp [below], same.symm⟩
  · rename_i apart
    split at merged
    · rename_i above
      have same : head = c := Option.some.inj merged
      exact Or.inr ⟨by simp [apart, above], same.symm⟩
    · contradiction

end Commit

/-- Branches by their names. -/
abbrev Refs (τ : Type*) := AList fun _ : String => Commit τ

/-- A working directory: local branches, one of which is checked out, and an index. -/
structure Checkout (τ : Type*) where
  /-- Local branches. -/
  locals : Refs τ
  /-- The branch that is checked out. -/
  branch : String
  /-- `HEAD`. -/
  head : Commit τ
  /-- The branch is where `HEAD` is. -/
  current : locals.lookup branch = some head
  /-- The content that a commit would have. -/
  index : τ

namespace Checkout

/-- A branch is checked out, or moved while it is checked out. -/
def moveTo (w : Checkout τ) (branch : String) (c : Commit τ) : Checkout τ where
  locals := w.locals.insert branch c
  branch := branch
  head := c
  current := AList.lookup_insert _
  index := c.tree

/-- Files are changed. -/
def stage (w : Checkout τ) (index : τ) : Checkout τ := { w with index := index }

/-- The index is committed. -/
def commit (w : Checkout τ) (stamp : Nat) : Checkout τ :=
  w.moveTo w.branch (.child w.head stamp w.index)

variable {w : Checkout τ} {branch : String} {c : Commit τ} {index : τ} {stamp : Nat}

@[simp] theorem moveTo_head : (w.moveTo branch c).head = c := rfl

@[simp] theorem moveTo_branch : (w.moveTo branch c).branch = branch := rfl

@[simp] theorem stage_head : (w.stage index).head = w.head := rfl

@[simp] theorem stage_index : (w.stage index).index = index := rfl

@[simp] theorem stage_branch : (w.stage index).branch = w.branch := rfl

@[simp] theorem stage_locals : (w.stage index).locals = w.locals := rfl

@[simp] theorem commit_head_tree : (w.commit stamp).head.tree = w.index := rfl

@[simp] theorem commit_branch : (w.commit stamp).branch = w.branch := rfl

/-- Other branches stay where they are. -/
theorem lookup_moveTo {other : String} :
    (w.moveTo branch c).locals.lookup other =
      if other = branch then some c else w.locals.lookup other := by
  unfold moveTo
  split
  · rename_i same
    rw [same]
    exact AList.lookup_insert _
  · rename_i apart
    exact AList.lookup_insert_ne apart

/-- A commit moves the branch that is checked out. -/
theorem lookup_commit {other : String} (apart : other ≠ w.branch) :
    (w.commit stamp).locals.lookup other = w.locals.lookup other := by
  unfold commit
  rw [lookup_moveTo, if_neg apart]

variable [DecidableEq τ]

/-- The index is not what `HEAD` has. -/
def dirty (w : Checkout τ) : Bool := decide (w.index ≠ w.head.tree)

end Checkout

end Copr.CommitGraph
