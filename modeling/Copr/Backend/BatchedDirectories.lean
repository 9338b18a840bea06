import Mathlib.Data.List.Perm.Basic
import Copr.Lib.Text
import Copr.Backend.BatchSizes
import Copr.Backend.Storage

/-!
# Directories of batched requests

A request to take content units out of a Pulp repository also names directories, and whoever
executes a batch removes the directories of all its requests with `_delete_dirs`, in a `finally`
block. Here is when they are removed only after the calls of Pulp succeeded, and when
`delete_content` removes the directories and the units of a build, whatever requests of other
processes are executed together with its own and whoever executes them.
-/

namespace Copr

open Batching

/-- The names on the way to a path. -/
def pathNames (path : String) : List (List Char) :=
  (Text.split path '/').filter fun name => decide (name ≠ []) && decide (name ≠ ['.'])

/-- What a batch changes. -/
structure ContentHost where
  /-- The content of the repository. -/
  content : Finset String
  /-- The directories that exist. -/
  dirs : List (List Char) → Bool

/-- The directory exists. -/
def ContentHost.isDir (host : ContentHost) (path : String) : Bool := host.dirs (pathNames path)

/-- The directory is removed with everything below it. -/
def ContentHost.rmtree (host : ContentHost) (path : String) : ContentHost :=
  { host with dirs := fun names => host.dirs names && !(pathNames path).isPrefixOf names }

/-- How a call of Pulp ends. -/
inductive PulpCall
  /-- The task is completed. -/
  | completed
  /-- The call raises an exception; what it asks for may have been done. -/
  | raised (applied : Bool)
  deriving DecidableEq, Repr

/-- How the calls of a batch end. -/
structure BatchCalls where
  /-- `modify_repository_content`. -/
  modify : PulpCall
  /-- `publish`. -/
  publish : PulpCall
  deriving DecidableEq, Repr

/-- What a process does under the lock. -/
inductive BatchStep
  /-- `modify_repository_content` is completed. -/
  | modified
  /-- `publish` is completed. -/
  | published
  /-- A directory is removed. -/
  | removed (path : String)
  deriving DecidableEq, Repr

/-- How `_execute_locked` ends. -/
structure BatchRun where
  /-- No exception was raised. -/
  returned : Bool
  /-- What was done. -/
  steps : List BatchStep
  /-- What is left. -/
  host : ContentHost

/-- `_delete_dirs`: the first directory that does not exist raises an exception. -/
def deleteDirs : List String → ContentHost → BatchRun
  | [], host => ⟨true, [], host⟩
  | path :: rest, host =>
    if host.isDir path then
      let run := deleteDirs rest (host.rmtree path)
      { run with steps := .removed path :: run.steps }
    else ⟨false, [], host⟩

/-- The `try` block of `_execute_locked`, for what `options` returns. -/
def callPulp (calls : BatchCalls) (o : ContentOptions) (host : ContentHost) : BatchRun :=
  let modified := { host with
    content := modifyRepositoryContent host.content o.rpmsToAdd o.rpmsToRemove }
  if o.rpmsToAdd.isEmpty && o.rpmsToRemove.isEmpty then ⟨true, [], host⟩
  else
    match calls.modify with
    | .raised applied => ⟨false, [], if applied then modified else host⟩
    | .completed =>
      match calls.publish with
      | .raised _ => ⟨false, [.modified], modified⟩
      | .completed => ⟨true, [.modified, .published], modified⟩

/-- `_execute_locked` of a process that still has to process the merged requests. It goes through
the set of directories in some order. -/
def executeBatch (calls : BatchCalls) (o : ContentOptions) (dirs : List String)
    (host : ContentHost) : BatchRun :=
  let called := callPulp calls o host
  let deleted := deleteDirs dirs called.host
  ⟨called.returned && deleted.returned, called.steps ++ deleted.steps, deleted.host⟩

/-- An order in which a set of directories may be gone through. -/
def SetOrder (paths order : List String) : Prop := order.Perm paths.dedup

/-- Any of the directories may come first. -/
theorem SetOrder.first {paths : List String} {path : String} (member : path ∈ paths) :
    SetOrder paths (path :: paths.dedup.erase path) :=
  (List.perm_cons_erase (List.mem_dedup.mpr member)).symm

/-- The calls of Pulp are completed. -/
def BatchCalls.completed : BatchCalls := ⟨.completed, .completed⟩

/-- The request alone, with calls that are completed, is executed without an exception. -/
def ContentTask.Redoable (task : ContentTask) (host : ContentHost) : Prop :=
  ∀ order, SetOrder (ContentOptions.start task).cancel.dirsToDelete order →
    (executeBatch .completed (ContentOptions.start task).cancel order host).returned = true

/-- Directories are removed only after both calls were completed. If a call fails, every batched
request can be executed later if it could be before. -/
structure DirectoriesSafe (calls : BatchCalls) (tasks : List ContentTask) (o : ContentOptions)
    (host : ContentHost) : Prop where
  /-- What comes before the removal of a directory. -/
  after : ∀ order, SetOrder o.dirsToDelete order → ∀ earlier path later,
    (executeBatch calls o order host).steps = earlier ++ .removed path :: later →
      .modified ∈ earlier ∧ .published ∈ earlier
  /-- What becomes of the requests. -/
  redoable : ∀ order, SetOrder o.dirsToDelete order → (callPulp calls o host).returned = false →
    ∀ task ∈ tasks, task.Redoable host → task.Redoable (executeBatch calls o order host).host

/-! ## What is removed -/

section Removal

variable {host : ContentHost} {path other : String} {paths order : List String}
  {calls : BatchCalls} {o : ContentOptions}

/-- What is left of the directories. -/
theorem isDir_rmtree : (host.rmtree path).isDir other =
    (host.isDir other && !(pathNames path).isPrefixOf (pathNames other)) := rfl

/-- Directories are deleted without an exception exactly when they exist and none of them is below
an earlier one. -/
theorem deleteDirs_returned : (deleteDirs paths host).returned = true ↔
    (∀ path ∈ paths, host.isDir path = true) ∧
      paths.Pairwise fun path other => ¬ pathNames path <+: pathNames other := by
  induction paths generalizing host with
  | nil => simp [deleteDirs]
  | cons path rest ih =>
    simp only [deleteDirs, List.forall_mem_cons, List.pairwise_cons]
    by_cases there : host.isDir path = true
    · have left : (∀ other ∈ rest, (host.rmtree path).isDir other = true) ↔
          (∀ other ∈ rest, host.isDir other = true) ∧
            ∀ other ∈ rest, ¬ pathNames path <+: pathNames other := by
        simp only [isDir_rmtree, Bool.and_eq_true, Bool.not_eq_true', ← List.isPrefixOf_iff_prefix,
          Bool.not_eq_true, ← forall₂_and]
      rw [if_pos there]
      show (deleteDirs rest (host.rmtree path)).returned = true ↔ _
      rw [ih, left]
      tauto
    · rw [if_neg there]
      simp [there]

/-- Directories that were deleted do not exist, and the others are as they were. -/
theorem deleteDirs_dirs (returned : (deleteDirs paths host).returned = true)
    {names : List (List Char)} : (deleteDirs paths host).host.dirs names =
      (host.dirs names && !paths.any fun path => (pathNames path).isPrefixOf names) := by
  induction paths generalizing host with
  | nil => simp [deleteDirs]
  | cons path rest ih =>
    simp only [deleteDirs] at returned ⊢
    split at returned
    · rename_i there
      rw [if_pos there]
      show (deleteDirs rest (host.rmtree path)).host.dirs names = _
      rw [ih returned]
      simp only [ContentHost.rmtree, List.any_cons, Bool.not_or, Bool.and_assoc]
    · contradiction

/-- Deleting directories leaves the content alone. -/
theorem deleteDirs_content : (deleteDirs paths host).host.content = host.content := by
  induction paths generalizing host with
  | nil => rfl
  | cons path rest ih =>
    simp only [deleteDirs]
    split
    · exact ih
    · rfl

/-- Nothing happens when none of the directories exists. -/
theorem deleteDirs_absent (absent : ∀ path ∈ paths, host.isDir path = false) :
    (deleteDirs paths host).steps = [] ∧ (deleteDirs paths host).host = host := by
  cases paths with
  | nil => exact ⟨rfl, rfl⟩
  | cons path rest =>
    have gone := absent path List.mem_cons_self
    simp [deleteDirs, gone]

/-- The calls change no directory. -/
theorem callPulp_dirs : (callPulp calls o host).host.dirs = host.dirs := by
  simp only [callPulp]
  split
  · rfl
  · split
    · split <;> rfl
    · split <;> rfl

/-- What the calls do is no removal. -/
theorem callPulp_steps {path : String} : .removed path ∉ (callPulp calls o host).steps := by
  simp only [callPulp]
  split
  · exact List.not_mem_nil
  · split
    · exact List.not_mem_nil
    · split <;> simp

/-- Whether a request can be executed depends on the directories only. -/
theorem ContentTask.Redoable.congr {task : ContentTask} {other : ContentHost}
    (redoable : task.Redoable host) (same : other.dirs = host.dirs) : task.Redoable other := by
  intro order listed
  have before := redoable order listed
  simp only [executeBatch, Bool.and_eq_true] at before ⊢
  have returns (host : ContentHost) :
      (callPulp .completed (ContentOptions.start task).cancel host).returned = true := by
    simp only [callPulp, BatchCalls.completed]
    split <;> rfl
  have dirs (host : ContentHost) (path : String) :
      (callPulp .completed (ContentOptions.start task).cancel host).host.isDir path =
        host.isDir path := by
    simp only [ContentHost.isDir, callPulp_dirs]
  have equal (path : String) : other.isDir path = host.isDir path := by
    simp only [ContentHost.isDir, same]
  refine ⟨returns other, ?_⟩
  rw [deleteDirs_returned] at before ⊢
  simp only [dirs, equal] at before ⊢
  exact before.2

/-- The directories that a merged list of requests names. -/
theorem mem_foldl_merge_dirs {tasks : List ContentTask} {o : ContentOptions} :
    path ∈ (tasks.foldl ContentOptions.merge o).dirsToDelete ↔
      path ∈ o.dirsToDelete ∨ ∃ task ∈ tasks, path ∈ task.dirsToDelete.getD [] := by
  induction tasks generalizing o with
  | nil => simp
  | cons task rest ih =>
    rw [List.foldl_cons, ih]
    simp [ContentOptions.merge, or_assoc]

/-- The directories of a batch are those of its requests. -/
theorem readOptions_dirs {own : ContentTask} {pid : Nat} {reads : ContentReads} {keys : List Nat}
    (returned : readOptions own pid reads = some (o, keys)) : path ∈ o.dirsToDelete ↔
      ∃ task ∈ mergedTasks own reads, path ∈ task.dirsToDelete.getD [] := by
  have ⟨⟨merged, notified⟩, looped, same⟩ := Option.map_eq_some_iff.mp returned
  have plan := (collect_processable looped).1
  cases same
  show path ∈ merged.dirsToDelete ↔ _
  rw [plan, mem_foldl_merge_dirs, mergedTasks, List.exists_mem_cons_iff]
  rfl

/-- Nothing is left to be modified exactly when the requests take each other back. -/
theorem readOptions_empty {own : ContentTask} {pid : Nat} {reads : ContentReads} {keys : List Nat}
    (returned : readOptions own pid reads = some (o, keys)) :
    (o.rpmsToAdd.isEmpty && o.rpmsToRemove.isEmpty) = true ↔
      unitsAdded (mergedTasks own reads) = unitsRemoved (mergedTasks own reads) := by
  have ⟨added, removed, _⟩ := readOptions_units returned
  rw [Bool.and_eq_true, List.isEmpty_iff, List.isEmpty_iff, List.eq_nil_iff_forall_not_mem,
    List.eq_nil_iff_forall_not_mem, Finset.ext_iff, ← forall_and]
  refine forall_congr' fun unit => ?_
  rw [added, removed]
  tauto

/-- Both calls are completed, in this order, and nothing else is done before directories are
removed. -/
theorem callPulp_completed (something : (o.rpmsToAdd.isEmpty && o.rpmsToRemove.isEmpty) = false) :
    (callPulp .completed o host).returned = true ∧
      (callPulp .completed o host).steps = [.modified, .published] := by
  simp [callPulp, something, BatchCalls.completed]

/-- When not both calls are made and completed, one of them is missing. -/
theorem callPulp_incomplete
    (failed : ¬ (calls = .completed ∧
      (o.rpmsToAdd.isEmpty && o.rpmsToRemove.isEmpty) = false)) :
    .published ∉ (callPulp calls o host).steps := by
  have ⟨modify, publish⟩ := calls
  simp only [callPulp]
  split
  · exact List.not_mem_nil
  · rename_i something
    cases modify with
    | raised applied => exact List.not_mem_nil
    | completed =>
      cases publish with
      | raised applied => simp
      | completed => exact absurd ⟨rfl, by simpa using something⟩ failed

end Removal

/-- Directories are removed only after both calls were completed, and a failure leaves every
request executable, exactly when both calls are made and completed, or when none of the
directories exists. The calls are not made when the requests take each other back. -/
theorem directories_safe_iff (calls : BatchCalls) (own : ContentTask) (pid : Nat)
    (reads : ContentReads) (o : ContentOptions) (keys : List Nat) (host : ContentHost)
    (returned : readOptions own pid reads = some (o, keys)) :
    DirectoriesSafe calls (mergedTasks own reads) o host ↔
      (calls = .completed ∧
        unitsAdded (mergedTasks own reads) ≠ unitsRemoved (mergedTasks own reads)) ∨
      ∀ task ∈ mergedTasks own reads, ∀ path ∈ task.dirsToDelete.getD [],
        host.isDir path = false := by
  have nonempty : unitsAdded (mergedTasks own reads) ≠ unitsRemoved (mergedTasks own reads) ↔
      (o.rpmsToAdd.isEmpty && o.rpmsToRemove.isEmpty) = false := by
    rw [ne_eq, ← readOptions_empty returned, Bool.not_eq_true]
  rw [nonempty]
  constructor
  · intro safe
    by_contra unsafe_
    rw [not_or] at unsafe_
    have ⟨incomplete, present⟩ := unsafe_
    push Not at present
    have ⟨task, merged, path, named, there⟩ := present
    have there : host.isDir path = true := by simpa using there
    have listed : path ∈ o.dirsToDelete := (readOptions_dirs returned).mpr ⟨task, merged, named⟩
    -- The set may be gone through with this directory first.
    have first := SetOrder.first listed
    have exists_ : (callPulp calls o host).host.isDir path = true := by
      rw [ContentHost.isDir, callPulp_dirs]
      exact there
    have removed := safe.after _ first (callPulp calls o host).steps path
      (deleteDirs (o.dirsToDelete.dedup.erase path)
        ((callPulp calls o host).host.rmtree path)).steps (by
          simp [executeBatch, deleteDirs, exists_])
    exact callPulp_incomplete incomplete removed.2
  · intro condition
    cases condition with
    | inl complete =>
      have ⟨completed, something⟩ := complete
      rw [completed]
      have ⟨returns, calls⟩ := @callPulp_completed host o something
      constructor
      · intro order listed earlier path later steps
        simp only [executeBatch, calls] at steps
        cases earlier with
        | nil => simp at steps
        | cons head earlier =>
          cases earlier with
          | nil => simp at steps
          | cons next earlier =>
            simp only [List.cons_append, List.cons.injEq, List.nil_append] at steps
            have ⟨modified, published, _⟩ := steps
            simp [← modified, ← published]
      · intro order listed failed
        rw [returns] at failed
        contradiction
    | inr absent =>
      have gone (order : List String) (listed : SetOrder o.dirsToDelete order) :
          ∀ path ∈ order, (callPulp calls o host).host.isDir path = false := by
        intro path member
        have named : path ∈ o.dirsToDelete := List.mem_dedup.mp (listed.mem_iff.mp member)
        have ⟨task, merged, inside⟩ := (readOptions_dirs returned).mp named
        rw [ContentHost.isDir, callPulp_dirs]
        exact absent task merged path inside
      constructor
      · intro order listed earlier path later steps
        have nothing := (deleteDirs_absent (gone order listed)).1
        have member : .removed path ∈ (callPulp calls o host).steps := by
          simp only [executeBatch, nothing, List.append_nil] at steps
          rw [steps]
          simp
        exact absurd member callPulp_steps
      · intro order listed _ task _ redoable
        apply redoable.congr
        have left := (deleteDirs_absent (gone order listed)).2
        simp only [executeBatch, left, callPulp_dirs]

/-- A request cannot be executed any more once one of its directories was removed for it. -/
theorem not_redoable_of_removed {task : ContentTask} {host : ContentHost} {path : String}
    (named : path ∈ task.dirsToDelete.getD []) (gone : host.isDir path = false) :
    ¬ task.Redoable host := by
  intro redoable
  have whole := redoable _ (List.Perm.refl _)
  simp only [executeBatch, Bool.and_eq_true, deleteDirs_returned] at whole
  have there := whole.2.1 path (List.mem_dedup.mpr named)
  rw [ContentHost.isDir, callPulp_dirs] at there
  rw [ContentHost.isDir] at gone
  rw [gone] at there
  contradiction

namespace Sample

/-- Everything exists. -/
def fullHost : ContentHost where
  content := {"x"}
  dirs := fun _ => true

/-- A request to delete a build. -/
def buildDeletion : ContentTask := deleteContent ["x"] ["/results/1-hello"]

end Sample

/-- A deletion whose calls are completed. -/
theorem directories_safe_iff_completed :
    DirectoriesSafe .completed [Sample.buildDeletion]
      (ContentOptions.start Sample.buildDeletion).cancel Sample.fullHost :=
  (directories_safe_iff .completed Sample.buildDeletion 8 [] _ [] Sample.fullHost rfl).mpr
    (Or.inl ⟨rfl, by decide⟩)

/-- The content is not modified, and the directory of the build is removed all the same. -/
theorem directory_removed_after_failure : ¬ ∀ (calls : BatchCalls) (own : ContentTask) (pid : Nat)
    (reads : ContentReads) (o : ContentOptions) (keys : List Nat) (host : ContentHost),
    readOptions own pid reads = some (o, keys) →
      DirectoriesSafe calls (mergedTasks own reads) o host := by
  intro claimed
  have safe := claimed ⟨.raised false, .completed⟩ Sample.buildDeletion 8 [] _ []
    Sample.fullHost rfl
  have before := safe.after ["/results/1-hello"] (List.Perm.refl _) [] "/results/1-hello" [] rfl
  exact absurd before.1 List.not_mem_nil

/-! ## Deleting the content of builds -/

/-- What a process changes in a repository and among the directories. Nobody makes new directories
while a page is handled. -/
inductive HostChange
  /-- `modify_repository_content` is completed. -/
  | modified (add remove : List String)
  /-- A directory is removed. -/
  | removed (path : String)
  deriving DecidableEq, Repr

/-- The repository and the directories after a change. -/
def ContentHost.change (host : ContentHost) : HostChange → ContentHost
  | .modified add remove =>
    { host with content := modifyRepositoryContent host.content add remove }
  | .removed path => host.rmtree path

/-- The repository and the directories after some changes. -/
def ContentHost.after (host : ContentHost) (changes : List HostChange) : ContentHost :=
  changes.foldl ContentHost.change host

/-- What a batch changes when nothing is raised. -/
def ContentOptions.changes (o : ContentOptions) (order : List String) : List HostChange :=
  (if o.rpmsToAdd.isEmpty && o.rpmsToRemove.isEmpty then []
    else [.modified o.rpmsToAdd o.rpmsToRemove]) ++ order.map .removed

/-- What happens from the request for a page to the end of `_execute_locked`. -/
structure PageTurn where
  /-- What other processes change until this one has the lock. -/
  meanwhile : List HostChange
  /-- `check_processed`. -/
  processed : Bool
  /-- What `options` reads in Redis otherwise. -/
  reads : ContentReads

/-- `_execute_locked`: a processed request is left alone, and otherwise the batch that `options`
returns is executed. -/
def PageTurn.executeLocked (turn : PageTurn) (own : ContentTask) (pid : Nat)
    (order : List String) (host : ContentHost) : BatchRun :=
  if turn.processed then ⟨true, [], host⟩
  else
    match readOptions own pid turn.reads with
    | none => ⟨false, [], host⟩
    | some (o, _) => executeBatch .completed o order host

/-- `make_request` and `try_lock`. -/
def PageTurn.run (turn : PageTurn) (own : ContentTask) (pid : Nat) (order : List String)
    (host : ContentHost) : BatchRun :=
  turn.executeLocked own pid order (host.after turn.meanwhile)

/-- The loop of `delete_content` over the pages, with calls that are completed. It is `false` when
an exception is raised. -/
def deletePages (pid : Nat) (dirs : List String) :
    (Nat → PageTurn) → (Nat → List String) → List (List String) → ContentHost → Bool × ContentHost
  | _, _, [], host => (true, host)
  | turns, orders, page :: rest, host =>
    let run := (turns 0).run (deleteContent page dirs) pid (orders 0) host
    if run.returned then
      deletePages pid dirs (fun i => turns (i + 1)) (fun i => orders (i + 1)) rest run.host
    else (false, run.host)

/-- `PulpClient.delete_content`. -/
def deleteUnits (pid : Nat) (turns : Nat → PageTurn) (orders : Nat → List String)
    (units dirs : List String) (host : ContentHost) : Bool × ContentHost :=
  deletePages pid dirs turns orders (batched maxContentUnitsInBatch units) host

/-- The orders in which this process may go through the directories of its batches. -/
def Listed (pid : Nat) (dirs : List String) :
    (Nat → PageTurn) → (Nat → List String) → List (List String) → Prop
  | _, _, [] => True
  | turns, orders, page :: rest =>
    (∀ o keys, readOptions (deleteContent page dirs) pid (turns 0).reads = some (o, keys) →
      SetOrder o.dirsToDelete (orders 0)) ∧
      Listed pid dirs (fun i => turns (i + 1)) (fun i => orders (i + 1)) rest

/-- Another process has executed a batch with the request, and nothing was raised. -/
def PageTurn.Served (turn : PageTurn) (own : ContentTask) (pid : Nat) (host : ContentHost) :
    Prop :=
  ∃ before after other otherPid reads o keys order,
    turn.meanwhile = before ++ o.changes order ++ after ∧
      readOptions other otherPid reads = some (o, keys) ∧ (pid, own) ∈ processable reads ∧
        SetOrder o.dirsToDelete order ∧
          (executeBatch .completed o order (host.after before)).returned = true

/-- A turn that can occur: `commit` of another process marks the request only after a batch with
it, and `options` finds records in Redis that it can read. -/
structure PageTurn.Possible (turn : PageTurn) (own : ContentTask) (pid : Nat)
    (host : ContentHost) : Prop where
  /-- The request is marked. -/
  served : turn.processed = true → turn.Served own pid host
  /-- The request is not marked. -/
  readable : turn.processed = false → (readOptions own pid turn.reads).isSome = true

/-- Every turn of a call can occur. -/
def Occur (pid : Nat) (dirs : List String) :
    (Nat → PageTurn) → (Nat → List String) → List (List String) → ContentHost → Prop
  | _, _, [], _ => True
  | turns, orders, page :: rest, host =>
    (turns 0).Possible (deleteContent page dirs) pid host ∧
      (((turns 0).run (deleteContent page dirs) pid (orders 0) host).returned = true →
        Occur pid dirs (fun i => turns (i + 1)) (fun i => orders (i + 1)) rest
          ((turns 0).run (deleteContent page dirs) pid (orders 0) host).host)

/-- However the sets of directories are gone through, `delete_content` returns, and the directories
and the units are gone. -/
def DeletesAll (pid : Nat) (turns : Nat → PageTurn) (units dirs : List String)
    (host : ContentHost) : Prop :=
  ∀ orders, Listed pid dirs turns orders (batched maxContentUnitsInBatch units) →
    (deleteUnits pid turns orders units dirs host).1 = true ∧
      (∀ path ∈ dirs, (deleteUnits pid turns orders units dirs host).2.isDir path = false) ∧
      ∀ unit ∈ units, unit ∉ (deleteUnits pid turns orders units dirs host).2.content

/-! ### What the requests ask for -/

/-- What concerns the repository during a call. -/
inductive CallEvent
  /-- Another process changes something. -/
  | foreign (change : HostChange)
  /-- This process executes some requests together. -/
  | batch (tasks : List ContentTask)

/-- The directory is to be removed for one of the requests. -/
def Named (tasks : List ContentTask) (path : String) : Prop :=
  ∃ task ∈ tasks, path ∈ task.dirsToDelete.getD []

namespace CallEvent

/-- The directories that are removed. -/
def dirs : CallEvent → List String
  | .foreign (.modified _ _) => []
  | .foreign (.removed path) => [path]
  | .batch tasks => tasks.flatMap fun task => task.dirsToDelete.getD []

/-- The update of the content. Units that are both added and removed by the requests of a batch
stay as they are. -/
def update : CallEvent → SetUpdates.Update String
  | .foreign (.modified add remove) => ⟨{unit | unit ∈ add}, {unit | unit ∈ remove}⟩
  | .foreign (.removed _) => ⟨∅, ∅⟩
  | .batch tasks => SetUpdates.merged (tasks.map ContentTask.update)

end CallEvent

/-- What concerns the repository until `_execute_locked` has ended. -/
def PageTurn.events (turn : PageTurn) (own : ContentTask) : List CallEvent :=
  turn.meanwhile.map .foreign ++
    if turn.processed then [] else [.batch (mergedTasks own turn.reads)]

/-- What concerns the repository during the loop over the pages. -/
def callEvents (dirs : List String) : (Nat → PageTurn) → List (List String) → List CallEvent
  | _, [] => []
  | turns, page :: rest =>
    (turns 0).events (deleteContent page dirs) ++ callEvents dirs (fun i => turns (i + 1)) rest

/-- The directories of a batch can be removed in any order. -/
structure Removable (host : ContentHost) (earlier : List CallEvent) (tasks : List ContentTask) :
    Prop where
  /-- They exist, and nothing has removed them or a directory above them. -/
  there : ∀ path, Named tasks path → host.isDir path = true ∧
    ∀ event ∈ earlier, ∀ other ∈ event.dirs, ¬ pathNames other <+: pathNames path
  /-- None of them is below another one. -/
  apart : ∀ path other, Named tasks path → Named tasks other → path ≠ other →
    ¬ pathNames path <+: pathNames other

/-- The directories of every batch can be removed when it is executed. -/
def AllRemovable (host : ContentHost) (events : List CallEvent) : Prop :=
  ∀ earlier tasks later, events = earlier ++ .batch tasks :: later →
    Removable host earlier tasks

/-- When `delete_content` removes everything, as far as directories and units are concerned. -/
structure Deletable (turns : Nat → PageTurn) (units dirs : List String) (host : ContentHost) :
    Prop where
  /-- Directories come with units, and the units are on one page. -/
  onePage : dirs = [] ∨ units ≠ [] ∧ units.length ≤ maxContentUnitsInBatch
  /-- The directories of the requests that this process executes can be removed. -/
  removable : AllRemovable host (callEvents dirs turns (batched maxContentUnitsInBatch units))
  /-- The last change that concerns a unit takes it out. -/
  units : ∀ unit ∈ units, SetUpdates.LeftOut ((callEvents dirs turns
    (batched maxContentUnitsInBatch units)).map CallEvent.update) unit (unit ∈ host.content)

/-! ### The state during a call -/

/-- The repository and the directories are as the events leave them. -/
structure HostFollows (start : ContentHost) (events : List CallEvent) (host : ContentHost) :
    Prop where
  /-- The directories that are left. -/
  dirs : ∀ names, host.dirs names = (start.dirs names &&
    !events.any fun event => event.dirs.any fun path => (pathNames path).isPrefixOf names)
  /-- The content. -/
  content : (host.content : Set String) =
    SetUpdates.run start.content (events.map CallEvent.update)

section Events

variable {start host next : ContentHost} {events more earlier : List CallEvent}
  {tasks : List ContentTask} {o : ContentOptions} {order : List String} {path : String}
  {own : ContentTask} {pid : Nat} {reads : ContentReads} {keys : List Nat}
  {changes : List HostChange}

/-- Without events everything is as it was. -/
theorem HostFollows.refl : HostFollows host [] host where
  dirs names := by simp
  content := rfl

/-- Events that follow others leave the host as all of them together do. -/
theorem HostFollows.append (first : HostFollows start events host)
    (second : HostFollows host more next) : HostFollows start (events ++ more) next where
  dirs names := by
    rw [second.dirs, first.dirs, List.any_append, Bool.not_or, Bool.and_assoc]
  content := by
    rw [second.content, first.content, List.map_append]
    exact (List.foldl_append ..).symm

/-- One change of another process. -/
theorem follows_change (change : HostChange) :
    HostFollows host [.foreign change] (host.change change) := by
  cases change with
  | modified add remove =>
    constructor
    · intro names
      simp [ContentHost.change, CallEvent.dirs]
    · ext unit
      simp [ContentHost.change, CallEvent.update, SetUpdates.run, SetUpdates.Update.apply,
        modifyRepositoryContent]
  | removed path =>
    constructor
    · intro names
      simp [ContentHost.change, ContentHost.rmtree, CallEvent.dirs]
    · simp [ContentHost.change, ContentHost.rmtree, CallEvent.update, SetUpdates.run,
        SetUpdates.Update.apply]

/-- The changes of other processes. -/
theorem follows_after : HostFollows host (changes.map .foreign) (host.after changes) := by
  induction changes generalizing host with
  | nil => exact HostFollows.refl
  | cons change rest ih =>
    have first : HostFollows host [.foreign change] (host.change change) := follows_change change
    exact first.append ih

/-- A directory is left when it was there and nothing has removed it. -/
theorem HostFollows.isDir (follows : HostFollows start events host) : host.isDir path = true ↔
    start.isDir path = true ∧
      ∀ event ∈ events, ∀ other ∈ event.dirs, ¬ pathNames other <+: pathNames path := by
  rw [ContentHost.isDir, follows.dirs, Bool.and_eq_true, Bool.not_eq_true', List.any_eq_false]
  refine and_congr_right fun _ => forall₂_congr fun event _ => ?_
  simp [List.any_eq_true, ← List.isPrefixOf_iff_prefix]

/-- A directory that was absent at the start is absent after any events. -/
theorem HostFollows.gone (follows : HostFollows start events host)
    (absent : start.isDir path = false) : host.isDir path = false := by
  by_contra left
  have there := (follows.isDir.mp (Bool.eq_true_of_not_eq_false left)).1
  rw [absent] at there
  contradiction

/-- When a batch is executed without an exception. -/
theorem executeBatch_returned : (executeBatch .completed o order host).returned = true ↔
    (∀ path ∈ order, host.isDir path = true) ∧
      order.Pairwise fun path other => ¬ pathNames path <+: pathNames other := by
  have called : (callPulp .completed o host).returned = true := by
    simp only [callPulp, BatchCalls.completed]
    split <;> rfl
  show ((callPulp .completed o host).returned && (deleteDirs order _).returned) = true ↔ _
  rw [called, Bool.true_and, deleteDirs_returned]
  simp only [ContentHost.isDir, callPulp_dirs]

/-- The directories of a batch are those of its requests. -/
theorem setOrder_mem (returned : readOptions own pid reads = some (o, keys))
    (listed : SetOrder o.dirsToDelete order) :
    path ∈ order ↔ Named (mergedTasks own reads) path := by
  rw [listed.mem_iff, List.mem_dedup, readOptions_dirs returned, Named]

/-- The content after the calls of Pulp for a batch. -/
theorem callPulp_content (returned : readOptions own pid reads = some (o, keys)) :
    ((callPulp .completed o host).host.content : Set String) =
      (CallEvent.batch (mergedTasks own reads)).update.apply host.content := by
  have ⟨added, removed, _⟩ := readOptions_units returned
  have called : (callPulp .completed o host).host.content =
      modifyRepositoryContent host.content o.rpmsToAdd o.rpmsToRemove := by
    rw [← skipped_call]
    simp only [callPulp, BatchCalls.completed]
    split <;> rfl
  ext unit
  have adds : unit ∈ SetUpdates.adds ((mergedTasks own reads).map ContentTask.update) ↔
      unit ∈ unitsAdded (mergedTasks own reads) := by
    rw [mem_adds_map, mem_unitsAdded]
  have removes : unit ∈ SetUpdates.removes ((mergedTasks own reads).map ContentTask.update) ↔
      unit ∈ unitsRemoved (mergedTasks own reads) := by
    rw [mem_removes_map, mem_unitsRemoved]
  rw [called]
  simp only [modifyRepositoryContent, Finset.coe_union, Finset.coe_sdiff, List.coe_toFinset,
    CallEvent.update, SetUpdates.Update.apply, SetUpdates.merged, SetUpdates.conflicts,
    Set.mem_union, Set.mem_sdiff, Set.mem_inter_iff, Set.mem_ofPred_eq, adds, removes, added,
    removed]
  tauto

/-- What a batch leaves when nothing is raised. -/
theorem follows_batch (returned : readOptions own pid reads = some (o, keys))
    (listed : SetOrder o.dirsToDelete order)
    (ended : (executeBatch .completed o order host).returned = true) :
    HostFollows host [.batch (mergedTasks own reads)]
      (executeBatch .completed o order host).host := by
  have deleted : (deleteDirs order (callPulp .completed o host).host).returned = true :=
    ((Bool.and_eq_true _ _).mp ended).2
  constructor
  · intro names
    show (deleteDirs order (callPulp .completed o host).host).host.dirs names = _
    have same : (order.any fun path => (pathNames path).isPrefixOf names) =
        (CallEvent.batch (mergedTasks own reads)).dirs.any fun path =>
          (pathNames path).isPrefixOf names := by
      rw [Bool.eq_iff_iff, List.any_eq_true, List.any_eq_true]
      refine exists_congr fun path => and_congr_left fun _ => ?_
      rw [setOrder_mem returned listed, Named, CallEvent.dirs, List.mem_flatMap]
    rw [deleteDirs_dirs deleted, callPulp_dirs, same]
    simp
  · show ((deleteDirs order (callPulp .completed o host).host).host.content : Set String) = _
    rw [deleteDirs_content, callPulp_content returned]
    rfl

/-- What a batch changes without an exception, as a list of changes. -/
theorem executeBatch_changes (ended : (executeBatch .completed o order host).returned = true) :
    (executeBatch .completed o order host).host = host.after (o.changes order) := by
  have removals (paths : List String) (host : ContentHost)
      (returned : (deleteDirs paths host).returned = true) :
      (deleteDirs paths host).host = host.after (paths.map .removed) := by
    induction paths generalizing host with
    | nil => rfl
    | cons path rest ih =>
      simp only [deleteDirs] at returned ⊢
      split at returned
      · rename_i there
        rw [if_pos there]
        exact ih _ returned
      · contradiction
  have deleted : (deleteDirs order (callPulp .completed o host).host).returned = true :=
    ((Bool.and_eq_true _ _).mp ended).2
  show (deleteDirs order (callPulp .completed o host).host).host = _
  rw [removals order _ deleted]
  by_cases nothing : (o.rpmsToAdd.isEmpty && o.rpmsToRemove.isEmpty) = true
  · simp [ContentOptions.changes, nothing, callPulp]
  · simp [ContentOptions.changes, nothing, callPulp, BatchCalls.completed, ContentHost.after,
      ContentHost.change]

/-- The directories of a batch can be removed at its turn when they were there and were not removed
before. -/
theorem HostFollows.removable (follows : HostFollows start events host) :
    Removable start (events ++ more) tasks ↔ Removable host more tasks := by
  have there (path : String) : (start.isDir path = true ∧ ∀ event ∈ events ++ more,
      ∀ other ∈ event.dirs, ¬ pathNames other <+: pathNames path) ↔
      host.isDir path = true ∧ ∀ event ∈ more, ∀ other ∈ event.dirs,
        ¬ pathNames other <+: pathNames path := by
    rw [follows.isDir, and_assoc, List.forall_mem_append]
  constructor
  · rintro ⟨present, apart⟩
    exact ⟨fun path named => (there path).mp (present path named), apart⟩
  · rintro ⟨present, apart⟩
    exact ⟨fun path named => (there path).mpr (present path named), apart⟩

/-- The directories of a batch can be removed exactly when no order raises an exception. -/
theorem removable_iff (returned : readOptions own pid reads = some (o, keys)) :
    Removable host [] (mergedTasks own reads) ↔ ∀ order, SetOrder o.dirsToDelete order →
      (executeBatch .completed o order host).returned = true := by
  constructor
  · intro removable order listed
    rw [executeBatch_returned]
    constructor
    · intro path member
      exact (removable.there path ((setOrder_mem returned listed).mp member)).1
    · have distinct : order.Nodup := listed.nodup_iff.mpr (List.nodup_dedup _)
      refine distinct.imp_of_mem fun {path other} member there different => ?_
      exact removable.apart path other ((setOrder_mem returned listed).mp member)
        ((setOrder_mem returned listed).mp there) different
  · intro ends
    have first (path : String) (named : Named (mergedTasks own reads) path) :=
      SetOrder.first ((readOptions_dirs returned).mpr named)
    constructor
    · intro path named
      have there := (executeBatch_returned.mp (ends _ (first path named))).1 path
        List.mem_cons_self
      exact ⟨there, fun event none_ => absurd none_ List.not_mem_nil⟩
    · intro path other named there different below
      have apart := (List.pairwise_cons.mp
        (executeBatch_returned.mp (ends _ (first path named))).2).1
      have listed : other ∈ o.dirsToDelete.dedup.erase path :=
        (List.mem_erase_of_ne different.symm).mpr
          (List.mem_dedup.mpr ((readOptions_dirs returned).mpr there))
      exact apart other listed below

/-- Batches of two parts of a call. -/
theorem HostFollows.allRemovable (follows : HostFollows start events host) :
    AllRemovable start (events ++ more) ↔ AllRemovable start events ∧ AllRemovable host more := by
  constructor
  · intro all
    constructor
    · intro earlier tasks later split_
      exact all earlier tasks (later ++ more) (by simp [split_])
    · intro earlier tasks later split_
      exact follows.removable.mp (all (events ++ earlier) tasks later (by simp [split_]))
  · rintro ⟨before, after⟩ earlier tasks later split_
    rcases List.append_eq_append_iff.mp split_ with ⟨rest, rfl, second⟩ | ⟨rest, first, second⟩
    · exact follows.removable.mpr (after rest tasks later second)
    · cases rest with
      | nil =>
        rw [List.append_nil] at first
        have own := follows.removable.mpr (after [] tasks later second.symm)
        rwa [List.append_nil, first] at own
      | cons head rest =>
        obtain ⟨rfl, rfl⟩ := List.cons.inj second
        exact before earlier tasks rest first

/-- Changes of others are no batches of this process. -/
theorem allRemovable_foreign : AllRemovable host (changes.map .foreign) := by
  intro earlier tasks later split_
  have member : CallEvent.batch tasks ∈ changes.map CallEvent.foreign := by
    rw [split_]
    simp
  have ⟨change, _, same⟩ := List.mem_map.mp member
  contradiction

/-- The directories of a single batch can be removed exactly when they can with nothing removed
before. -/
theorem allRemovable_singleton :
    AllRemovable host [.batch tasks] ↔ Removable host [] tasks := by
  constructor
  · intro all
    exact all [] tasks [] rfl
  · intro removable earlier other later split_
    cases earlier with
    | nil =>
      obtain ⟨same, _⟩ := List.cons.inj split_
      cases same
      exact removable
    | cons head earlier => simp at split_

end Events

/-! ### One page after another -/

/-- An order for the sets of directories of a batch. -/
abbrev PageTurn.Order (turn : PageTurn) (own : ContentTask) (pid : Nat) (order : List String) :
    Prop :=
  ∀ o keys, readOptions own pid turn.reads = some (o, keys) → SetOrder o.dirsToDelete order

section Pages

variable {turn : PageTurn} {turns : Nat → PageTurn} {own : ContentTask} {pid : Nat}
  {order dirs : List String} {orders : Nat → List String} {pages : List (List String)}
  {host : ContentHost} {path : String}

/-- A turn leaves the repository and the directories as its events say. -/
theorem PageTurn.Possible.follows (possible : turn.Possible own pid host)
    (listed : turn.Order own pid order) (ended : (turn.run own pid order host).returned = true) :
    HostFollows host (turn.events own) (turn.run own pid order host).host := by
  simp only [run, executeLocked, events] at ended ⊢
  cases processed : turn.processed with
  | true => simpa using follows_after
  | false =>
    have ⟨(o, keys), returned⟩ := Option.isSome_iff_exists.mp (possible.readable processed)
    simp only [processed, returned, Bool.false_eq_true, if_false] at ended ⊢
    exact follows_after.append (follows_batch returned (listed o keys returned) ended)

/-- In whatever order the own sets of directories are gone through, nothing is raised exactly when
the directories can be removed. -/
theorem PageTurn.Possible.removable_iff (possible : turn.Possible own pid host) :
    AllRemovable host (turn.events own) ↔
      ∀ order, turn.Order own pid order → (turn.run own pid order host).returned = true := by
  simp only [run, executeLocked, events]
  cases processed : turn.processed with
  | true => simp [allRemovable_foreign]
  | false =>
    have ⟨(o, keys), returned⟩ := Option.isSome_iff_exists.mp (possible.readable processed)
    simp only [PageTurn.Order, returned, Bool.false_eq_true, if_false, Option.some.injEq,
      Prod.mk.injEq]
    rw [follows_after.allRemovable, allRemovable_singleton, Copr.removable_iff returned]
    constructor
    · rintro ⟨_, ends⟩ order listed
      exact ends order (listed o keys ⟨rfl, rfl⟩)
    · intro ends
      refine ⟨allRemovable_foreign, fun order listed => ends order ?_⟩
      rintro _ _ ⟨rfl, rfl⟩
      exact listed

/-- The directories of a batch were there and are not there any more. -/
theorem batch_removes {task : ContentTask} {reads : ContentReads} {o : ContentOptions}
    {keys : List Nat} (returned : readOptions own pid reads = some (o, keys))
    (listed : SetOrder o.dirsToDelete order)
    (ended : (executeBatch .completed o order host).returned = true)
    (merged : task ∈ mergedTasks own reads) (named : path ∈ task.dirsToDelete.getD []) :
    host.isDir path = true ∧ (executeBatch .completed o order host).host.isDir path = false := by
  have inside : Named (mergedTasks own reads) path := ⟨task, merged, named⟩
  have member := (setOrder_mem returned listed).mpr inside
  refine ⟨(executeBatch_returned.mp ended).1 path member, ?_⟩
  by_contra left
  have kept := ((follows_batch returned listed ended).isDir.mp
    (Bool.eq_true_of_not_eq_false left)).2
  have among : path ∈ (CallEvent.batch (mergedTasks own reads)).dirs := List.mem_flatMap.mpr inside
  exact kept _ List.mem_cons_self path among (List.prefix_refl _)

/-- After a turn the directories of the request are not there any more, and they were there
before. -/
theorem PageTurn.Possible.removes (possible : turn.Possible own pid host)
    (listed : turn.Order own pid order) (ended : (turn.run own pid order host).returned = true)
    (named : path ∈ own.dirsToDelete.getD []) :
    host.isDir path = true ∧ (turn.run own pid order host).host.isDir path = false := by
  simp only [run, executeLocked] at ended ⊢
  cases processed : turn.processed with
  | false =>
    have ⟨(o, keys), returned⟩ := Option.isSome_iff_exists.mp (possible.readable processed)
    simp only [processed, returned, Bool.false_eq_true, if_false] at ended ⊢
    have ⟨there, gone⟩ := batch_removes returned (listed o keys returned) ended
      List.mem_cons_self named
    exact ⟨(follows_after.isDir.mp there).1, gone⟩
  | true =>
    have ⟨before, after, other, otherPid, reads, o, keys, order, changes, returned, waiting,
      listed, ended⟩ := possible.served processed
    have merged : own ∈ mergedTasks other reads :=
      List.mem_cons_of_mem _ (List.mem_map_of_mem waiting)
    have ⟨there, gone⟩ := batch_removes returned listed ended merged named
    have whole : host.after turn.meanwhile =
        ((host.after before).after (o.changes order)).after after := by
      rw [changes]
      simp only [ContentHost.after, List.foldl_append]
    rw [executeBatch_changes ended] at gone
    refine ⟨(follows_after.isDir.mp there).1, ?_⟩
    show (host.after turn.meanwhile).isDir path = false
    rw [whole]
    exact follows_after.gone gone

/-- When all directories can be removed, every page is handled. -/
theorem deletePages_follows (listed : Listed pid dirs turns orders pages)
    (occur : Occur pid dirs turns orders pages host)
    (removable : AllRemovable host (callEvents dirs turns pages)) :
    (deletePages pid dirs turns orders pages host).1 = true ∧
      HostFollows host (callEvents dirs turns pages)
        (deletePages pid dirs turns orders pages host).2 := by
  induction pages generalizing turns orders host with
  | nil => exact ⟨rfl, HostFollows.refl⟩
  | cons page rest ih =>
    have ⟨order, others⟩ := listed
    have ⟨possible, later⟩ := occur
    have prefix_ : AllRemovable host ((turns 0).events (deleteContent page dirs)) := by
      intro earlier tasks after split_
      refine removable earlier tasks (after ++ callEvents dirs (fun i => turns (i + 1)) rest) ?_
      rw [callEvents, split_, List.append_assoc, List.cons_append]
    have ended := possible.removable_iff.mp prefix_ (orders 0) order
    have follows := possible.follows order ended
    have more := ih others (later ended) (follows.allRemovable.mp removable).2
    simp only [deletePages, if_pos ended]
    exact ⟨more.1, follows.append more.2⟩

/-- The order of the first page, and then those of the others. -/
def firstOrder (first : List String) (others : Nat → List String) : Nat → List String
  | 0 => first
  | i + 1 => others i

/-- There are orders for all sets of directories. -/
theorem exists_listed (pid : Nat) (dirs : List String) (turns : Nat → PageTurn)
    (pages : List (List String)) : ∃ orders, Listed pid dirs turns orders pages := by
  induction pages generalizing turns with
  | nil => exact ⟨fun _ => [], trivial⟩
  | cons page rest ih =>
    have ⟨orders, others⟩ := ih fun i => turns (i + 1)
    have ⟨first, listed⟩ : ∃ order, (turns 0).Order (deleteContent page dirs) pid order := by
      cases read : readOptions (deleteContent page dirs) pid (turns 0).reads with
      | none => exact ⟨[], fun o keys same => by simp [read] at same⟩
      | some pair =>
        refine ⟨pair.1.dirsToDelete.dedup, fun o keys same => ?_⟩
        rw [read] at same
        cases same
        exact List.Perm.refl _
    exact ⟨firstOrder first orders, listed, others⟩

/-- When every page is handled in whatever order, all directories can be removed. -/
theorem allRemovable_of_returns
    (occurs : ∀ orders, Listed pid dirs turns orders pages → Occur pid dirs turns orders pages host)
    (returns : ∀ orders, Listed pid dirs turns orders pages →
      (deletePages pid dirs turns orders pages host).1 = true) :
    AllRemovable host (callEvents dirs turns pages) := by
  induction pages generalizing turns host with
  | nil =>
    intro earlier tasks later split_
    simp [callEvents] at split_
  | cons page rest ih =>
    have ⟨orders, listed⟩ := exists_listed pid dirs turns (page :: rest)
    have possible := (occurs orders listed).1
    have first (order : List String) (here : (turns 0).Order (deleteContent page dirs) pid order) :
        ((turns 0).run (deleteContent page dirs) pid order host).returned = true := by
      have returned := returns (firstOrder order fun i => orders (i + 1)) ⟨here, listed.2⟩
      simp only [deletePages] at returned
      split at returned
      · assumption
      · contradiction
    have ended := first (orders 0) listed.1
    have follows := possible.follows listed.1 ended
    refine follows.allRemovable.mpr ⟨possible.removable_iff.mpr first, ih ?_ ?_⟩
    · intro others listed'
      exact (occurs (firstOrder (orders 0) others) ⟨listed.1, listed'⟩).2 ended
    · intro others listed'
      have returned := returns (firstOrder (orders 0) others) ⟨listed.1, listed'⟩
      simpa only [deletePages, firstOrder, ended, if_true] using returned

end Pages

/-- `delete_content` removes everything exactly when the directories come with units on a single
page, those of the requests that are executed with them can be removed too, and the last change
that concerns a unit takes it out. Without units nothing is removed, and a second page does not
find the directories any more. -/
theorem delete_content_iff (pid : Nat) (turns : Nat → PageTurn) (units dirs : List String)
    (host : ContentHost) (present : ∀ path ∈ dirs, host.isDir path = true)
    (occurs : ∀ orders, Listed pid dirs turns orders (batched maxContentUnitsInBatch units) →
      Occur pid dirs turns orders (batched maxContentUnitsInBatch units) host) :
    DeletesAll pid turns units dirs host ↔ Deletable turns units dirs host := by
  have positive : 0 < maxContentUnitsInBatch := by decide
  have none_ : units = [] ↔ batched maxContentUnitsInBatch units = [] :=
    (batched_eq_nil positive).symm
  have single : units.length ≤ maxContentUnitsInBatch ↔
      (batched maxContentUnitsInBatch units).length ≤ 1 := (batched_length_le_one positive).symm
  have left (orders : Nat → List String)
      (follows : HostFollows host (callEvents dirs turns (batched maxContentUnitsInBatch units))
        (deleteUnits pid turns orders units dirs host).2) (unit : String) :
      unit ∉ (deleteUnits pid turns orders units dirs host).2.content ↔
        SetUpdates.LeftOut ((callEvents dirs turns
          (batched maxContentUnitsInBatch units)).map CallEvent.update) unit
            (unit ∈ host.content) := by
    have out := @SetUpdates.not_mem_run _ ((callEvents dirs turns
      (batched maxContentUnitsInBatch units)).map CallEvent.update) (host.content : Set String)
        unit
    rw [← follows.content, Finset.mem_coe, Finset.mem_coe] at out
    exact out
  constructor
  · intro deletes
    have removable := allRemovable_of_returns occurs fun orders listed => (deletes orders listed).1
    have ⟨orders, listed⟩ := exists_listed pid dirs turns (batched maxContentUnitsInBatch units)
    have follows := (deletePages_follows listed (occurs orders listed) removable).2
    have run := deletes orders listed
    refine ⟨?_, removable, fun unit member => (left orders follows unit).mp (run.2.2 unit member)⟩
    by_cases empty : dirs = []
    · exact Or.inl empty
    · have ⟨path, member⟩ := List.exists_mem_of_ne_nil dirs empty
      have occur := occurs orders listed
      have ⟨returned, gone, _⟩ := run
      rw [ne_eq, none_, single]
      simp only [deleteUnits] at returned gone
      generalize batched maxContentUnitsInBatch units = pages at returned gone occur listed ⊢
      cases pages with
      | nil =>
        have absent : host.isDir path = false := gone path member
        rw [present path member] at absent
        contradiction
      | cons page rest =>
        cases rest with
        | nil => exact Or.inr ⟨by simp, by simp⟩
        | cons next rest =>
          -- The second page looks for directories that are removed with the first one.
          simp only [deletePages] at returned
          split at returned
          · rename_i first
            split at returned
            · rename_i second
              have named : path ∈ (deleteContent page dirs).dirsToDelete.getD [] := member
              have again : path ∈ (deleteContent next dirs).dirsToDelete.getD [] := member
              have removed := (occur.1.removes listed.1 first named).2
              have there := ((occur.2 first).1.removes listed.2.1 second again).1
              rw [removed] at there
              contradiction
            · contradiction
          · contradiction
  · rintro ⟨onePage, removable, out⟩ orders listed
    have occur := occurs orders listed
    have ⟨returned, follows⟩ := deletePages_follows listed occur removable
    refine ⟨returned, fun path member => ?_,
      fun unit inside => (left orders follows unit).mpr (out unit inside)⟩
    rcases onePage with empty | ⟨some_, short⟩
    · rw [empty] at member
      exact absurd member List.not_mem_nil
    · simp only [deleteUnits] at returned ⊢
      rw [batched_of_short positive some_ short] at returned occur listed ⊢
      simp only [deletePages] at returned ⊢
      split at returned
      · rename_i first
        rw [if_pos first]
        have named : path ∈ (deleteContent units dirs).dirsToDelete.getD [] := member
        exact (occur.1.removes listed.1 first named).2
      · contradiction

section Quiet

variable {turns : Nat → PageTurn} {units dirs : List String} {pages : List (List String)}
  {host : ContentHost} {pid : Nat} {orders : Nat → List String}

/-- No other process changes anything or has requests in Redis. -/
def PageTurn.quiet : PageTurn := ⟨[], false, []⟩

/-- Without other processes every page is a batch of its own. -/
theorem callEvents_quiet : callEvents dirs (fun _ => .quiet) pages =
    pages.map fun page => .batch [deleteContent page dirs] := by
  induction pages with
  | nil => rfl
  | cons page rest ih =>
    rw [callEvents, ih]
    rfl

/-- Nothing is impossible when there are no other processes. -/
theorem occur_quiet : Occur pid dirs (fun _ => .quiet) orders pages host := by
  induction pages generalizing orders host with
  | nil => trivial
  | cons page rest ih =>
    have possible : PageTurn.quiet.Possible (deleteContent page dirs) pid host :=
      ⟨fun processed => (by cases processed), fun _ => rfl⟩
    exact ⟨possible, fun _ => ih⟩

/-- Without other processes only the number of units and directories below each other matter. -/
theorem deletable_quiet (present : ∀ path ∈ dirs, host.isDir path = true) :
    Deletable (fun _ => .quiet) units dirs host ↔
      dirs = [] ∨ (units ≠ [] ∧ units.length ≤ maxContentUnitsInBatch ∧
        ∀ path ∈ dirs, ∀ other ∈ dirs, path ≠ other →
          ¬ pathNames path <+: pathNames other) := by
  have positive : 0 < maxContentUnitsInBatch := by decide
  have named {page : List String} {path : String} :
      Named [deleteContent page dirs] path ↔ path ∈ dirs := by
    simp [Named, deleteContent]
  constructor
  · rintro ⟨onePage, removable, _⟩
    refine onePage.imp_right fun ⟨some_, short⟩ => ⟨some_, short, ?_⟩
    rw [batched_of_short positive some_ short, callEvents_quiet] at removable
    have apart := (allRemovable_singleton.mp removable).apart
    intro path member other there
    exact apart path other (named.mpr member) (named.mpr there)
  · intro condition
    refine ⟨condition.imp_right fun ⟨some_, short, _⟩ => ⟨some_, short⟩, ?_, ?_⟩
    · rw [callEvents_quiet]
      rcases condition with rfl | ⟨some_, short, apart⟩
      · intro earlier tasks later split_
        have member : CallEvent.batch tasks ∈ (batched maxContentUnitsInBatch units).map
            fun page => CallEvent.batch [deleteContent page []] := by
          rw [split_]
          simp
        have ⟨page, _, same⟩ := List.mem_map.mp member
        cases same
        have nothing {path : String} (is_named : Named [deleteContent page []] path) : False :=
          absurd (named.mp is_named) List.not_mem_nil
        exact ⟨fun path is_named => (nothing is_named).elim,
          fun path other is_named => (nothing is_named).elim⟩
      · rw [batched_of_short positive some_ short]
        apply allRemovable_singleton.mpr
        constructor
        · intro path is_named
          exact ⟨present path (named.mp is_named), fun event none_ => absurd none_ List.not_mem_nil⟩
        · intro path other is_named there
          exact apart path (named.mp is_named) other (named.mp there)
    · intro unit inside
      rw [callEvents_quiet, List.map_map]
      apply SetUpdates.leftOut_of_add_empty
      · intro update member
        have ⟨page, _, same⟩ := List.mem_map.mp member
        rw [← same]
        simp [CallEvent.update, SetUpdates.merged, SetUpdates.adds, ContentTask.update,
          deleteContent]
      · obtain ⟨page, on, member⟩ := (mem_batched positive).mpr inside
        refine ⟨_, List.mem_map_of_mem on, ?_⟩
        simp [CallEvent.update, SetUpdates.merged, SetUpdates.adds, SetUpdates.removes,
          SetUpdates.conflicts, ContentTask.update, deleteContent, member]

end Quiet

namespace Sample

/-- Another process waits with a request to put a unit in. -/
def additionWaits : PageTurn where
  meanwhile := []
  processed := false
  reads := [(9, some { task := some (addContent ["y"]) })]

end Sample

/-- The one unit of a build is taken out and its directory is removed, while the unit of another
build is put in. -/
theorem delete_content_iff_hello :
    DeletesAll 8 (fun _ => Sample.additionWaits) ["x"] ["/results/1-hello"] Sample.fullHost := by
  have pages : batched maxContentUnitsInBatch ["x"] = [["x"]] :=
    batched_of_short (by decide) (by decide) (by decide)
  refine (delete_content_iff 8 (fun _ => Sample.additionWaits) ["x"] ["/results/1-hello"]
    Sample.fullHost (fun _ _ => rfl) ?_).mpr ⟨Or.inr ⟨by decide, by decide⟩, ?_, ?_⟩
  · intro orders _
    rw [pages]
    exact ⟨⟨fun processed => (by cases processed), fun _ => rfl⟩, fun _ => trivial⟩
  · rw [pages]
    apply allRemovable_singleton.mpr
    have named {path : String} (is_named : Named [deleteContent ["x"] ["/results/1-hello"],
        addContent ["y"]] path) : path = "/results/1-hello" := by
      simpa [Named, deleteContent, addContent] using is_named
    constructor
    · intro path is_named
      exact ⟨rfl, fun event none_ => absurd none_ List.not_mem_nil⟩
    · intro path other is_named there different
      exact absurd ((named is_named).trans (named there).symm) different
  · rw [pages]
    intro unit member
    obtain rfl := List.mem_singleton.mp member
    refine Or.inr ⟨[], _, [], rfl, ?_, ?_⟩ <;>
      simp [CallEvent.update, SetUpdates.merged, SetUpdates.adds, SetUpdates.removes,
        SetUpdates.conflicts, ContentTask.update, mergedTasks, processable, Sample.additionWaits,
        deleteContent, addContent, maxContentUnitsInBatch, ContentTask.size]

/-- A build without packages keeps its directory. -/
theorem delete_content_without_units : ¬ ∀ (units dirs : List String) (host : ContentHost),
    (∀ path ∈ dirs, host.isDir path = true) →
      DeletesAll 8 (fun _ => .quiet) units dirs host := by
  intro claimed
  have deletes := claimed [] ["/results/1-hello"] Sample.fullHost fun _ _ => rfl
  have pages : batched maxContentUnitsInBatch ([] : List String) = [] :=
    (batched_eq_nil (by decide)).mpr rfl
  have left := (deletes (fun _ => []) (by rw [pages]; trivial)).2.1
    "/results/1-hello" (List.mem_singleton.mpr rfl)
  rw [deleteUnits, pages] at left
  contradiction

end Copr
