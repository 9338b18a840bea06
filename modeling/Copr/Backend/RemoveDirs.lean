import Copr.Lib.Runs
import Copr.Frontend.CoprDirs

/-!
# Removing directories of pull requests

`RemoveDirs` of `copr_backend/actions.py` and how its actions get from the frontend to the disk:
they wait in the table of actions, are listed and queued, and each is executed by a background
process that removes one directory after another, while the frontend goes on.
-/

namespace Copr

open Runs Tables Text

/-- The assertions of `RemoveDirs` about an entry of its `data`. -/
def removeDirsAsserts (coprDir : String) : Bool :=
  decide ((split coprDir '/').length = 2) && contains coprDir ":pr:"

/-- How `shutil.rmtree` ends. -/
inductive Rmtree
  /-- The directory is gone. -/
  | removed
  /-- `FileNotFoundError`. -/
  | notFound
  /-- Another `OSError`, when some items are left. -/
  | oserror (left : List String)
  deriving DecidableEq, Repr

/-- A background process with a `RemoveDirs` action. -/
structure Removal where
  /-- The id of the action. -/
  id : Nat
  /-- The directories that are still to be removed. -/
  todo : List String
  /-- What `run` has returned. -/
  result : Option Bool
  deriving DecidableEq, Repr

/-- Items by the directory that they are stored in. -/
abbrev StoredItems := List (String × String)

/-- What is left after `rmtree` on a directory. -/
def StoredItems.rmtree (disk : StoredItems) (path : String) : Rmtree → StoredItems
  | .removed => disk.filter fun stored => decide (stored.1 ≠ path)
  | .notFound => disk
  | .oserror left =>
    disk.filter fun stored => decide (stored.1 ≠ path) || decide (stored.2 ∈ left)

/-- The next turn of the loop in `_run_internal`. A failed assertion is no `OSError`; the worker
reports a failure for it all the same. -/
def Removal.turn (r : Removal) (disk : StoredItems) (rmtree : Rmtree) :
    Option (Removal × StoredItems) :=
  if r.result.isSome then none
  else
    match r.todo with
    | [] => some ({ r with result := some true }, disk)
    | path :: rest =>
      if !removeDirsAsserts path then some ({ r with todo := [], result := some false }, disk)
      else
        match rmtree with
        | .oserror left =>
          some ({ r with todo := [], result := some false }, disk.rmtree path (.oserror left))
        | ended => some ({ r with todo := rest }, disk.rmtree path ended)

/-- The frontend, the action dispatcher and the disk of the backend. -/
structure RemovalWorld (chars : CharClasses) where
  /-- The tables of the frontend. -/
  db : DirDatabase chars
  /-- The actions that the dispatcher has fetched and not started yet. -/
  queue : List Nat
  /-- The processes that execute actions. -/
  running : List Removal
  /-- What is stored on the disk. -/
  disk : StoredItems

/-- What happens. -/
inductive RemovalEvent (chars : CharClasses)
  /-- Something happens on the frontend. -/
  | frontend (e : DirEvent chars)
  /-- The dispatcher fetches actions, not necessarily all that wait. -/
  | fetch (ids : List Nat)
  /-- An action is started. -/
  | start (id : Nat)
  /-- A process goes on with the next directory. -/
  | turn (index : Nat) (rmtree : Rmtree)
  /-- The result of a process is reported and accepted. -/
  | report (index : Nat)
  /-- A process dies, or its result is lost. -/
  | lose (index : Nat)
  /-- A build or a createrepo run stores something. -/
  | store (path item : String)

namespace RemovalWorld

variable {chars : CharClasses} (cfg : DirConfig)

/-- Nothing has happened. -/
def empty : RemovalWorld chars where
  db := .empty
  queue := []
  running := []
  disk := []

/-- One event; `none` when it cannot happen. -/
def step (w : RemovalWorld chars) : RemovalEvent chars → Option (RemovalWorld chars)
  | .frontend e => some { w with db := w.db.step cfg e }
  | .fetch ids =>
    if ids.all fun id => (w.db.actions.find id).any RemoveDirsAction.waiting then
      some (if ids.isEmpty then w else { w with queue := ids })
    else none
  | .start id =>
    if id ∈ w.queue then
      (w.db.actions.find id).map fun a =>
        { w with
          queue := w.queue.erase id
          running := w.running ++ [⟨id, a.data, none⟩] }
    else none
  | .turn index rmtree =>
    (w.running[index]?).bind fun r => (r.turn w.disk rmtree).map fun next =>
      { w with running := w.running.set index next.1, disk := next.2 }
  | .report index =>
    match w.running[index]? with
    | some ⟨id, _, some _⟩ =>
      some { w with
        db := { w.db with
          actions := w.db.actions.update (fun a => decide (a.id = id))
            (fun a => { a with waiting := false }) fun _ => rfl }
        running := w.running.eraseIdx index }
    | _ => none
  | .lose index =>
    if index < w.running.length then some { w with running := w.running.eraseIdx index } else none
  | .store path item => some { w with disk := w.disk ++ [(path, item)] }

/-- The action has no result on the frontend yet, or is about to be started. -/
def unfinished (w : RemovalWorld chars) (a : RemoveDirsAction) : Bool :=
  a.waiting || decide (a.id ∈ w.queue)

/-- What is still to be removed by actions that wait for their result, are queued or executed. -/
def pendingRemovals (w : RemovalWorld chars) : List String :=
  (w.db.actions.rows.filter w.unfinished).flatMap RemoveDirsAction.data ++
    w.running.flatMap Removal.todo

variable {cfg} {w t : RemovalWorld chars}

/-- What is still to be removed. -/
theorem mem_pendingRemovals {path : String} : path ∈ w.pendingRemovals ↔
    (∃ a ∈ w.db.actions.rows, (a.waiting = true ∨ a.id ∈ w.queue) ∧ path ∈ a.data) ∨
      ∃ r ∈ w.running, path ∈ r.todo := by
  simp [pendingRemovals, unfinished, and_assoc]

/-- A turn leaves no more to do. -/
theorem turn_todo {r r' : Removal} {disk disk' : StoredItems} {rmtree : Rmtree} {path : String}
    (turned : r.turn disk rmtree = some (r', disk')) (left : path ∈ r'.todo) : path ∈ r.todo := by
  unfold Removal.turn at turned
  split at turned
  · contradiction
  · split at turned
    · cases turned
      exact left
    · rename_i first rest same
      rw [same]
      split at turned
      · cases turned
        contradiction
      · split at turned
        · cases turned
          contradiction
        · cases turned
          exact List.mem_cons_of_mem _ left

/-- What a step adds to what is to be removed: full names of directories that it removes from the
table, without creating any. -/
theorem step_pendingRemovals {e : RemovalEvent chars} {path : String}
    (stepped : w.step cfg e = some t) (pending : path ∈ t.pendingRemovals) :
    path ∈ w.pendingRemovals ∨ (∀ d ∈ t.db.dirs.rows, d ∈ w.db.dirs.rows) ∧
      ∃ d ∈ w.db.dirs.rows, d ∉ t.db.dirs.rows ∧ d.isPr = true ∧ d.fullName = path := by
  rw [mem_pendingRemovals] at pending ⊢
  cases e with
  | frontend e =>
    cases stepped
    rcases pending with ⟨a, listed, unfinished, named⟩ | running
    · rcases DirDatabase.mem_step_actions listed with before | removed
      · exact Or.inl (Or.inl ⟨a, before, unfinished, named⟩)
      · exact Or.inr (removed.imp_right fun gone => gone path named)
    · exact Or.inl (Or.inr running)
  | fetch ids =>
    left
    obtain ⟨waiting, same⟩ := Option.ite_none_right_eq_some.mp stepped
    cases same
    split at pending
    · exact pending
    · rcases pending with ⟨a, listed, unfinished, named⟩ | running
      · rcases unfinished with open_ | queued
        · exact Or.inl ⟨a, listed, Or.inl open_, named⟩
        · have found := List.all_eq_true.mp waiting a.id queued
          rw [Table.find_of_mem listed] at found
          exact Or.inl ⟨a, listed, Or.inl found, named⟩
      · exact Or.inr running
  | start id =>
    left
    obtain ⟨queued, same⟩ := Option.ite_none_right_eq_some.mp stepped
    obtain ⟨a, found, rfl⟩ := Option.map_eq_some_iff.mp same
    obtain ⟨listed, rfl⟩ := Table.find_eq_some.mp found
    rcases pending with ⟨b, known, unfinished, named⟩ | ⟨r, running, todo⟩
    · have still := unfinished.imp_right List.mem_of_mem_erase
      exact Or.inl ⟨b, known, still, named⟩
    · rcases List.mem_append.mp running with before | new
      · exact Or.inr ⟨r, before, todo⟩
      · rw [List.mem_singleton.mp new] at todo
        exact Or.inl ⟨a, listed, Or.inr queued, todo⟩
  | turn index rmtree =>
    left
    obtain ⟨r, there, more⟩ := Option.bind_eq_some_iff.mp stepped
    obtain ⟨⟨r', disk⟩, turned, rfl⟩ := Option.map_eq_some_iff.mp more
    refine pending.imp_right fun ⟨p, running, todo⟩ => ?_
    rcases List.mem_or_eq_of_mem_set running with before | rfl
    · exact ⟨p, before, todo⟩
    · exact ⟨r, List.mem_of_getElem? there, turn_todo turned todo⟩
  | report index =>
    left
    simp only [step] at stepped
    split at stepped
    · cases stepped
      rcases pending with ⟨b, listed, unfinished, named⟩ | ⟨r, running, todo⟩
      · obtain ⟨a, known, rfl⟩ := List.mem_map.mp listed
        left
        refine ⟨a, known, ?_, ?_⟩
        · split at unfinished
          · exact unfinished.elim (fun impossible => absurd impossible Bool.false_ne_true) Or.inr
          · exact unfinished
        · split at named <;> exact named
      · exact Or.inr ⟨r, List.mem_of_mem_eraseIdx running, todo⟩
    · contradiction
  | lose index =>
    left
    obtain ⟨-, same⟩ := Option.ite_none_right_eq_some.mp stepped
    cases same
    exact pending.imp_right fun ⟨r, running, todo⟩ =>
      ⟨r, List.mem_of_mem_eraseIdx running, todo⟩
  | store path item =>
    cases stepped
    exact Or.inl pending

/-- A directory that is in the table after a step was there before, or it is the one that the
step created. -/
theorem step_dirs {e : RemovalEvent chars} {d : CoprDir chars} (stepped : w.step cfg e = some t)
    (listed : d ∈ t.db.dirs.rows) : d ∈ w.db.dirs.rows ∨ d.main = true ∨
      e = .frontend (.getOrCreate d.copr d.name) := by
  cases e with
  | frontend e =>
    cases stepped
    rcases DirDatabase.mem_step listed with before | ⟨main, -⟩ | rfl
    · exact Or.inl before
    · exact Or.inr (Or.inl main)
    · exact Or.inr (Or.inr rfl)
  | fetch ids =>
    obtain ⟨-, same⟩ := Option.ite_none_right_eq_some.mp stepped
    cases same
    split at listed <;> exact Or.inl listed
  | start id =>
    obtain ⟨-, same⟩ := Option.ite_none_right_eq_some.mp stepped
    obtain ⟨a, -, rfl⟩ := Option.map_eq_some_iff.mp same
    exact Or.inl listed
  | turn index rmtree =>
    obtain ⟨r, -, more⟩ := Option.bind_eq_some_iff.mp stepped
    obtain ⟨next, -, rfl⟩ := Option.map_eq_some_iff.mp more
    exact Or.inl listed
  | report index =>
    simp only [step] at stepped
    split at stepped
    · cases stepped
      exact Or.inl listed
    · contradiction
  | lose index =>
    obtain ⟨-, same⟩ := Option.ite_none_right_eq_some.mp stepped
    cases same
    exact Or.inl listed
  | store path item =>
    cases stepped
    exact Or.inl listed

end RemovalWorld

end Copr
