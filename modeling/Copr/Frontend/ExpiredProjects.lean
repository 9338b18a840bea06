import Mathlib.Data.List.Dedup
import Mathlib.Data.List.Sort
import Copr.Lib.Chunks
import Copr.Lib.Passes
import Copr.Lib.Text
import Copr.Frontend.PendingActions
import Copr.Frontend.Permissions

/-!
# Expired temporary projects

`clean_expired_projects` selects at most ten expired projects at a time and deletes those that it
can; a project with a running build is postponed. It commits after every selection that contained
a deleted project and stops at the first one that contained none. Builds are deleted in chunks of
a thousand, the newest ones first, each chunk with checks of its own.
-/

namespace Copr

open Tables Text Passes Chunks

/-- `Copr`, as far as it is deleted. -/
structure TemporaryCopr where
  /-- Primary key. -/
  id : Nat
  /-- `owner_name`. -/
  ownerName : String
  /-- `name`. -/
  name : String
  /-- `storage`. -/
  storage : StorageEnum
  /-- `delete_after`. -/
  deleteAfter : Option Int
  /-- `persistent`. -/
  persistent : Bool
  /-- `deleted`. -/
  deleted : Bool
  deriving DecidableEq, Repr

/-- The filters of `delete_expired_projects`. -/
def TemporaryCopr.expired (now : Int) (copr : TemporaryCopr) : Bool :=
  (copr.deleteAfter.any fun after => decide (after < now)) && !copr.deleted

/-- A build and its `copr_id`. -/
structure ProjectBuild where
  /-- The build. -/
  build : Build
  /-- `copr_id`. -/
  coprId : Nat
  deriving DecidableEq, Repr

/-- The data of an action that deletes a project. -/
structure CoprDeletion where
  /-- `ownername`. -/
  ownername : String
  /-- `project_dirnames`. -/
  projectDirnames : List String
  /-- `storage`. -/
  storage : StorageEnum
  deriving DecidableEq, Repr

/-- `Action`, as far as actions on projects are looked up. -/
structure ObjectAction where
  /-- `action_type`. -/
  actionType : ActionTypeEnum
  /-- `object_type`. -/
  objectType : String
  /-- `object_id`. -/
  objectId : Nat
  /-- `copr_id`. -/
  coprId : Option Nat
  /-- `priority`. -/
  priority : Option Int
  /-- `result`, none while it is `waiting`. -/
  result : Option BackendResultEnum
  /-- `data`, for the deletion of a project. -/
  data : Option CoprDeletion
  deriving DecidableEq, Repr

/-- The action deletes this project. -/
def ObjectAction.deletesCopr (coprId : Nat) (a : ObjectAction) : Bool :=
  decide (a.objectType = "copr") && decide (a.objectId = coprId) &&
    decide (a.actionType = .delete)

/-- `send_delete_copr`, with the priority that the command gives to its actions. -/
def TemporaryCopr.sendDeleteCopr (copr : TemporaryCopr) (dirnames : List String) :
    ObjectAction where
  actionType := .delete
  objectType := "copr"
  objectId := copr.id
  coprId := some copr.id
  priority := some 99
  result := none
  data := some
    { ownername := copr.ownerName
      projectDirnames := dirnames
      storage := copr.storage }

/-- Why a build is not deleted. -/
inductive DeletionRefusal
  /-- `InsufficientRightsException`. -/
  | insufficientRights
  /-- `ActionInProgressException`. -/
  | actionInProgress
  deriving DecidableEq, Repr

/-- The exceptions of `delete_copr`. -/
inductive DeletionError
  /-- `InsufficientRightsException`. -/
  | insufficientRights (message : String)
  /-- `BadRequest` of `delete_builds`. -/
  | badRequest (e : BadRequest)
  /-- `ActionInProgressException`, with the action that is in progress. -/
  | actionInProgress (action : ObjectAction)
  deriving DecidableEq, Repr

/-- The tables that the deletion of a project reads and writes. -/
structure CoprTables where
  /-- All projects. -/
  coprs : Table TemporaryCopr.id
  /-- All builds. -/
  builds : Table fun b : ProjectBuild => b.build.id
  /-- `copr_id` and `name` of all directories. -/
  dirs : List (Nat × String)
  /-- `copr_id` of all pinned projects. -/
  pinned : List Nat
  /-- All actions. -/
  actions : List ObjectAction

namespace CoprTables

section Source

variable (db : CoprTables)

/-- `get_multiple_by_copr`: the builds of a project, the newest first. -/
def getMultipleByCopr (coprId : Nat) : List Build :=
  ((db.builds.rows.filter fun b => decide (b.coprId = coprId)).map ProjectBuild.build).insertionSort
    fun b c => c.id ≤ b.id

/-- `check_build_to_delete` for the automation user, who can edit every project. -/
def checkBuildToDelete (b : ProjectBuild) : Option DeletionRefusal :=
  if (db.coprs.find b.coprId).any TemporaryCopr.persistent then some .insufficientRights
  else if b.build.finished then none
  else some .actionInProgress

/-- `get_by_ids`. -/
def getByIds (buildIds : List Nat) : List ProjectBuild :=
  db.builds.rows.filter fun b => decide (b.build.id ∈ buildIds)

/-- The ids of the builds whose check ends in a certain way. -/
def checkedBuilds (buildIds : List Nat) (outcome : Option DeletionRefusal) : List Nat :=
  ((db.getByIds buildIds).filter fun b => decide (db.checkBuildToDelete b = outcome)).map
    fun b => b.build.id

/-- The ids for which there is no build. -/
def missingBuilds (buildIds : List Nat) : List Nat :=
  buildIds.dedup.filter fun id => decide (id ∉ (db.getByIds buildIds).map fun b => b.build.id)

/-- `delete_builds` for the automation user, without a delete action. -/
def deleteBuilds (buildIds : List Nat) : Except BadRequest CoprTables :=
  let toDelete := db.checkedBuilds buildIds none
  let noPermission := db.checkedBuilds buildIds (some .insufficientRights)
  let stillRunning := db.checkedBuilds buildIds (some .actionInProgress)
  let missing := db.missingBuilds buildIds
  if missing = [] ∧ noPermission = [] ∧ stillRunning = [] then
    .ok { db with builds := db.builds.remove fun b => decide (b.build.id ∈ toDelete) }
  else .error ⟨noPermission, stillRunning, missing⟩

/-- The loop over the chunks: what has been deleted stays deleted in the session. -/
def deleteChunks (db : CoprTables) : List (List Nat) → CoprTables × Option BadRequest
  | [] => (db, none)
  | chunk :: rest =>
    match db.deleteBuilds chunk with
    | .ok t => t.deleteChunks rest
    | .error e => (db, some e)

/-- The actions that delete a project. -/
def deleteActions (coprId : Nat) : List ObjectAction :=
  db.actions.filter (ObjectAction.deletesCopr coprId)

/-- `unfinished_blocking_actions_for`. -/
def unfinishedBlockingActionsFor (copr : TemporaryCopr) : List ObjectAction :=
  (db.deleteActions copr.id).filter fun a => a.result.isNone

/-- The names of `copr.dirs`. -/
def dirnames (coprId : Nat) : List String :=
  (db.dirs.filter fun d => decide (d.1 = coprId)).map Prod.snd

/-- `delete_unsafe` for the automation user, who is an admin. -/
def deleteUnsafe (copr : TemporaryCopr) : CoprTables × Option DeletionError :=
  match db.unfinishedBlockingActionsFor copr with
  | action :: _ => (db, some (.actionInProgress action))
  | [] =>
    ({ db with
        actions := db.actions ++ [copr.sendDeleteCopr (db.dirnames copr.id)]
        dirs := db.dirs.filter fun d => decide (d.1 ≠ copr.id)
        coprs := db.coprs.update (fun c => decide (c.id = copr.id))
          (fun c => { c with deleted := true }) fun _ => rfl
        pinned := db.pinned.filter fun id => decide (id ≠ copr.id) }, none)

/-- `delete_copr` as an admin action: what is in the session afterwards, and the exception. -/
def deleteCopr (copr : TemporaryCopr) : CoprTables × Option DeletionError :=
  let builds := (db.getMultipleByCopr copr.id).map Build.id
  if copr.persistent then
    (db, some (.insufficientRights "This project is protected against deletion."))
  else
    match db.deleteChunks (Chunks.batched 1000 builds) with
    | (t, some e) => (t, some (.badRequest e))
    | (t, none) => t.deleteUnsafe copr

/-- The loop of `delete_expired_projects`: the number of deleted projects and the session, none
after an exception. -/
def deleteEach (db : CoprTables) (deleted : Nat) : List TemporaryCopr → Option (Nat × CoprTables)
  | [] => some (deleted, db)
  | copr :: rest =>
    match db.deleteCopr copr with
    | (t, none) => t.deleteEach (deleted + 1) rest
    | (t, some (.badRequest e)) =>
      if contains e.deleteMessage "still running" then t.deleteEach deleted rest else none
    | (_, some _) => none

end Source

/-- The rows that a query returned, and when it was made. -/
structure ExpiredRows where
  /-- `datetime.now()`. -/
  now : Int
  /-- The projects, in no particular order. -/
  rows : List TemporaryCopr
  deriving DecidableEq, Repr

/-- The expired projects. -/
def expired (db : CoprTables) (now : Int) : List TemporaryCopr :=
  db.coprs.rows.filter (TemporaryCopr.expired now)

/-- What the query of `delete_expired_projects` can return. -/
def Returns (db : CoprTables) (limit : Nat) (answer : ExpiredRows) : Prop :=
  answer.rows.Nodup ∧ (∀ copr ∈ answer.rows, copr ∈ db.expired answer.now) ∧
    answer.rows.length = min limit (db.expired answer.now).length

instance (db : CoprTables) (limit : Nat) (answer : ExpiredRows) :
    Decidable (db.Returns limit answer) :=
  inferInstanceAs (Decidable (_ ∧ _ ∧ _))

/-- `delete_expired_projects` with the rows that its query returns. -/
def deleteExpiredProjects (db : CoprTables) (limit : Nat) (answer : ExpiredRows) :
    Option (Nat × CoprTables) :=
  if db.Returns limit answer then db.deleteEach 0 answer.rows else none

/-- `clean_expired_projects`: what is committed at the end, when the queries return these rows and
no exception is raised. -/
def cleanExpiredProjects (db : CoprTables) : List ExpiredRows → Option CoprTables
  | [] => none
  | answer :: rest =>
    (db.deleteExpiredProjects 10 answer).bind fun (deleted, t) =>
      if deleted = 0 then (if rest.isEmpty then some db else none)
      else t.cleanExpiredProjects rest

/-! ## What is promised, and when -/

/-- The project was deleted completely, and one action tells the backend. -/
structure Deleted (db t : CoprTables) (coprId : Nat) : Prop where
  /-- The project is marked as deleted. -/
  marked : ∃ copr, t.coprs.find coprId = some copr ∧ copr.deleted = true
  /-- It has no builds. -/
  builds : ∀ b ∈ t.builds.rows, b.coprId ≠ coprId
  /-- One action was sent. -/
  action : ∃ action, t.deleteActions coprId = db.deleteActions coprId ++ [action]

/-- The project has a build that is not finished. -/
def running (db : CoprTables) (copr : TemporaryCopr) : Bool :=
  (db.getMultipleByCopr copr.id).any fun b => !b.finished

/-- The project has a delete action that waits. -/
def waits (db : CoprTables) (copr : TemporaryCopr) : Bool :=
  (db.deleteActions copr.id).any fun a => a.result.isNone

/-- Nothing stands against the deletion of the project. -/
def deletable (db : CoprTables) (copr : TemporaryCopr) : Bool :=
  !copr.persistent && !db.running copr && !db.waits copr

/-- The deletion of the project raises an exception that ends the command. -/
def raises (db : CoprTables) (copr : TemporaryCopr) : Bool :=
  copr.persistent || !db.running copr && db.waits copr

/-- The deletion of the project is postponed. -/
def postponed (db : CoprTables) (copr : TemporaryCopr) : Bool :=
  !copr.persistent && db.running copr

/-- None of the newest thousand builds is unfinished. -/
def finishedChunk (db : CoprTables) (copr : TemporaryCopr) : Bool :=
  ((db.getMultipleByCopr copr.id).take 1000).all Build.finished

/-- Expired projects are deleted completely or keep their builds, and those that can be deleted
are. -/
def CleanedUp (db : CoprTables) (now : Int) (t : CoprTables) : Prop :=
  ∀ copr ∈ db.expired now,
    (Deleted db t copr.id ∨
      ∀ b, b.coprId = copr.id → (b ∈ t.builds.rows ↔ b ∈ db.builds.rows)) ∧
    (db.deletable copr = true → Deleted db t copr.id)

/-- No expired project can be deleted; or fewer than ten are postponed, each of them with an
unfinished build among its newest thousand, unless there is one that ends the command. -/
def CleansUp (db : CoprTables) (now : Int) : Prop :=
  (∀ copr ∈ db.expired now, db.deletable copr = false) ∨
    (db.expired now).countP db.postponed < 10 ∧
      ((∃ copr ∈ db.expired now, db.raises copr = true) ∨
        ∀ copr ∈ db.expired now, db.postponed copr = true → db.finishedChunk copr = false)

/-! ## One project at a time -/

/-- What is stored of one project. -/
structure ProjectView where
  /-- The row of the project. -/
  copr : Option TemporaryCopr
  /-- Its builds, the newest first. -/
  builds : List Build
  /-- The names of its directories. -/
  dirs : List String
  /-- The actions that delete it. -/
  actions : List ObjectAction

/-- What is stored of each project. -/
def view (db : CoprTables) (coprId : Nat) : ProjectView where
  copr := db.coprs.find coprId
  builds := db.getMultipleByCopr coprId
  dirs := db.dirnames coprId
  actions := db.deleteActions coprId

/-- What an attempt to delete a project makes of it: it is deleted, or keeps the builds from the
first chunk on that has an unfinished one; or the command ends. -/
def ProjectView.attempt (v : ProjectView) : Option (Bool × ProjectView) :=
  v.copr.bind fun copr =>
    if copr.persistent then none
    else if remaining 1000 Build.finished v.builds = [] then
      if v.actions.any (fun a => a.result.isNone) then none
      else some (true,
        { copr := some { copr with deleted := true }
          builds := []
          dirs := []
          actions := v.actions ++ [copr.sendDeleteCopr v.dirs] })
    else some (false, { v with builds := remaining 1000 Build.finished v.builds })

/-- The tables without some builds. -/
def without (db : CoprTables) (gone : List Nat) : CoprTables :=
  { db with builds := db.builds.remove fun b => decide (b.build.id ∈ gone) }

variable {db t : CoprTables} {copr : TemporaryCopr} {coprId : Nat} {now : Int}

/-- The builds of a project are rows with its id. -/
theorem mem_getMultipleByCopr {b : Build} :
    b ∈ db.getMultipleByCopr coprId ↔ ⟨b, coprId⟩ ∈ db.builds.rows := by
  rw [getMultipleByCopr, List.mem_insertionSort, List.mem_map]
  constructor
  · rintro ⟨⟨c, id⟩, member, rfl⟩
    obtain ⟨listed, same⟩ := List.mem_filter.mp member
    obtain rfl : id = coprId := by simpa using same
    exact listed
  · intro listed
    exact ⟨⟨b, coprId⟩, List.mem_filter.mpr ⟨listed, decide_eq_true rfl⟩, rfl⟩

/-- The builds of a project have different ids. -/
theorem getMultipleByCopr_nodup : ((db.getMultipleByCopr coprId).map Build.id).Nodup := by
  have sorted := (List.perm_insertionSort (fun b c : Build => c.id ≤ b.id)
    ((db.builds.rows.filter fun b => decide (b.coprId = coprId)).map ProjectBuild.build)).map
      Build.id
  rw [getMultipleByCopr, sorted.nodup_iff, List.map_map]
  exact db.builds.distinct.sublist (List.filter_sublist.map _)

/-- Lists of builds with different ids in the same order are equal. -/
theorem eq_of_sorted {l m : List Build} (distinct : (l.map Build.id).Nodup)
    (left : l.Pairwise fun b c => c.id ≤ b.id) (right : m.Pairwise fun b c => c.id ≤ b.id)
    (perm : l.Perm m) : l = m := by
  refine perm.eq_of_pairwise ?_ left right
  intro b c here there above below
  exact List.inj_on_of_nodup_map distinct here (perm.mem_iff.mpr there)
    (Nat.le_antisymm below above)

/-- The builds of a project that are left without some others. -/
theorem getMultipleByCopr_without (gone : List Nat) :
    (db.without gone).getMultipleByCopr coprId =
      (db.getMultipleByCopr coprId).filter fun b => decide (b.id ∉ gone) := by
  have order : Std.Total fun b c : Build => c.id ≤ b.id := ⟨fun b c => Nat.le_total c.id b.id⟩
  have trans : IsTrans Build fun b c => c.id ≤ b.id :=
    ⟨fun _ _ _ first second => Nat.le_trans second first⟩
  refine eq_of_sorted getMultipleByCopr_nodup (List.pairwise_insertionSort _ _)
    ((List.pairwise_insertionSort _ _).sublist List.filter_sublist) ?_
  apply (List.perm_insertionSort _ _).trans
  apply List.Perm.trans _ ((List.perm_insertionSort _ _).filter _).symm
  rw [List.filter_map, List.filter_filter]
  unfold without Table.remove
  rw [List.filter_filter]
  apply List.Perm.of_eq
  congr 1
  apply List.filter_congr
  intro b _
  simp [Bool.and_comm]

/-- Removing the same rows gives the same tables. -/
theorem without_eq {l m : List Nat}
    (same : ∀ b ∈ db.builds.rows, b.build.id ∈ l ↔ b.build.id ∈ m) :
    db.without l = db.without m := by
  have rows : (db.builds.remove fun b => decide (b.build.id ∈ l)) =
      db.builds.remove fun b => decide (b.build.id ∈ m) := by
    unfold Table.remove
    congr 1
    apply List.filter_congr
    intro b member
    simp only [same b member]
  rw [without, without, rows]

/-- Nothing is removed when nothing is listed. -/
theorem without_nil : db.without [] = db := by
  have rows : (db.builds.remove fun b => decide (b.build.id ∈ ([] : List Nat))) = db.builds := by
    unfold Table.remove
    simp
  rw [without, rows]

/-- Builds that are removed one after another. -/
theorem without_append (l m : List Nat) : (db.without l).without m = db.without (l ++ m) := by
  unfold without Table.remove
  dsimp only
  congr 2
  rw [List.filter_filter]
  apply List.filter_congr
  intro b _
  simp [Bool.and_comm]

/-- Builds with the ids of a chunk are in the chunk. -/
theorem row_of_chunk {chunk : List Build}
    (owned : ∀ b ∈ chunk, (⟨b, coprId⟩ : ProjectBuild) ∈ db.builds.rows) {r : ProjectBuild}
    (member : r ∈ db.builds.rows) (listed : r.build.id ∈ chunk.map Build.id) :
    r.coprId = coprId ∧ r.build ∈ chunk := by
  obtain ⟨b, inside, same⟩ := List.mem_map.mp listed
  have equal := Table.eq_of_key (owned b inside) member same
  rw [← equal]
  exact ⟨rfl, inside⟩

/-- The check of a build in a project that is not protected. -/
theorem checkBuildToDelete_eq {r : ProjectBuild} (found : db.coprs.find r.coprId = some copr)
    (unprotected : copr.persistent = false) :
    db.checkBuildToDelete r = if r.build.finished then none else some .actionInProgress := by
  simp [checkBuildToDelete, found, unprotected]

section Chunk

variable {chunk : List Build}

/-- The builds that are looked up for a chunk. -/
theorem mem_getByIds (owned : ∀ b ∈ chunk, (⟨b, coprId⟩ : ProjectBuild) ∈ db.builds.rows)
    {r : ProjectBuild} :
    r ∈ db.getByIds (chunk.map Build.id) ↔ r.coprId = coprId ∧ r.build ∈ chunk := by
  rw [getByIds, List.mem_filter, decide_eq_true_eq]
  constructor
  · rintro ⟨member, listed⟩
    exact row_of_chunk owned member listed
  · rintro ⟨rfl, inside⟩
    exact ⟨owned _ inside, List.mem_map_of_mem inside⟩

/-- How the checks of a chunk end. -/
theorem mem_checkedBuilds (found : db.coprs.find coprId = some copr)
    (unprotected : copr.persistent = false)
    (owned : ∀ b ∈ chunk, (⟨b, coprId⟩ : ProjectBuild) ∈ db.builds.rows) {id : Nat}
    {outcome : Option DeletionRefusal} :
    id ∈ db.checkedBuilds (chunk.map Build.id) outcome ↔ ∃ b ∈ chunk, b.id = id ∧
      (if b.finished then none else some .actionInProgress) = outcome := by
  simp only [checkedBuilds, List.mem_map, List.mem_filter, decide_eq_true_eq, mem_getByIds owned]
  constructor
  · rintro ⟨r, ⟨⟨same, inside⟩, ended⟩, rfl⟩
    rw [checkBuildToDelete_eq (same ▸ found) unprotected] at ended
    exact ⟨r.build, inside, rfl, ended⟩
  · rintro ⟨b, inside, rfl, ended⟩
    refine ⟨⟨b, coprId⟩, ⟨⟨rfl, inside⟩, ?_⟩, rfl⟩
    rw [checkBuildToDelete_eq found unprotected]
    exact ended

/-- The builds of a chunk exist. -/
theorem missingBuilds_chunk
    (owned : ∀ b ∈ chunk, (⟨b, coprId⟩ : ProjectBuild) ∈ db.builds.rows) :
    db.missingBuilds (chunk.map Build.id) = [] := by
  rw [missingBuilds, List.filter_eq_nil_iff]
  intro id listed
  obtain ⟨b, inside, rfl⟩ := List.mem_map.mp (List.mem_dedup.mp listed)
  have there : b.id ∈ (db.getByIds (chunk.map Build.id)).map fun b => b.build.id :=
    List.mem_map.mpr ⟨⟨b, coprId⟩, (mem_getByIds owned).mpr ⟨rfl, inside⟩, rfl⟩
  simpa using there

/-- A chunk of finished builds is deleted. -/
theorem deleteBuilds_finished (found : db.coprs.find coprId = some copr)
    (unprotected : copr.persistent = false)
    (owned : ∀ b ∈ chunk, (⟨b, coprId⟩ : ProjectBuild) ∈ db.builds.rows)
    (all : chunk.all Build.finished = true) :
    db.deleteBuilds (chunk.map Build.id) = .ok (db.without (chunk.map Build.id)) := by
  have passes : ∀ b ∈ chunk, (if b.finished then none else some DeletionRefusal.actionInProgress) =
      none := fun b inside => if_pos (List.all_eq_true.mp all b inside)
  have none_refused : ∀ why,
      db.checkedBuilds (chunk.map Build.id) (some why) = [] := by
    intro why
    apply List.eq_nil_iff_forall_not_mem.mpr
    intro id listed
    obtain ⟨b, inside, -, ended⟩ := (mem_checkedBuilds found unprotected owned).mp listed
    rw [passes b inside] at ended
    contradiction
  have rows : db.without (db.checkedBuilds (chunk.map Build.id) none) =
      db.without (chunk.map Build.id) := by
    apply without_eq
    intro r _
    rw [mem_checkedBuilds found unprotected owned, List.mem_map]
    constructor
    · rintro ⟨b, inside, same, -⟩
      exact ⟨b, inside, same⟩
    · rintro ⟨b, inside, same⟩
      exact ⟨b, inside, same, passes b inside⟩
  rw [← rows]
  exact if_pos ⟨missingBuilds_chunk owned, none_refused _, none_refused _⟩

/-- A chunk with an unfinished build is refused, and the error lists that build as running. -/
theorem deleteBuilds_running (found : db.coprs.find coprId = some copr)
    (unprotected : copr.persistent = false)
    (owned : ∀ b ∈ chunk, (⟨b, coprId⟩ : ProjectBuild) ∈ db.builds.rows)
    (some : chunk.all Build.finished = false) :
    ∃ e, db.deleteBuilds (chunk.map Build.id) = .error e ∧ e.notReady ≠ [] := by
  obtain ⟨b, inside, running⟩ := List.all_eq_false.mp some
  have listed : b.id ∈ db.checkedBuilds (chunk.map Build.id) (.some .actionInProgress) :=
    (mem_checkedBuilds found unprotected owned).mpr ⟨b, inside, rfl, if_neg running⟩
  have refused := List.ne_nil_of_mem listed
  exact ⟨_, if_neg fun clean => refused clean.2.2, refused⟩

/-- The chunks are deleted up to the first one with an unfinished build. -/
theorem deleteChunks_spec {chunks : List (List Build)}
    (found : db.coprs.find coprId = some copr) (unprotected : copr.persistent = false)
    (owned : ∀ b ∈ chunks.flatten, (⟨b, coprId⟩ : ProjectBuild) ∈ db.builds.rows)
    (distinct : (chunks.flatten.map Build.id).Nodup) :
    ∃ error, db.deleteChunks (chunks.map fun chunk => chunk.map Build.id) =
        (db.without ((chunks.takeWhile fun chunk => chunk.all Build.finished).flatten.map Build.id),
          error) ∧
      (chunks.flatten.all Build.finished = true → error = none) ∧
      (chunks.flatten.all Build.finished = false → ∃ e, error = some e ∧ e.notReady ≠ []) := by
  induction chunks generalizing db with
  | nil =>
    refine ⟨none, ?_, fun _ => rfl, fun some => ?_⟩
    · show (db, none) = (db.without [], none)
      rw [without_nil]
    · contradiction
  | cons chunk rest ih =>
    rw [List.flatten_cons] at owned distinct ⊢
    rw [List.map_append, List.nodup_append] at distinct
    have here : ∀ b ∈ chunk, (⟨b, coprId⟩ : ProjectBuild) ∈ db.builds.rows :=
      fun b inside => owned b (List.mem_append_left _ inside)
    rw [List.map_cons, deleteChunks]
    cases all : chunk.all Build.finished with
    | true =>
      rw [deleteBuilds_finished found unprotected here all, List.takeWhile_cons, if_pos all]
      dsimp only
      obtain ⟨error, deleted, finished, running⟩ :=
        @ih (db.without (chunk.map Build.id)) found (by
          intro b inside
          refine Table.mem_remove.mpr ⟨owned b (List.mem_append_right _ inside), ?_⟩
          rw [decide_eq_false_iff_not]
          intro before
          exact distinct.2.2 _ before _ (List.mem_map_of_mem inside) rfl) distinct.2.1
      refine ⟨error, ?_, ?_, ?_⟩
      · rw [deleted, without_append, List.flatten_cons, List.map_append]
      · rw [List.all_append, all]
        exact finished
      · rw [List.all_append, all]
        exact running
    | false =>
      obtain ⟨e, refused, listed⟩ := deleteBuilds_running found unprotected here all
      have stops : ¬ chunk.all Build.finished = true := by simp [all]
      rw [refused, List.takeWhile_cons, if_neg stops]
      refine ⟨some e, ?_, ?_, fun _ => ⟨e, rfl, listed⟩⟩
      · rw [List.flatten_nil, List.map_nil, without_nil]
      · rw [List.all_append, all]
        exact fun impossible => absurd impossible Bool.false_ne_true

end Chunk

/-- Some builds are reported as running. -/
theorem contains_still_running (first ids last : String) :
    contains (first ++ ("Build(s) " ++ ids ++ " are still running.\n") ++ last) "still running" =
      true := by
  have ending : " are still running.\n".toList =
      " are ".toList ++ "still running".toList ++ ".\n".toList := by decide
  rw [contains_iff]
  refine ⟨first.toList ++ "Build(s) ".toList ++ ids.toList ++ " are ".toList,
    ".\n".toList ++ last.toList, ?_⟩
  simp only [String.toList_append, ending, List.append_assoc]

/-- The message about running builds says so. -/
theorem deleteMessage_still_running {e : BadRequest} (listed : e.notReady ≠ []) :
    contains e.deleteMessage "still running" = true := by
  have some : e.notReady.isEmpty = false := List.isEmpty_eq_false_iff.mpr listed
  rw [BadRequest.deleteMessage, some, if_neg Bool.false_ne_true]
  exact contains_still_running _ _ _

/-- What is left of a list without its beginning. -/
theorem filter_of_append {l m : List Build} (distinct : ((l ++ m).map Build.id).Nodup) :
    ((l ++ m).filter fun b => decide (b.id ∉ l.map Build.id)) = m := by
  rw [List.map_append, List.nodup_append] at distinct
  rw [List.filter_append, List.filter_eq_nil_iff.mpr, List.nil_append, List.filter_eq_self]
  · intro b inside
    rw [decide_eq_true_eq]
    intro before
    exact distinct.2.2 _ before _ (List.mem_map_of_mem inside) rfl
  · intro b inside
    simp [List.mem_map_of_mem (f := Build.id) inside]

/-- Removing builds of one project concerns no other project. -/
theorem view_without {gone : List Nat}
    (owned : ∀ id ∈ gone, ∃ b ∈ db.getMultipleByCopr coprId, b.id = id) :
    (db.without gone).view = Function.update db.view coprId
      { db.view coprId with
        builds := (db.getMultipleByCopr coprId).filter fun b => decide (b.id ∉ gone) } := by
  funext other
  by_cases same : other = coprId
  · rw [same, Function.update_self, view, getMultipleByCopr_without]
    rfl
  · rw [Function.update_of_ne same, view, getMultipleByCopr_without, List.filter_eq_self.mpr]
    · rfl
    · intro b inside
      rw [decide_eq_true_eq]
      intro listed
      obtain ⟨c, own, equal⟩ := owned b.id listed
      have rows := Table.eq_of_key (mem_getMultipleByCopr.mp own) (mem_getMultipleByCopr.mp inside)
        equal
      exact same (ProjectBuild.mk.inj rows).2.symm

/-- What is stored after a project was marked as deleted. -/
theorem view_deleted (found : db.coprs.find copr.id = some copr)
    (clear : db.unfinishedBlockingActionsFor copr = []) :
    ∃ t, db.deleteUnsafe copr = (t, none) ∧ t.coprs.rows.map TemporaryCopr.id =
        db.coprs.rows.map TemporaryCopr.id ∧
      t.view = Function.update db.view copr.id
        { copr := some { copr with deleted := true }
          builds := db.getMultipleByCopr copr.id
          dirs := []
          actions := db.deleteActions copr.id ++ [copr.sendDeleteCopr (db.dirnames copr.id)] } := by
  unfold deleteUnsafe
  rw [clear]
  refine ⟨_, rfl, ?_, ?_⟩
  · unfold Table.update
    rw [List.map_map]
    apply List.map_congr_left
    intro c _
    rw [Function.comp_apply]
    split <;> rfl
  · funext other
    by_cases same : other = copr.id
    · rw [same, Function.update_self]
      simp [view, found, getMultipleByCopr, dirnames, deleteActions, ObjectAction.deletesCopr,
        TemporaryCopr.sendDeleteCopr, List.filter_filter]
    · rw [Function.update_of_ne same]
      have row : ((db.coprs.find other).map fun c =>
          if decide (c.id = copr.id) then { c with deleted := true } else c) =
            db.coprs.find other := by
        cases there : db.coprs.find other with
        | none => rfl
        | some c =>
          have own := (Table.find_eq_some.mp there).2
          rw [Option.map_some, if_neg]
          rw [decide_eq_true_eq, own]
          exact same
      have dirs : ((db.dirs.filter fun d => decide (d.1 ≠ copr.id)).filter
          fun d => decide (d.1 = other)) = db.dirs.filter fun d => decide (d.1 = other) := by
        rw [List.filter_filter]
        apply List.filter_congr
        intro d _
        by_cases own : d.1 = other
        · simp [own, same]
        · simp [own]
      have actions : ∀ names, (db.actions ++ [copr.sendDeleteCopr names]).filter
          (ObjectAction.deletesCopr other) =
            db.actions.filter (ObjectAction.deletesCopr other) := by
        intro names
        rw [List.filter_append]
        simp [ObjectAction.deletesCopr, TemporaryCopr.sendDeleteCopr, Ne.symm same]
      simp only [view, dirnames, deleteActions, Table.find_update, row, dirs, actions]
      rfl

/-- The chunks are deleted as far as the attempt says. -/
theorem deleteChunks_view (found : db.coprs.find coprId = some copr)
    (unprotected : copr.persistent = false) :
    ∃ t error, db.deleteChunks (Chunks.batched 1000 ((db.getMultipleByCopr coprId).map Build.id)) =
        (t, error) ∧ t.coprs = db.coprs ∧
      t.view = Function.update db.view coprId { db.view coprId with
        builds := remaining 1000 Build.finished (db.getMultipleByCopr coprId) } ∧
      (remaining 1000 Build.finished (db.getMultipleByCopr coprId) = [] → error = none) ∧
      (remaining 1000 Build.finished (db.getMultipleByCopr coprId) ≠ [] →
        ∃ e, error = some e ∧ e.notReady ≠ []) := by
  let builds := db.getMultipleByCopr coprId
  let chunks := Chunks.batched 1000 builds
  have whole : chunks.flatten = builds := flatten_batched (by decide)
  have parts : (chunks.takeWhile fun chunk => chunk.all Build.finished).flatten ++
      remaining 1000 Build.finished builds = builds := by
    rw [remaining, ← List.flatten_append, List.takeWhile_append_dropWhile]
    exact whole
  have owned : ∀ b ∈ chunks.flatten, (⟨b, coprId⟩ : ProjectBuild) ∈ db.builds.rows := by
    rw [whole]
    exact fun b inside => mem_getMultipleByCopr.mp inside
  have distinct : (chunks.flatten.map Build.id).Nodup := by
    rw [whole]
    exact getMultipleByCopr_nodup
  obtain ⟨error, deleted, finished, running⟩ :=
    deleteChunks_spec found unprotected owned distinct
  rw [whole] at finished running
  have left : ((db.getMultipleByCopr coprId).filter fun b => decide
      (b.id ∉ (chunks.takeWhile fun chunk => chunk.all Build.finished).flatten.map Build.id)) =
        remaining 1000 Build.finished (db.getMultipleByCopr coprId) := by
    show builds.filter _ = remaining 1000 Build.finished builds
    nth_rewrite 1 [← parts]
    apply filter_of_append
    rw [parts]
    exact getMultipleByCopr_nodup
  refine ⟨db.without
      ((chunks.takeWhile fun chunk => chunk.all Build.finished).flatten.map Build.id),
    error, ?_, rfl, ?_, ?_, ?_⟩
  · rw [batched_map]
    exact deleted
  · rw [view_without, left]
    intro id listed
    obtain ⟨b, inside, rfl⟩ := List.mem_map.mp listed
    refine ⟨b, ?_, rfl⟩
    show b ∈ builds
    rw [← parts]
    exact List.mem_append_left _ inside
  · intro empty
    exact finished ((remaining_eq_nil (by decide)).mp empty)
  · intro occupied
    apply running
    rw [← Bool.not_eq_true]
    exact fun all => occupied ((remaining_eq_nil (by decide)).mpr all)

/-- An attempt to delete a project, as the tables stand: a persistent one is refused, and then its
unfinished builds and waiting actions matter. -/
theorem attempt_eq (found : db.coprs.find coprId = some copr) :
    (db.view coprId).attempt =
      if copr.persistent then none
      else if remaining 1000 Build.finished (db.getMultipleByCopr coprId) = [] then
        if (db.deleteActions coprId).any (fun a => a.result.isNone) then none
        else some (true,
          { copr := some { copr with deleted := true }
            builds := []
            dirs := []
            actions := db.deleteActions coprId ++ [copr.sendDeleteCopr (db.dirnames coprId)] })
      else some (false, { db.view coprId with
        builds := remaining 1000 Build.finished (db.getMultipleByCopr coprId) }) := by
  have row : (db.view coprId).copr = some copr := found
  simp only [ProjectView.attempt, row, Option.bind_some]
  rfl

/-- Exceptions of `delete_copr` other than `BadRequest` end the command. -/
theorem deleteCopr_breaks (found : db.coprs.find copr.id = some copr)
    (broken : (db.view copr.id).attempt = none) :
    ∃ t e, db.deleteCopr copr = (t, some e) ∧ ∀ b, e ≠ .badRequest b := by
  rw [attempt_eq found] at broken
  cases protected? : copr.persistent with
  | true =>
    refine ⟨db, .insufficientRights "This project is protected against deletion.", ?_, ?_⟩
    · rw [deleteCopr, if_pos protected?]
    · intro b same
      contradiction
  | false =>
    have free : ¬ copr.persistent = true := by simp [protected?]
    rw [if_neg free] at broken
    split at broken
    · rename_i empty
      split at broken
      · rename_i waiting
        obtain ⟨t, error, deleted, -, viewed, finished, -⟩ := deleteChunks_view found protected?
        have blocked : t.unfinishedBlockingActionsFor copr ≠ [] := by
          obtain ⟨a, listed, pending⟩ := List.any_eq_true.mp waiting
          have actions := congrArg ProjectView.actions (congrFun viewed copr.id)
          rw [Function.update_self] at actions
          have same : t.deleteActions copr.id = db.deleteActions copr.id := actions
          rw [unfinishedBlockingActionsFor, same]
          exact List.ne_nil_of_mem (List.mem_filter.mpr ⟨listed, pending⟩)
        obtain ⟨a, rest, some⟩ := List.exists_cons_of_ne_nil blocked
        refine ⟨t, .actionInProgress a, ?_, fun b same => by contradiction⟩
        rw [deleteCopr, if_neg free, deleted, finished empty]
        dsimp only
        rw [deleteUnsafe, some]
      · contradiction
    · contradiction

/-- Without such an exception the project becomes what the attempt says, and no other project
changes. -/
theorem deleteCopr_goes_on {done : Bool} {v : ProjectView}
    (found : db.coprs.find copr.id = some copr)
    (tried : (db.view copr.id).attempt = some (done, v)) :
    ∃ t error, db.deleteCopr copr = (t, error) ∧ t.view = Function.update db.view copr.id v ∧
      t.coprs.rows.map TemporaryCopr.id = db.coprs.rows.map TemporaryCopr.id ∧
      (done = true → error = none) ∧
      (done = false → ∃ e, error = some (.badRequest e) ∧
        contains e.deleteMessage "still running" = true) := by
  rw [attempt_eq found] at tried
  split at tried
  · contradiction
  · rename_i free
    have unprotected : copr.persistent = false := by simpa using free
    obtain ⟨t, error, deleted, coprs, viewed, finished, running⟩ :=
      deleteChunks_view found unprotected
    split at tried
    · rename_i empty
      split at tried
      · contradiction
      · rename_i waiting
        obtain ⟨rfl, rfl⟩ := Prod.mk.inj (Option.some.inj tried)
        have here := congrFun viewed copr.id
        rw [Function.update_self, empty] at here
        have builds : t.getMultipleByCopr copr.id = [] := congrArg ProjectView.builds here
        have dirs : t.dirnames copr.id = db.dirnames copr.id := congrArg ProjectView.dirs here
        have actions : t.deleteActions copr.id = db.deleteActions copr.id :=
          congrArg ProjectView.actions here
        have clear : t.unfinishedBlockingActionsFor copr = [] := by
          rw [unfinishedBlockingActionsFor, actions, List.filter_eq_nil_iff]
          intro a listed pending
          exact waiting (List.any_eq_true.mpr ⟨a, listed, pending⟩)
        have here : t.coprs.find copr.id = some copr := coprs ▸ found
        obtain ⟨u, marked, ids, last⟩ := view_deleted here clear
        refine ⟨u, none, ?_, ?_, ?_, fun _ => rfl, fun impossible => by contradiction⟩
        · rw [deleteCopr, if_neg free, deleted, finished empty]
          exact marked
        · rw [last, viewed, Function.update_idem, builds, dirs, actions]
        · rw [ids, coprs]
    · rename_i occupied
      obtain ⟨rfl, rfl⟩ := Prod.mk.inj (Option.some.inj tried)
      obtain ⟨e, refused, listed⟩ := running occupied
      refine ⟨t, some (.badRequest e), ?_, viewed, by rw [coprs],
        fun impossible => by contradiction,
        fun _ => ⟨e, rfl, deleteMessage_still_running listed⟩⟩
      rw [deleteCopr, if_neg free, deleted, refused]

/-! ## The command as a job on projects -/

/-- The projects that a query selects, as they are seen one at a time. -/
def ProjectView.isOpen (now : Int) (v : ProjectView) : Bool :=
  v.copr.any (TemporaryCopr.expired now)

/-- An attempt that deletes the project. -/
theorem ProjectView.attempt_done {v w : ProjectView} (tried : v.attempt = some (true, w)) :
    ∃ copr, w.copr = some copr ∧ copr.deleted = true := by
  obtain ⟨copr, -, tried⟩ := Option.bind_eq_some_iff.mp tried
  split at tried
  · contradiction
  · split at tried
    · split at tried
      · contradiction
      · obtain ⟨-, rfl⟩ := Prod.mk.inj (Option.some.inj tried)
        exact ⟨_, rfl, rfl⟩
    · exact absurd (Prod.mk.inj (Option.some.inj tried)).1 Bool.false_ne_true

/-- An attempt that postpones the project. -/
theorem ProjectView.attempt_postponed {v w : ProjectView} (tried : v.attempt = some (false, w)) :
    ∃ copr, v.copr = some copr ∧ copr.persistent = false ∧
      remaining 1000 Build.finished v.builds ≠ [] ∧
      w = { v with builds := remaining 1000 Build.finished v.builds } := by
  obtain ⟨copr, row, tried⟩ := Option.bind_eq_some_iff.mp tried
  split at tried
  · contradiction
  · rename_i free
    split at tried
    · split at tried
      · contradiction
      · exact absurd (Prod.mk.inj (Option.some.inj tried)).1.symm Bool.false_ne_true
    · rename_i occupied
      exact ⟨copr, row, by simpa using free, occupied, (Prod.mk.inj (Option.some.inj tried)).2.symm⟩

/-- `clean_expired_projects` as a job on the projects with these ids. -/
def cleaning (ids : List Nat) (distinct : ids.Nodup) : Job Nat ProjectView Int where
  items := ids
  distinct := distinct
  limit := 10
  isOpen := ProjectView.isOpen
  attempt := ProjectView.attempt
  isOpen_later := by
    intro early late v order selected
    obtain ⟨copr, row, expired⟩ := (Option.any_eq_true _ _).mp selected
    rw [TemporaryCopr.expired, Bool.and_eq_true, Option.any_eq_true] at expired
    obtain ⟨⟨after, set, before⟩, there⟩ := expired
    rw [ProjectView.isOpen, row, Option.any_some, TemporaryCopr.expired, set, Option.any_some,
      there, Bool.and_true, decide_eq_true_eq]
    exact lt_of_lt_of_le (of_decide_eq_true before) order
  closed := by
    intro v w now tried
    obtain ⟨copr, row, gone⟩ := ProjectView.attempt_done tried
    rw [ProjectView.isOpen, row, Option.any_some, TemporaryCopr.expired, gone, Bool.not_true,
      Bool.and_false]
  still_open := by
    intro v w now tried
    obtain ⟨copr, -, -, -, rfl⟩ := ProjectView.attempt_postponed tried
    rfl
  postponed_again := by
    intro v w tried
    obtain ⟨copr, row, free, occupied, rfl⟩ := ProjectView.attempt_postponed tried
    have again := remaining_remaining (p := Build.finished) (l := v.builds) (by decide : 0 < 1000)
    simp only [ProjectView.attempt, row, Option.bind_some, free, again, if_neg occupied]
    rfl

/-- The ids of all projects. -/
def ids (db : CoprTables) : List Nat := db.coprs.rows.map TemporaryCopr.id

/-- No two projects have the same id. -/
theorem ids_nodup (db : CoprTables) : db.ids.Nodup := db.coprs.distinct

/-- The command as a job on the projects of these tables. -/
def job (db : CoprTables) : Job Nat ProjectView Int := cleaning db.ids db.ids_nodup

/-- The loop over the selected projects is a pass over their ids. -/
theorem deleteEach_view {rows : List TemporaryCopr} (n : Nat) (distinct : rows.Nodup)
    (listed : ∀ c ∈ rows, c ∈ db.coprs.rows) (items : List Nat) (nodup : items.Nodup) :
    (db.deleteEach n rows).map (fun r => (r.1, r.2.view, r.2.ids)) =
      ((cleaning items nodup).pass (rows.map TemporaryCopr.id) db.view).map
        fun r => (n + r.1, r.2, db.ids) := by
  induction rows generalizing db n with
  | nil => rfl
  | cons copr rest ih =>
    rw [List.nodup_cons] at distinct
    rw [List.forall_mem_cons] at listed
    have found := Table.find_of_mem listed.1
    rw [List.map_cons, Job.pass, deleteEach]
    cases tried : (db.view copr.id).attempt with
    | none =>
      obtain ⟨t, e, deleted, other⟩ := deleteCopr_breaks found tried
      have none : (cleaning items nodup).attempt (db.view copr.id) = none := tried
      rw [none, deleted]
      cases e with
      | badRequest b => exact absurd rfl (other b)
      | insufficientRights message => rfl
      | actionInProgress action => rfl
    | some result =>
      obtain ⟨done, v⟩ := result
      obtain ⟨t, error, deleted, viewed, same, finished, running⟩ :=
        deleteCopr_goes_on found tried
      have some : (cleaning items nodup).attempt (db.view copr.id) = some (done, v) := tried
      have still : ∀ c ∈ rest, c ∈ t.coprs.rows := by
        intro c inside
        have other : c.id ≠ copr.id := by
          intro equal
          have equal := Table.eq_of_key (listed.2 c inside) listed.1 equal
          exact distinct.1 (equal ▸ inside)
        have row := congrArg ProjectView.copr (congrFun viewed c.id)
        rw [Function.update_of_ne other] at row
        have there : t.coprs.find c.id = db.coprs.find c.id := row
        rw [Table.find_of_mem (listed.2 c inside)] at there
        exact (Table.find_eq_some.mp there).1
      have ids : t.ids = db.ids := same
      rw [some, deleted, Option.bind_some, ← viewed, Option.map_map]
      cases done with
      | true =>
        rw [finished rfl]
        dsimp only
        rw [ih (n + 1) distinct.2 still, ids]
        congr 1
        funext r
        show (n + 1 + r.1, r.2, db.ids) = (n + (1 + r.1), r.2, db.ids)
        rw [Nat.add_assoc]
      | false =>
        obtain ⟨e, refused, message⟩ := running rfl
        rw [refused]
        dsimp only
        rw [if_pos message, ih n distinct.2 still, ids]
        congr 1
        funext r
        show (n + r.1, r.2, db.ids) = (n + (0 + r.1), r.2, db.ids)
        rw [Nat.zero_add]

/-- An answer of the query, as the job is told it. -/
def ExpiredRows.ids (answer : ExpiredRows) : Answer Nat Int :=
  ⟨answer.now, answer.rows.map TemporaryCopr.id⟩

section Job

variable {items : List Nat} (nodup : items.Nodup)

/-- The expired projects are the open items of the job. -/
theorem openItems_view (same : db.ids = items) :
    (cleaning items nodup).openItems now db.view = (db.expired now).map TemporaryCopr.id := by
  have listed : (cleaning items nodup).items = db.coprs.rows.map TemporaryCopr.id := same.symm
  rw [Job.openItems, listed, List.filter_map, expired]
  congr 1
  apply List.filter_congr
  intro c member
  have found := Table.find_of_mem member
  show (db.coprs.find c.id).any _ = _
  rw [found]
  rfl

/-- What the query can return is an answer for the job. -/
theorem answers_iff {answer : ExpiredRows} (same : db.ids = items)
    (listed : ∀ c ∈ answer.rows, c ∈ db.coprs.rows) :
    (cleaning items nodup).Answers db.view answer.ids ↔ db.Returns 10 answer := by
  have inj : ∀ c ∈ answer.rows, ∀ d ∈ db.coprs.rows, c.id = d.id → c = d :=
    fun c inside d there equal => Table.eq_of_key (listed c inside) there equal
  unfold Job.Answers Returns
  rw [show answer.ids.clock = answer.now from rfl, openItems_view nodup same]
  show (answer.rows.map TemporaryCopr.id).Nodup ∧
    (∀ i ∈ answer.rows.map TemporaryCopr.id, i ∈ (db.expired answer.now).map TemporaryCopr.id) ∧
    (answer.rows.map TemporaryCopr.id).length =
      min 10 ((db.expired answer.now).map TemporaryCopr.id).length ↔ _
  rw [List.length_map, List.length_map, List.forall_mem_map]
  refine and_congr ?_ (and_congr ?_ Iff.rfl)
  · exact ⟨List.Nodup.of_map _, List.Nodup.map_on fun c inside d there =>
      inj c inside d (listed d there)⟩
  · refine forall₂_congr fun c inside => ?_
    rw [List.mem_map]
    constructor
    · rintro ⟨d, expired, equal⟩
      rw [inj c inside d (List.mem_of_mem_filter expired) equal.symm]
      exact expired
    · intro expired
      exact ⟨c, expired, rfl⟩

/-- A selection with the loop over it is an answer with its pass. -/
theorem deleteExpiredProjects_view {answer : ExpiredRows} (same : db.ids = items)
    (returned : db.Returns 10 answer) :
    (cleaning items nodup).Answers db.view answer.ids ∧
      (db.deleteExpiredProjects 10 answer).map (fun r => (r.1, r.2.view, r.2.ids)) =
        ((cleaning items nodup).pass answer.ids.selected db.view).map
          fun r => (r.1, r.2, items) := by
  have listed : ∀ c ∈ answer.rows, c ∈ db.coprs.rows :=
    fun c inside => List.mem_of_mem_filter (returned.2.1 c inside)
  refine ⟨(answers_iff nodup same listed).mpr returned, ?_⟩
  rw [deleteExpiredProjects, if_pos returned, deleteEach_view 0 returned.1 listed items nodup, same]
  congr 1
  funext r
  rw [Nat.zero_add]

/-- What the command commits is what the job keeps. -/
theorem clean_run {answers : List ExpiredRows} (same : db.ids = items)
    (ended : db.cleanExpiredProjects answers = some t) :
    (cleaning items nodup).run (answers.map ExpiredRows.ids) db.view = some t.view := by
  induction answers generalizing db with
  | nil => contradiction
  | cons answer rest ih =>
    obtain ⟨⟨deleted, u⟩, passed, continued⟩ := Option.bind_eq_some_iff.mp ended
    have returned : db.Returns 10 answer := by
      by_contra otherwise
      rw [deleteExpiredProjects, if_neg otherwise] at passed
      contradiction
    obtain ⟨given, viewed⟩ := deleteExpiredProjects_view nodup same returned
    rw [passed, Option.map_some] at viewed
    obtain ⟨⟨n, v⟩, through, equal⟩ := Option.map_eq_some_iff.mp viewed.symm
    obtain ⟨count, equal⟩ := Prod.mk.inj equal
    obtain ⟨states, ids⟩ := Prod.mk.inj equal
    dsimp only at count states ids
    subst count states
    rw [List.map_cons, Job.run, if_pos given, through, Option.bind_some]
    dsimp only at continued ⊢
    split at continued
    · rename_i zero
      rw [if_pos zero]
      split at continued
      · rename_i last
        obtain rfl := Option.some.inj continued
        rw [List.isEmpty_iff.mp last]
        rfl
      · contradiction
    · rename_i some
      rw [if_neg some]
      exact ih ids.symm continued

/-- Ids that are listed are those of some of the rows, in the same order. -/
theorem exists_rows {selected : List Nat} {rows : List TemporaryCopr}
    (listed : ∀ i ∈ selected, i ∈ rows.map TemporaryCopr.id) :
    ∃ found : List TemporaryCopr, found.map TemporaryCopr.id = selected ∧
      ∀ c ∈ found, c ∈ rows := by
  induction selected with
  | nil => exact ⟨[], rfl, by simp⟩
  | cons i rest ih =>
    rw [List.forall_mem_cons] at listed
    obtain ⟨c, member, rfl⟩ := List.mem_map.mp listed.1
    obtain ⟨found, rfl, members⟩ := ih listed.2
    exact ⟨c :: found, rfl, List.forall_mem_cons.mpr ⟨member, members⟩⟩

/-- Every run of the job is one of the command. -/
theorem run_clean {answers : List (Answer Nat Int)} {final : Nat → ProjectView}
    (same : db.ids = items) (ran : (cleaning items nodup).run answers db.view = some final) :
    ∃ rows t, rows.map ExpiredRows.ids = answers ∧ db.cleanExpiredProjects rows = some t ∧
      t.view = final := by
  induction answers generalizing db with
  | nil => contradiction
  | cons a rest ih =>
    rw [Job.run] at ran
    split at ran
    · rename_i given
      obtain ⟨⟨n, v⟩, passed, continued⟩ := Option.bind_eq_some_iff.mp ran
      obtain ⟨rows, chosen, members⟩ := exists_rows fun i inside => by
        have selected := given.2.1 i inside
        rw [openItems_view nodup same] at selected
        exact selected
      let answer : ExpiredRows := ⟨a.clock, rows⟩
      have told : answer.ids = a := by rw [ExpiredRows.ids, chosen]
      have returned : db.Returns 10 answer := by
        refine (answers_iff nodup same fun c inside => ?_).mp (told ▸ given)
        exact List.mem_of_mem_filter (members c inside)
      have viewed := (deleteExpiredProjects_view nodup same returned).2
      rw [told, passed, Option.map_some] at viewed
      obtain ⟨⟨m, u⟩, deleted, equal⟩ := Option.map_eq_some_iff.mp viewed
      obtain ⟨rfl, equal⟩ := Prod.mk.inj equal
      obtain ⟨rfl, ids⟩ := Prod.mk.inj equal
      dsimp only at continued
      split at continued
      · rename_i zero
        split at continued
        · rename_i last
          obtain rfl := Option.some.inj continued
          refine ⟨[answer], db, ?_, ?_, rfl⟩
          · rw [List.isEmpty_iff.mp last, List.map_singleton, told]
          · rw [cleanExpiredProjects, deleted, Option.bind_some, zero]
            rfl
        · contradiction
      · rename_i some
        obtain ⟨more, t, answered, cleaned, final⟩ := ih ids continued
        refine ⟨answer :: more, t, ?_, ?_, final⟩
        · rw [List.map_cons, told, answered]
        · rw [cleanExpiredProjects, deleted, Option.bind_some]
          dsimp only
          rw [if_neg some]
          exact cleaned
    · contradiction

end Job

/-- Nothing remains of the builds when none is running. -/
theorem remaining_eq_nil_iff : remaining 1000 Build.finished (db.getMultipleByCopr copr.id) = [] ↔
    db.running copr = false := by
  rw [remaining_eq_nil (by decide), running, List.any_eq_false, List.all_eq_true]
  simp

/-- What becomes of the attempt on a project. -/
theorem attempt_kinds (found : db.coprs.find copr.id = some copr) :
    (db.view copr.id).attempt.any Prod.fst = db.deletable copr ∧
      ((db.view copr.id).attempt.any fun a => !a.1) = db.postponed copr ∧
      ((db.view copr.id).attempt = none ↔ db.raises copr = true) := by
  rw [attempt_eq found]
  unfold deletable postponed raises
  cases copr.persistent with
  | true => simp
  | false =>
    cases busy : db.running copr with
    | true =>
      have occupied : ¬ remaining 1000 Build.finished (db.getMultipleByCopr copr.id) = [] := by
        rw [remaining_eq_nil_iff, busy]
        exact Bool.noConfusion
      rw [if_neg Bool.false_ne_true, if_neg occupied]
      simp
    | false =>
      rw [if_neg Bool.false_ne_true, if_pos (remaining_eq_nil_iff.mpr busy)]
      have same : (db.deleteActions copr.id).any (fun a => a.result.isNone) = db.waits copr := rfl
      rw [same]
      cases db.waits copr <;> simp

/-- A postponed project keeps its builds unless its newest thousand are finished. -/
theorem attempt_unchanged (found : db.coprs.find copr.id = some copr) :
    (∀ w, (db.view copr.id).attempt = some (false, w) → w = db.view copr.id) ↔
      (db.postponed copr = true → db.finishedChunk copr = false) := by
  rw [← (attempt_kinds found).2.1, Option.any_eq_true]
  have kept : ∀ w, (db.view copr.id).attempt = some (false, w) →
      (w = db.view copr.id ↔ db.finishedChunk copr = false) := by
    intro w tried
    obtain ⟨c, -, -, occupied, rfl⟩ := ProjectView.attempt_postponed tried
    have some : db.getMultipleByCopr copr.id ≠ [] := by
      intro empty
      apply occupied
      show remaining 1000 Build.finished (db.getMultipleByCopr copr.id) = []
      rw [empty, remaining_nil (by decide)]
    rw [finishedChunk, ← remaining_eq_self (by decide) some]
    exact ⟨fun same => congrArg ProjectView.builds same, fun same => by
      show { db.view copr.id with
        builds := remaining 1000 Build.finished (db.getMultipleByCopr copr.id) } = _
      rw [same]
      rfl⟩
  constructor
  · rintro unchanged ⟨⟨done, w⟩, tried, pending⟩
    obtain rfl : done = false := by simpa using pending
    exact (kept w tried).mp (unchanged w tried)
  · intro safe w tried
    exact (kept w tried).mpr (safe ⟨(false, w), tried, rfl⟩)

/-- A complete deletion is what an attempt makes of an expired project. -/
theorem deleted_iff (found : db.coprs.find copr.id = some copr) (expired : copr.expired now = true)
    (follows : db.job.Follows db.view t.view) :
    Deleted db t copr.id ↔ (db.view copr.id).attempt = some (true, t.view copr.id) := by
  have there : copr.deleted = false := by
    rw [TemporaryCopr.expired, Bool.and_eq_true] at expired
    simpa using expired.2
  constructor
  · intro gone
    obtain ⟨row, marked, deleted⟩ := gone.marked
    have kept : ∀ v : ProjectView, v.copr = some copr → t.view copr.id ≠ v := by
      intro v own same
      have same : some row = some copr := by
        rw [← marked, ← own, ← same]
        rfl
      rw [Option.some.inj same, there] at deleted
      contradiction
    rcases follows copr.id with same | ⟨done, tried⟩
    · exact absurd same (kept _ found)
    · cases done with
      | true => exact tried
      | false =>
        obtain ⟨c, own, -, -, same⟩ := ProjectView.attempt_postponed tried
        exact absurd same (kept _ found)
  · intro tried
    obtain ⟨row, marked, deleted⟩ := ProjectView.attempt_done tried
    rw [attempt_eq found] at tried
    split at tried
    · contradiction
    · split at tried
      · split at tried
        · contradiction
        · have final := (Prod.mk.inj (Option.some.inj tried)).2
          refine ⟨⟨row, marked, deleted⟩, ?_, ?_⟩
          · intro b listed own
            have inside : b.build ∈ t.getMultipleByCopr copr.id :=
              mem_getMultipleByCopr.mpr (own ▸ listed)
            have none : t.getMultipleByCopr copr.id = [] :=
              (congrArg ProjectView.builds final).symm
            rw [none] at inside
            contradiction
          · exact ⟨_, (congrArg ProjectView.actions final).symm⟩
      · exact absurd (Prod.mk.inj (Option.some.inj tried)).1 Bool.false_ne_true

/-- An expired project that was not deleted has its builds if nothing of it has changed. -/
theorem unchanged_iff (follows : db.job.Follows db.view t.view)
    (remains : (db.view copr.id).attempt ≠ some (true, t.view copr.id)) :
    (∀ b, b.coprId = copr.id → (b ∈ t.builds.rows ↔ b ∈ db.builds.rows)) ↔
      t.view copr.id = db.view copr.id := by
  constructor
  · intro same
    rcases follows copr.id with unchanged | ⟨done, tried⟩
    · exact unchanged
    · cases done with
      | true => exact absurd tried remains
      | false =>
        obtain ⟨c, -, -, -, left⟩ := ProjectView.attempt_postponed tried
        have builds : t.getMultipleByCopr copr.id =
            remaining 1000 Build.finished (db.getMultipleByCopr copr.id) :=
          congrArg ProjectView.builds left
        obtain ⟨⟨gone, whole, -⟩, -⟩ := remaining_spec (p := Build.finished)
          (l := db.getMultipleByCopr copr.id) (by decide : 0 < 1000)
        have none : gone = [] := by
          apply List.eq_nil_iff_forall_not_mem.mpr
          intro b inside
          have before : b ∈ db.getMultipleByCopr copr.id := by
            rw [whole]
            exact List.mem_append_left _ inside
          have after : b ∈ remaining 1000 Build.finished (db.getMultipleByCopr copr.id) := by
            rw [← builds]
            exact mem_getMultipleByCopr.mpr
              ((same ⟨b, copr.id⟩ rfl).mpr (mem_getMultipleByCopr.mp before))
          have distinct : ((db.getMultipleByCopr copr.id).map Build.id).Nodup :=
            getMultipleByCopr_nodup
          rw [whole, List.map_append, List.nodup_append] at distinct
          exact distinct.2.2 _ (List.mem_map_of_mem inside) _ (List.mem_map_of_mem after) rfl
        rw [none, List.nil_append] at whole
        rw [left]
        show { db.view copr.id with
          builds := remaining 1000 Build.finished (db.getMultipleByCopr copr.id) } = _
        rw [← whole]
        rfl
  · intro unchanged b own
    have builds : t.getMultipleByCopr copr.id = db.getMultipleByCopr copr.id :=
      congrArg ProjectView.builds unchanged
    obtain ⟨build, coprId⟩ := b
    obtain rfl : coprId = copr.id := own
    rw [← mem_getMultipleByCopr, ← mem_getMultipleByCopr, builds]

/-- The open items of the job on these tables. -/
theorem openItems_job : db.job.openItems now db.view = (db.expired now).map TemporaryCopr.id :=
  openItems_view db.ids_nodup rfl

/-- What is promised about the tables is what the job promises about its items. -/
theorem cleanedUp_iff (follows : db.job.Follows db.view t.view) :
    db.CleanedUp now t ↔ db.job.Settled now db.view t.view := by
  unfold CleanedUp Job.Settled
  rw [openItems_job, List.forall_mem_map]
  refine forall₂_congr fun copr expired => ?_
  have selected := List.mem_filter.mp expired
  have found := Table.find_of_mem selected.1
  have whole := deleted_iff found selected.2 follows
  have can := (attempt_kinds found).1
  have able : (db.job.completes (db.view copr.id) = true → Deleted db t copr.id) ↔
      (db.deletable copr = true → Deleted db t copr.id) := by
    rw [← can]
    rfl
  rw [← able, whole]
  refine and_congr ?_ Iff.rfl
  by_cases gone : (db.view copr.id).attempt = some (true, t.view copr.id)
  · exact iff_of_true (Or.inl gone) (Or.inr gone)
  · rw [unchanged_iff follows gone]
    exact or_comm

/-- The condition on the tables is the one on the job. -/
theorem settling_iff : db.job.Settling now db.view ↔ db.CleansUp now := by
  have kinds : ∀ copr ∈ db.expired now, db.coprs.find copr.id = some copr :=
    fun copr expired => Table.find_of_mem (List.mem_of_mem_filter expired)
  have able : ∀ copr ∈ db.expired now, db.job.completes (db.view copr.id) = db.deletable copr :=
    fun copr expired => (attempt_kinds (kinds copr expired)).1
  have held : ∀ copr ∈ db.expired now, db.job.postpones (db.view copr.id) = db.postponed copr :=
    fun copr expired => (attempt_kinds (kinds copr expired)).2.1
  have broken : ∀ copr ∈ db.expired now,
      (db.job.attempt (db.view copr.id) = none ↔ db.raises copr = true) :=
    fun copr expired => (attempt_kinds (kinds copr expired)).2.2
  have kept : ∀ copr ∈ db.expired now,
      ((∀ w, db.job.attempt (db.view copr.id) = some (false, w) → w = db.view copr.id) ↔
        (db.postponed copr = true → db.finishedChunk copr = false)) :=
    fun copr expired => attempt_unchanged (kinds copr expired)
  have some : (∃ i ∈ (db.expired now).map TemporaryCopr.id, db.job.attempt (db.view i) = none) ↔
      ∃ copr ∈ db.expired now, db.raises copr = true := by
    constructor
    · rintro ⟨i, listed, breaks⟩
      obtain ⟨copr, expired, rfl⟩ := List.mem_map.mp listed
      exact ⟨copr, expired, (broken copr expired).mp breaks⟩
    · rintro ⟨copr, expired, raises⟩
      exact ⟨copr.id, List.mem_map_of_mem expired, (broken copr expired).mpr raises⟩
  have count : (db.expired now).countP
      ((fun i => db.job.postpones (db.view i)) ∘ TemporaryCopr.id) =
        (db.expired now).countP db.postponed := by
    apply List.countP_congr
    intro copr expired
    rw [Function.comp_apply, held copr expired]
  unfold Job.Settling CleansUp
  rw [openItems_job, List.forall_mem_map, List.forall_mem_map, List.countP_map, some, count]
  refine or_congr (forall₂_congr fun copr expired => ?_) (and_congr Iff.rfl (or_congr Iff.rfl
    (forall₂_congr kept)))
  rw [able copr expired]

/-- Expired projects are deleted whole or left untouched by every run that ends without an
exception, and all that can be deleted are, exactly if the condition holds when it starts. -/
theorem expired_projects_are_cleaned_up (db : CoprTables) (now : Int) :
    (∀ answers t, (∀ answer ∈ answers, answer.now ≤ now) →
      (∃ answer ∈ answers.getLast?, answer.now = now) →
      db.cleanExpiredProjects answers = some t → db.CleanedUp now t) ↔ db.CleansUp now := by
  have several : 2 ≤ db.job.limit := by
    show 2 ≤ 10
    decide
  rw [← settling_iff, ← Job.settles_iff several]
  constructor
  · intro promised answers final early last ran
    obtain ⟨rows, t, rfl, cleaned, rfl⟩ := run_clean db.ids_nodup rfl ran
    have follows := (Job.run_ends (fun _ => Or.inl rfl) last ran).1
    rw [← cleanedUp_iff follows]
    refine promised rows t (fun answer inside => ?_) ?_ cleaned
    · exact early answer.ids (List.mem_map_of_mem inside)
    · obtain ⟨a, ending, clock⟩ := last
      rw [List.getLast?_map] at ending
      obtain ⟨answer, chosen, rfl⟩ := Option.map_eq_some_iff.mp ending
      exact ⟨answer, chosen, clock⟩
  · intro settles answers t early last cleaned
    have ran := clean_run db.ids_nodup rfl cleaned
    have clocks : ∀ a ∈ answers.map ExpiredRows.ids, a.clock ≤ now := by
      rw [List.forall_mem_map]
      exact early
    have ending : ∃ a ∈ (answers.map ExpiredRows.ids).getLast?, a.clock = now := by
      obtain ⟨answer, ending, clock⟩ := last
      refine ⟨answer.ids, ?_, clock⟩
      rw [List.getLast?_map]
      exact Option.map_eq_some_iff.mpr ⟨answer, ending, rfl⟩
    have follows := (Job.run_ends (fun _ => Or.inl rfl) ending ran).1
    rw [cleanedUp_iff follows]
    exact settles _ _ clocks ending ran

/-- A project of one day. -/
def oneDay (id : Nat) : TemporaryCopr where
  id := id
  ownerName := "alice"
  name := "test" ++ toString id
  storage := .backend
  deleteAfter := some 1
  persistent := false
  deleted := false

/-- Ten projects with a running build each, and one whose build has succeeded. -/
def crowded : CoprTables where
  coprs := ⟨(List.range 11).map oneDay, by decide⟩
  builds :=
    ⟨(List.range 11).map fun id =>
      ⟨{ id := id, sourceStatus := if id = 10 then .succeeded else .running, buildChroots := [] },
        id⟩, by decide⟩
  dirs := []
  pinned := []
  actions := []

/-- Ten postponed projects keep an eleventh one from being deleted. -/
theorem deletable_project_is_left :
    ¬ ∀ (db : CoprTables) now answers t, (∀ answer ∈ answers, answer.now ≤ now) →
      (∃ answer ∈ answers.getLast?, answer.now = now) →
      db.cleanExpiredProjects answers = some t → db.CleanedUp now t := by
  intro promised
  let answer : ExpiredRows := ⟨2, (List.range 10).map oneDay⟩
  have cleaned : crowded.cleanExpiredProjects [answer] = some crowded := by rfl
  have last : oneDay 10 ∈ crowded.expired 2 := by decide
  have settled := promised crowded 2 [answer] crowded (by decide) ⟨answer, rfl, rfl⟩ cleaned
  obtain ⟨copr, found, deleted⟩ := ((settled _ last).2 (by decide)).marked
  have same : crowded.coprs.find (oneDay 10).id = some (oneDay 10) := by rfl
  rw [same] at found
  obtain rfl := Option.some.inj found
  contradiction

end CoprTables

end Copr
