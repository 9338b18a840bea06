import Mathlib.Data.List.Sort
import Copr.Common.ActionData
import Copr.Lib.Tables

/-!
# Pending actions

`Action` of `coprs/models.py`, `get_waiting` of `coprs/logic/actions_logic.py` and the list that
`pending_actions` in `coprs/views/backend_ns/backend_general.py` makes of it for the backend. An
action is held back while a project of the same full name is listed for deletion before it.
-/

namespace Copr

open Tables

/-- `ActionTypeEnum`. -/
inductive ActionTypeEnum
  /-- Something is deleted. -/
  | delete
  /-- A project gets another name. -/
  | rename
  /-- Somebody has raised a legal flag; only admins deal with it. -/
  | legalFlag
  /-- Metadata are generated. -/
  | createrepo
  /-- A `comps.xml` is updated. -/
  | updateComps
  /-- A key is generated. -/
  | genGpgKey
  /-- Builds are copied to a new chroot. -/
  | rawhideToRelease
  /-- A project is copied. -/
  | fork
  /-- A module is described. -/
  | updateModuleMd
  /-- A module is built. -/
  | buildModule
  /-- A build is canceled. -/
  | cancelBuild
  /-- Directories of pull requests are removed. -/
  | removeDirs
  deriving DecidableEq, Repr

/-- `DefaultActionPriorityEnum`, with zero for the types that it leaves out. -/
def ActionTypeEnum.defaultPriority : ActionTypeEnum → Int
  | .genGpgKey => -70
  | .cancelBuild => -10
  | .delete => 60
  | .rawhideToRelease => 70
  | _ => 0

/-- The project of an action. -/
structure ActionCopr where
  /-- `owner_name`. -/
  ownerName : String
  /-- `name`. -/
  name : String
  deriving DecidableEq, Repr

/-- `full_name`, the namespace. -/
def ActionCopr.fullName (copr : ActionCopr) : String := copr.ownerName ++ "/" ++ copr.name

/-- `Action`, as far as it is scheduled. Projects are deleted by `send_delete_copr` only, so such an
action has a project. -/
structure Action where
  /-- `id`. -/
  id : Nat
  /-- `action_type`. -/
  actionType : ActionTypeEnum
  /-- `object_type`. -/
  objectType : String
  /-- `priority`. -/
  priority : Option Int
  /-- `created_on`. -/
  createdOn : Int
  /-- `copr`. -/
  copr : Option ActionCopr
  /-- `result`, none while it is `waiting`. -/
  result : Option BackendResultEnum
  /-- The project of an action that deletes one. -/
  deletes : objectType = "copr" → actionType = .delete → copr.isSome = true
  deriving DecidableEq

namespace Action

/-- The action deletes a project. -/
def isDeleteCopr (a : Action) : Bool :=
  decide (a.objectType = "copr") && decide (a.actionType = .delete)

/-- The namespace of the action, for one that has a project. -/
def fullName (a : Action) : Option String := a.copr.map ActionCopr.fullName

/-- The action is one that `get_waiting` returns. -/
def isWaiting (a : Action) : Bool := a.result.isNone && decide (a.actionType ≠ .legalFlag)

/-- `action.priority or action.default_priority`. -/
def usedPriority (a : Action) : Int :=
  match a.priority with
  | none => a.actionType.defaultPriority
  | some priority => if priority = 0 then a.actionType.defaultPriority else priority

end Action

/-- An entry in the answer of `/pending-actions/`. -/
structure PendingAction where
  /-- `id`. -/
  id : Nat
  /-- `priority`. -/
  priority : Int
  /-- `project_owner`. -/
  projectOwner : Option String
  deriving DecidableEq, Repr

/-- The entry for an action. -/
def Action.pending (a : Action) : PendingAction where
  id := a.id
  priority := a.usedPriority
  projectOwner := a.copr.map ActionCopr.ownerName

/-- The actions that `get_waiting` may return: by the time of their creation, in any order where
these are equal. -/
def IsWaitingList (actions : List Action) (waiting : List Action) : Prop :=
  waiting.Perm (actions.filter Action.isWaiting) ∧
    waiting.Pairwise fun a b => a.createdOn ≤ b.createdOn

instance (actions waiting : List Action) : Decidable (IsWaitingList actions waiting) :=
  inferInstanceAs (Decidable (_ ∧ _))

/-- The loop of `pending_actions` over the waiting actions. -/
def listPending (busyNamespaces : List String) : List Action → List Action
  | [] => []
  | a :: rest =>
    if a.isDeleteCopr then
      a :: listPending (busyNamespaces ++ a.fullName.toList) rest
    else if a.fullName.any fun fullName => decide (fullName ∈ busyNamespaces) then
      listPending busyNamespaces rest
    else a :: listPending busyNamespaces rest

/-- `pending_actions`. -/
def pendingActions (waiting : List Action) : List PendingAction :=
  (listPending [] waiting).map Action.pending

/-! ## What is held back -/

variable {a b : Action} {busy : List String} {waiting : List Action}

/-- Only waiting actions are listed. -/
theorem mem_listPending (listed : a ∈ listPending busy waiting) : a ∈ waiting := by
  induction waiting generalizing busy with
  | nil => contradiction
  | cons first rest ih =>
    unfold listPending at listed
    split at listed
    · rcases List.mem_cons.mp listed with rfl | later
      · exact List.mem_cons_self
      · exact List.mem_cons_of_mem _ (ih later)
    · split at listed
      · exact List.mem_cons_of_mem _ (ih listed)
      · rcases List.mem_cons.mp listed with rfl | later
        · exact List.mem_cons_self
        · exact List.mem_cons_of_mem _ (ih later)

/-- In a busy namespace only deletions are listed. -/
theorem isDeleteCopr_of_busy {fullName : String} (listed : a ∈ listPending busy waiting)
    (inside : a.fullName = some fullName) (taken : fullName ∈ busy) : a.isDeleteCopr = true := by
  induction waiting generalizing busy with
  | nil => contradiction
  | cons first rest ih =>
    unfold listPending at listed
    split at listed
    · rename_i deletes
      rcases List.mem_cons.mp listed with rfl | later
      · exact deletes
      · exact ih later (List.mem_append_left _ taken)
    · split at listed
      · exact ih listed taken
      · rename_i free
        rcases List.mem_cons.mp listed with rfl | later
        · simp [inside, taken] at free
        · exact ih later taken

/-- Behind the deletion of a project, by the time of creation, no action of its namespace is listed
but another such deletion. -/
theorem not_mem_listPending {fullName : String}
    (sorted : waiting.Pairwise fun a b => a.createdOn ≤ b.createdOn) (there : b ∈ waiting)
    (deletes : b.isDeleteCopr = true) (ofDeleted : b.fullName = some fullName)
    (inside : a.fullName = some fullName) (later : b.createdOn < a.createdOn)
    (other : a.isDeleteCopr = false) : a ∉ listPending busy waiting := by
  intro listed
  have member : a ∈ waiting := mem_listPending listed
  induction waiting generalizing busy with
  | nil => contradiction
  | cons first rest ih =>
    obtain ⟨before, sorted'⟩ := List.pairwise_cons.mp sorted
    -- The action cannot be the first one, since the deletion is not behind it.
    have different : a ≠ first := by
      rintro rfl
      rcases List.mem_cons.mp there with rfl | behind
      · omega
      · have order := before b behind
        omega
    have inRest : a ∈ rest := (List.mem_cons.mp member).resolve_left different
    unfold listPending at listed
    rcases List.mem_cons.mp there with rfl | behind
    · rw [if_pos deletes] at listed
      have tail := (List.mem_cons.mp listed).resolve_left different
      have taken : fullName ∈ busy ++ b.fullName.toList := by simp [ofDeleted]
      have deleted := isDeleteCopr_of_busy tail inside taken
      rw [other] at deleted
      contradiction
    · split at listed
      · exact ih sorted' behind ((List.mem_cons.mp listed).resolve_left different) inRest
      · split at listed
        · exact ih sorted' behind listed inRest
        · exact ih sorted' behind ((List.mem_cons.mp listed).resolve_left different) inRest

end Copr
