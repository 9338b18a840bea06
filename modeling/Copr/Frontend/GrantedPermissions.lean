import Copr.Lib.Runs
import Copr.Frontend.Permissions

/-!
# Where approved permissions come from

`CoprPermissionsLogic` of `coprs/logic/coprs_logic.py`, with the values that the forms and the API
give it. Users ask for permissions in two ways and editors of a project set them in two ways, and
an editor may be one by such a permission. The row of a user that a `User` object remembers is the
one of the session, which every call changes in place, so a check sees what was set before it.
Between the calls users may get and lose other rights.
-/

namespace Copr

open Runs

/-- The permissions of a `CoprPermission`. -/
inductive PermissionField
  /-- `copr_builder`. -/
  | builder
  /-- `copr_admin`. -/
  | admin
  deriving DecidableEq, Repr

/-- The permission of a name; any other one is a `BadRequest`. -/
def PermissionField.ofName : String → Option PermissionField
  | "admin" => some .admin
  | "builder" => some .builder
  | _ => none

namespace PermissionEnum

/-- The state of a name; any other one is a `BadRequest`. -/
def ofName : String → Option PermissionEnum
  | "nothing" => some .nothing
  | "request" => some .request
  | "approved" => some .approved
  | _ => none

/-- `ValueToPermissionNumberFilter`. -/
def ofValue (value : Bool) : PermissionEnum := if value then .request else .nothing

end PermissionEnum

namespace CoprPermission

/-- `get_permission`. -/
def getPermission (p : CoprPermission) : PermissionField → PermissionEnum
  | .builder => p.coprBuilder
  | .admin => p.coprAdmin

/-- `set_permission`. -/
def setPermission (p : CoprPermission) (name : PermissionField) (value : PermissionEnum) :
    CoprPermission :=
  match name with
  | .builder => { p with coprBuilder := value }
  | .admin => { p with coprAdmin := value }

end CoprPermission

namespace CoprPermissionsLogic

variable (permissions : List CoprPermission)

/-- The row with this key. -/
def get (userId coprId : Nat) : Option CoprPermission :=
  permissions.find? fun p => decide (p.userId = userId ∧ p.coprId = coprId)

/-- The rows with this key are changed. -/
def change (userId coprId : Nat) (f : CoprPermission → CoprPermission) : List CoprPermission :=
  permissions.map fun p => if p.userId = userId ∧ p.coprId = coprId then f p else p

/-- `merge` of a row that has nothing but its key: it is added unless it is there. -/
def merge (userId coprId : Nat) : List CoprPermission :=
  match get permissions userId coprId with
  | some _ => permissions
  | none => permissions ++ [⟨userId, coprId, .nothing, .nothing⟩]

/-- `raise_if_cant_update_copr` does not raise. -/
def mayUpdate (user : User) (copr : Project) : Bool :=
  Check.fresh permissions user (.edit copr false)

/-- `validate_permission` does not raise. -/
def validatePermission (user : User) (copr : Project) (permission state : String) : Bool :=
  (PermissionField.ofName permission).isSome && (PermissionEnum.ofName state).isSome &&
    decide (user.id ≠ copr.userId)

/-- The values of `update_permissions` in a row. -/
def withBoth (newBuilder newAdmin : PermissionEnum) (p : CoprPermission) : CoprPermission :=
  { p with coprBuilder := newBuilder, coprAdmin := newAdmin }

/-- The values of `update_permissions_by_applier` in a row: approved permissions are preserved,
unless they are given up. -/
def withApplied (newBuilder newAdmin : PermissionEnum) (p : CoprPermission) : CoprPermission :=
  { p with
    coprBuilder :=
      if newBuilder = .nothing ∨ p.coprBuilder ≠ .approved then newBuilder else p.coprBuilder
    coprAdmin :=
      if newAdmin = .nothing ∨ p.coprAdmin ≠ .approved then newAdmin else p.coprAdmin }

/-- `update_permissions`; `none` is an `InsufficientRightsException`. -/
def updatePermissions (user : User) (copr : Project) (coprPermission : CoprPermission)
    (newBuilder newAdmin : PermissionEnum) : Option (List CoprPermission) :=
  if mayUpdate permissions user copr then
    some (change permissions coprPermission.userId copr.id (withBoth newBuilder newAdmin))
  else none

/-- `update_permissions_by_applier`, with the row that the view gets for the user. -/
def updatePermissionsByApplier (user : User) (copr : Project)
    (coprPermission : Option CoprPermission) (newBuilder newAdmin : PermissionEnum) :
    List CoprPermission :=
  match coprPermission with
  | some row => change permissions row.userId row.coprId (withApplied newBuilder newAdmin)
  | none => permissions ++ [⟨user.id, copr.id, newBuilder, newAdmin⟩]

/-- What was there and what was set, if they differ. -/
def changed (oldState newState : PermissionEnum) : Option (PermissionEnum × PermissionEnum) :=
  if oldState ≠ newState then some (oldState, newState) else none

/-- The permission in the row with this key, and the rows with it set. -/
def setMerged (userId coprId : Nat) (name : PermissionField) (newState : PermissionEnum) :
    Option (PermissionEnum × PermissionEnum) × List CoprPermission :=
  let merged := merge permissions userId coprId
  let oldState := ((get merged userId coprId).map fun p => p.getPermission name).getD .nothing
  (changed oldState newState,
    change merged userId coprId fun p => p.setPermission name newState)

/-- `set_permissions`; `none` is an exception. -/
def setPermissions (requestUser : User) (copr : Project) (user : User)
    (permission state : String) :
    Option (Option (PermissionEnum × PermissionEnum) × List CoprPermission) :=
  if mayUpdate permissions requestUser copr && validatePermission user copr permission state then
    (PermissionField.ofName permission).bind fun name =>
      (PermissionEnum.ofName state).map fun newState =>
        setMerged permissions user.id copr.id name newState
  else none

/-- The state that `request_permission` asks for. -/
def requested (req : Bool) : String := if req then "request" else "nothing"

/-- `request_permission`; `none` is a `BadRequest`. A request that is neither `True` nor `False` has
no value here. -/
def requestPermission (copr : Project) (user : User) (permission : String)
    (reqBool : Option Bool) :
    Option (Option (PermissionEnum × PermissionEnum) × List CoprPermission) :=
  reqBool.bind fun req =>
    if validatePermission user copr permission (requested req) then
      (PermissionField.ofName permission).bind fun name =>
        let merged := merge permissions user.id copr.id
        let oldState : PermissionEnum :=
          ((get merged user.id copr.id).map fun p => p.getPermission name).getD .nothing
        if oldState = .approved ∧ requested req = "request" then none
        else
          (PermissionEnum.ofName (requested req)).map fun newState =>
            setMerged permissions user.id copr.id name newState
    else none

end CoprPermissionsLogic

/-- The tables of users, projects and permissions. -/
structure PermissionTables where
  /-- All users. -/
  users : List User
  /-- All projects. -/
  coprs : List Project
  /-- All permissions. -/
  permissions : List CoprPermission
  deriving DecidableEq, Repr

/-- A call about permissions, or a change of rights by other means. -/
inductive PermissionEvent
  /-- `request_permission` by a user. -/
  | requestPermission (userId coprId : Nat) (permission : String) (reqBool : Option Bool)
  /-- `update_permissions_by_applier` by a user, with the values of the form. -/
  | updatePermissionsByApplier (userId coprId : Nat) (builder admin : Bool)
  /-- `set_permissions` by the first user for the other one. -/
  | setPermissions (requestUserId coprId userId : Nat) (permission state : String)
  /-- `update_permissions` by a user for the user of an existing row. -/
  | updatePermissions (userId coprId targetId : Nat) (newBuilder newAdmin : PermissionEnum)
  /-- Users and projects come, users join and leave teams or become site administrators. -/
  | directory (users : List User) (coprs : List Project)
  deriving DecidableEq, Repr

namespace PermissionEvent

/-- The user who makes the call. -/
def actor : PermissionEvent → Option Nat
  | .requestPermission userId _ _ _ => some userId
  | .updatePermissionsByApplier userId _ _ _ => some userId
  | .setPermissions requestUserId _ _ _ _ => some requestUserId
  | .updatePermissions userId _ _ _ _ => some userId
  | .directory _ _ => none

/-- The project that the call is about. -/
def coprId : PermissionEvent → Option Nat
  | .requestPermission _ coprId _ _ => some coprId
  | .updatePermissionsByApplier _ coprId _ _ => some coprId
  | .setPermissions _ coprId _ _ _ => some coprId
  | .updatePermissions _ coprId _ _ _ => some coprId
  | .directory _ _ => none

/-- The user and the project of the row that the call is about. -/
def target : PermissionEvent → Option (Nat × Nat)
  | .requestPermission userId coprId _ _ => some (userId, coprId)
  | .updatePermissionsByApplier userId coprId _ _ => some (userId, coprId)
  | .setPermissions _ coprId userId _ _ => some (userId, coprId)
  | .updatePermissions _ coprId targetId _ _ => some (targetId, coprId)
  | .directory _ _ => none

/-- The value that a pair of new values has for a permission. -/
def valueFor (builder admin : PermissionEnum) : PermissionField → PermissionEnum
  | .builder => builder
  | .admin => admin

/-- The value that the call sets a permission of a user in a project to. -/
def sets (e : PermissionEvent) (user copr : Nat) (name : PermissionField) :
    Option PermissionEnum :=
  match e with
  | .requestPermission userId coprId permission reqBool =>
    if userId = user ∧ coprId = copr ∧ PermissionField.ofName permission = some name then
      reqBool.map PermissionEnum.ofValue
    else none
  | .updatePermissionsByApplier userId coprId builder admin =>
    if userId = user ∧ coprId = copr then
      some (valueFor (.ofValue builder) (.ofValue admin) name)
    else none
  | .setPermissions _ coprId userId permission state =>
    if userId = user ∧ coprId = copr ∧ PermissionField.ofName permission = some name then
      PermissionEnum.ofName state
    else none
  | .updatePermissions _ coprId targetId newBuilder newAdmin =>
    if targetId = user ∧ coprId = copr then some (valueFor newBuilder newAdmin name) else none
  | .directory _ _ => none

end PermissionEvent

namespace PermissionTables

open CoprPermissionsLogic

/-- The user with this id. -/
def user (s : PermissionTables) (userId : Nat) : Option User :=
  s.users.find? fun user => decide (user.id = userId)

/-- The project with this id. -/
def copr (s : PermissionTables) (coprId : Nat) : Option Project :=
  s.coprs.find? fun copr => decide (copr.id = coprId)

/-- The row of a user in a project. -/
def permission (s : PermissionTables) (userId coprId : Nat) : Option CoprPermission :=
  get s.permissions userId coprId

/-- What a user holds in a project. -/
def holds (s : PermissionTables) (userId coprId : Nat) (name : PermissionField) :
    PermissionEnum :=
  ((s.permission userId coprId).map fun p => p.getPermission name).getD .nothing

/-- One event; `none` is an error response. -/
def step (s : PermissionTables) : PermissionEvent → Option PermissionTables
  | .requestPermission userId coprId permission reqBool =>
    (s.user userId).bind fun user => (s.copr coprId).bind fun copr =>
      (requestPermission s.permissions copr user permission reqBool).map fun answer =>
        { s with permissions := answer.2 }
  | .updatePermissionsByApplier userId coprId builder admin =>
    (s.user userId).bind fun user => (s.copr coprId).map fun copr =>
      { s with
        permissions := updatePermissionsByApplier s.permissions user copr
          (s.permission user.id copr.id) (.ofValue builder) (.ofValue admin) }
  | .setPermissions requestUserId coprId userId permission state =>
    (s.user requestUserId).bind fun requestUser => (s.copr coprId).bind fun copr =>
      (s.user userId).bind fun user =>
        (setPermissions s.permissions requestUser copr user permission state).map fun answer =>
          { s with permissions := answer.2 }
  | .updatePermissions userId coprId targetId newBuilder newAdmin =>
    (s.user userId).bind fun user => (s.copr coprId).bind fun copr =>
      (s.permission targetId copr.id).bind fun row =>
        (updatePermissions s.permissions user copr row newBuilder newAdmin).map fun permissions =>
          { s with permissions := permissions }
  | .directory users coprs => some { s with users := users, coprs := coprs }

/-- The user may edit the project: as its owner, as a site administrator, as a member of its group
or with an approved `admin` permission. -/
def MayEdit (s : PermissionTables) (userId coprId : Nat) : Prop :=
  ∃ user copr, s.user userId = some user ∧ s.copr coprId = some copr ∧
    ((copr.group = none ∧ copr.userId = user.id) ∨ user.admin = true ∨
      (∃ group, copr.group = some group ∧ group ∈ user.userTeams) ∨
      s.holds userId coprId .admin = .approved)

end PermissionTables

/-! ## What a call does to the rows -/

namespace CoprPermissionsLogic

variable {permissions : List CoprPermission} {userId coprId u c : Nat}

/-- What is in a row after rows were changed. -/
theorem get_change {f : CoprPermission → CoprPermission}
    (keeps : ∀ p, (f p).userId = p.userId ∧ (f p).coprId = p.coprId) :
    get (change permissions userId coprId f) u c =
      if u = userId ∧ c = coprId then (get permissions u c).map f else get permissions u c := by
  have same : ((fun p : CoprPermission => decide (p.userId = u ∧ p.coprId = c)) ∘ fun p =>
      if p.userId = userId ∧ p.coprId = coprId then f p else p) =
      fun p => decide (p.userId = u ∧ p.coprId = c) := by
    funext p
    rw [Function.comp_apply]
    split
    · rw [(keeps p).1, (keeps p).2]
    · rfl
  unfold get change
  rw [List.find?_map, same]
  cases found : permissions.find? fun p => decide (p.userId = u ∧ p.coprId = c) with
  | none => simp
  | some p =>
    have key : p.userId = u ∧ p.coprId = c := by simpa using List.find?_some found
    rw [← key.1, ← key.2]
    split <;> simp_all

/-- A row is there after it was merged. -/
theorem get_merge : get (merge permissions userId coprId) u c =
    (get permissions u c).or
      (if userId = u ∧ coprId = c then some ⟨userId, coprId, .nothing, .nothing⟩ else none) := by
  unfold merge
  cases found : get permissions userId coprId with
  | some p =>
    dsimp only
    by_cases same : userId = u ∧ coprId = c
    · rw [← same.1, ← same.2, found]
      rfl
    · rw [if_neg same, Option.or_none]
  | none =>
    unfold get
    rw [List.find?_append, List.find?_singleton]
    simp

/-- What a row holds after a permission was set in it. -/
theorem get_setMerged (name : PermissionField) (value : PermissionEnum) :
    get (setMerged permissions userId coprId name value).2 u c =
      if u = userId ∧ c = coprId then
        some (((get permissions u c).getD ⟨userId, coprId, .nothing, .nothing⟩).setPermission
          name value)
      else get permissions u c := by
  unfold setMerged
  dsimp only
  rw [get_change fun p => by cases name <;> exact ⟨rfl, rfl⟩, get_merge]
  by_cases same : u = userId ∧ c = coprId
  · obtain ⟨rfl, rfl⟩ := same
    cases get permissions u c <;> simp
  · have other : ¬ (userId = u ∧ coprId = c) := fun both => same ⟨both.1.symm, both.2.symm⟩
    simp [same, other]

/-- A permission that was set. -/
theorem setPermission_get (p : CoprPermission) (name other : PermissionField)
    (value : PermissionEnum) :
    (p.setPermission name value).getPermission other =
      if name = other then value else p.getPermission other := by
  cases name <;> cases other <;> rfl

/-- What an answered request sets. -/
theorem requestPermission_sets {copr : Project} {user : User} {permission : String}
    {reqBool : Option Bool}
    {answer : Option (PermissionEnum × PermissionEnum) × List CoprPermission}
    (answered : requestPermission permissions copr user permission reqBool = some answer) :
    ∃ req name, reqBool = some req ∧ PermissionField.ofName permission = some name ∧
      answer.2 = (setMerged permissions user.id copr.id name (.ofValue req)).2 := by
  obtain ⟨req, asked, rest⟩ := Option.bind_eq_some_iff.mp answered
  dsimp only at rest
  split at rest
  · obtain ⟨name, named, rest⟩ := Option.bind_eq_some_iff.mp rest
    split at rest
    · contradiction
    · obtain ⟨value, state, rfl⟩ := Option.map_eq_some_iff.mp rest
      refine ⟨req, name, asked, named, ?_⟩
      have same : value = .ofValue req := by
        cases req <;> exact (Option.some.inj state).symm
      rw [same]
  · contradiction

/-- What `set_permissions` sets, and who may do so. -/
theorem setPermissions_sets {requestUser user : User} {copr : Project} {permission state : String}
    {answer : Option (PermissionEnum × PermissionEnum) × List CoprPermission}
    (answered : setPermissions permissions requestUser copr user permission state = some answer) :
    mayUpdate permissions requestUser copr = true ∧
      ∃ name value, PermissionField.ofName permission = some name ∧
        PermissionEnum.ofName state = some value ∧
        answer.2 = (setMerged permissions user.id copr.id name value).2 := by
  unfold setPermissions at answered
  split at answered
  · rename_i allowed
    obtain ⟨name, named, rest⟩ := Option.bind_eq_some_iff.mp answered
    obtain ⟨value, stated, rfl⟩ := Option.map_eq_some_iff.mp rest
    exact ⟨(Bool.and_eq_true_iff.mp allowed).1, name, value, named, stated, rfl⟩
  · contradiction

/-- A user may update a project exactly as its owner, as a site administrator, as a member of its
group or with an approved `admin` permission. -/
theorem mayUpdate_iff {user : User} {copr : Project} :
    mayUpdate permissions user copr = true ↔
      (copr.group = none ∧ copr.userId = user.id) ∨ user.admin = true ∨
        (∃ group, copr.group = some group ∧ group ∈ user.userTeams) ∨
        ((get permissions user.id copr.id).map fun p => p.getPermission .admin).getD .nothing =
          .approved := by
  have query : queryPermission permissions user copr = get permissions user.id copr.id := rfl
  unfold mayUpdate
  rw [fresh_eq, Check.copr, query]
  unfold Check.consults Check.answerBy
  cases group : copr.group with
  | none =>
    by_cases own : copr.userId = user.id
    · simp [own, group]
    · cases user.admin with
      | true => simp
      | false =>
        cases get permissions user.id copr.id <;>
          simp [own, group, CoprPermission.getPermission]
  | some team =>
    cases user.admin with
    | true => simp
    | false =>
      cases get permissions user.id copr.id <;>
        simp [group, CoprPermission.getPermission, or_comm]

end CoprPermissionsLogic

namespace PermissionTables

open CoprPermissionsLogic

variable {s t : PermissionTables} {e : PermissionEvent}

/-- A user is found under the own id. -/
theorem user_id {userId : Nat} {user : User} (found : s.user userId = some user) :
    user.id = userId := by
  simpa using List.find?_some found

/-- A project is found under its id. -/
theorem copr_id {coprId : Nat} {copr : Project} (found : s.copr coprId = some copr) :
    copr.id = coprId := by
  simpa using List.find?_some found

/-- Setting one permission changes no other row, and in the row at most this permission. -/
theorem setMerged_row {userId coprId : Nat} {name : PermissionField} {value : PermissionEnum}
    (permissions : t.permissions = (setMerged s.permissions userId coprId name value).2) :
    (∀ u c, ¬ (u = userId ∧ c = coprId) → t.permission u c = s.permission u c) ∧
      ∀ other, t.holds userId coprId other = if name = other then value else
        s.holds userId coprId other := by
  constructor
  · intro u c apart
    unfold permission
    rw [permissions, get_setMerged, if_neg apart]
  · intro other
    unfold holds permission
    rw [permissions, get_setMerged, if_pos ⟨rfl, rfl⟩, Option.map_some, Option.getD_some,
      setPermission_get]
    cases CoprPermissionsLogic.get s.permissions userId coprId with
    | some p => rfl
    | none => cases other <;> rfl

/-- Changing a row changes no other one. -/
theorem change_row {userId coprId : Nat} {f : CoprPermission → CoprPermission}
    {row : CoprPermission} (keeps : ∀ p, (f p).userId = p.userId ∧ (f p).coprId = p.coprId)
    (permissions : t.permissions = change s.permissions userId coprId f)
    (found : s.permission userId coprId = some row) :
    (∀ u c, ¬ (u = userId ∧ c = coprId) → t.permission u c = s.permission u c) ∧
      ∀ name, t.holds userId coprId name = (f row).getPermission name := by
  constructor
  · intro u c apart
    unfold permission
    rw [permissions, get_change keeps, if_neg apart]
  · intro name
    have own : t.permission userId coprId = some (f row) := by
      unfold permission at found ⊢
      rw [permissions, get_change keeps, if_pos ⟨rfl, rfl⟩, found]
      rfl
    unfold holds
    rw [own]
    rfl

/-- Adding a row that is not there changes no other one. -/
theorem add_row {row : CoprPermission}
    (permissions : t.permissions = s.permissions ++ [row])
    (missing : s.permission row.userId row.coprId = none) :
    (∀ u c, ¬ (u = row.userId ∧ c = row.coprId) → t.permission u c = s.permission u c) ∧
      ∀ name, t.holds row.userId row.coprId name = row.getPermission name := by
  have added : ∀ u c, t.permission u c = (s.permission u c).or
      (if row.userId = u ∧ row.coprId = c then some row else none) := by
    intro u c
    unfold permission CoprPermissionsLogic.get
    rw [permissions, List.find?_append, List.find?_singleton]
    simp
  constructor
  · intro u c apart
    rw [added, if_neg fun both => apart ⟨both.1.symm, both.2.symm⟩, Option.or_none]
  · intro name
    unfold holds
    rw [added, missing, if_pos ⟨rfl, rfl⟩]
    rfl

/-- A call changes no row but the one that it is about, and in this row a permission stays or is
what the call sets. -/
structure OwnRowOnly (s t : PermissionTables) (e : PermissionEvent) (userId coprId : Nat) :
    Prop where
  /-- The row that the call is about. -/
  target : e.target = some (userId, coprId)
  /-- Other rows. -/
  others : ∀ u c, ¬ (u = userId ∧ c = coprId) → t.permission u c = s.permission u c
  /-- The permissions in the row. -/
  own : ∀ name, t.holds userId coprId name = s.holds userId coprId name ∨
    e.sets userId coprId name = some (t.holds userId coprId name)

/-- Setting one permission is a change of its row only. -/
theorem ownRowOnly_setMerged {userId coprId : Nat} {name : PermissionField}
    {value : PermissionEnum}
    (permissions : t.permissions = (setMerged s.permissions userId coprId name value).2)
    (target : e.target = some (userId, coprId))
    (sets : e.sets userId coprId name = some value) : OwnRowOnly s t e userId coprId := by
  obtain ⟨others, own⟩ := setMerged_row permissions
  refine ⟨target, others, fun other => ?_⟩
  rw [own other]
  split
  · rename_i same
    exact Or.inr (same ▸ sets)
  · exact Or.inl rfl

/-- Every call changes one row only. -/
theorem step_ownRowOnly (stepped : s.step e = some t) :
    (e.target = none ∧ t.permissions = s.permissions) ∨
      ∃ userId coprId, OwnRowOnly s t e userId coprId := by
  cases e with
  | requestPermission userId coprId permission reqBool =>
    obtain ⟨user, foundUser, rest⟩ := Option.bind_eq_some_iff.mp stepped
    obtain ⟨copr, foundCopr, rest⟩ := Option.bind_eq_some_iff.mp rest
    obtain ⟨answer, answered, rfl⟩ := Option.map_eq_some_iff.mp rest
    obtain ⟨req, name, asked, named, set⟩ := requestPermission_sets answered
    rw [user_id foundUser, copr_id foundCopr] at set
    refine Or.inr ⟨userId, coprId, ownRowOnly_setMerged set rfl ?_⟩
    rw [PermissionEvent.sets, if_pos ⟨rfl, rfl, named⟩, asked]
    rfl
  | updatePermissionsByApplier userId coprId builder admin =>
    obtain ⟨user, foundUser, rest⟩ := Option.bind_eq_some_iff.mp stepped
    obtain ⟨copr, foundCopr, rfl⟩ := Option.map_eq_some_iff.mp rest
    obtain rfl := user_id foundUser
    obtain rfl := copr_id foundCopr
    refine Or.inr ⟨user.id, copr.id, ?_⟩
    cases found : s.permission user.id copr.id with
    | some row =>
      have key : row.userId = user.id ∧ row.coprId = copr.id := by
        simpa using List.find?_some found
      have changed : updatePermissionsByApplier s.permissions user copr (some row)
          (.ofValue builder) (.ofValue admin) = change s.permissions user.id copr.id
            (withApplied (.ofValue builder) (.ofValue admin)) := by
        rw [← key.1, ← key.2]
        rfl
      obtain ⟨others, own⟩ := change_row (s := s) (t := { s with
        permissions := updatePermissionsByApplier s.permissions user copr (some row)
          (.ofValue builder) (.ofValue admin) })
        (f := withApplied (.ofValue builder) (.ofValue admin)) (fun p => ⟨rfl, rfl⟩) changed found
      refine ⟨rfl, others, fun name => ?_⟩
      rw [own name, PermissionEvent.sets, if_pos ⟨rfl, rfl⟩, holds, found]
      cases name with
      | builder =>
        show (if _ then _ else _) = row.coprBuilder ∨ some _ = some (if _ then _ else _)
        split
        · exact Or.inr rfl
        · exact Or.inl rfl
      | admin =>
        show (if _ then _ else _) = row.coprAdmin ∨ some _ = some (if _ then _ else _)
        split
        · exact Or.inr rfl
        · exact Or.inl rfl
    | none =>
      obtain ⟨others, own⟩ := add_row (s := s) (t := { s with
        permissions := updatePermissionsByApplier s.permissions user copr none
          (.ofValue builder) (.ofValue admin) }) rfl found
      refine ⟨rfl, others, fun name => Or.inr ?_⟩
      rw [own name, PermissionEvent.sets, if_pos ⟨rfl, rfl⟩]
      cases name <;> rfl
  | setPermissions requestUserId coprId userId permission state =>
    obtain ⟨requestUser, -, rest⟩ := Option.bind_eq_some_iff.mp stepped
    obtain ⟨copr, foundCopr, rest⟩ := Option.bind_eq_some_iff.mp rest
    obtain ⟨user, foundUser, rest⟩ := Option.bind_eq_some_iff.mp rest
    obtain ⟨answer, answered, rfl⟩ := Option.map_eq_some_iff.mp rest
    obtain ⟨-, name, value, named, stated, set⟩ := setPermissions_sets answered
    rw [user_id foundUser, copr_id foundCopr] at set
    refine Or.inr ⟨userId, coprId, ownRowOnly_setMerged set rfl ?_⟩
    rw [PermissionEvent.sets, if_pos ⟨rfl, rfl, named⟩, stated]
  | updatePermissions userId coprId targetId newBuilder newAdmin =>
    obtain ⟨user, -, rest⟩ := Option.bind_eq_some_iff.mp stepped
    obtain ⟨copr, foundCopr, rest⟩ := Option.bind_eq_some_iff.mp rest
    obtain ⟨row, found, rest⟩ := Option.bind_eq_some_iff.mp rest
    obtain ⟨permissions, updated, rfl⟩ := Option.map_eq_some_iff.mp rest
    obtain rfl := copr_id foundCopr
    have key : row.userId = targetId ∧ row.coprId = copr.id := by
      simpa using List.find?_some found
    unfold updatePermissions at updated
    split at updated
    · obtain rfl := Option.some.inj updated
      have changed : change s.permissions row.userId copr.id (withBoth newBuilder newAdmin) =
          change s.permissions targetId copr.id (withBoth newBuilder newAdmin) := by
        rw [key.1]
      obtain ⟨others, own⟩ := change_row (s := s) (t := { s with
        permissions := change s.permissions row.userId copr.id (withBoth newBuilder newAdmin) })
        (f := withBoth newBuilder newAdmin) (fun p => ⟨rfl, rfl⟩) changed found
      refine Or.inr ⟨targetId, copr.id, rfl, others, fun name => Or.inr ?_⟩
      rw [own name, PermissionEvent.sets, if_pos ⟨rfl, rfl⟩]
      cases name <;> rfl
    · contradiction
  | directory users coprs =>
    obtain rfl := Option.some.inj stepped
    exact Or.inl ⟨rfl, rfl⟩

/-! ## Who sets what -/

/-- A permission is approved after a call only if it was before or the call sets it so. -/
theorem approved_step (stepped : s.step e = some t) {u c : Nat} {name : PermissionField}
    (held : t.holds u c name = .approved) :
    s.holds u c name = .approved ∨ e.sets u c name = some .approved := by
  have unchanged : t.permission u c = s.permission u c → s.holds u c name = .approved := by
    intro same
    unfold holds at held ⊢
    rwa [← same]
  rcases step_ownRowOnly stepped with ⟨-, permissions⟩ | ⟨userId, coprId, only⟩
  · refine Or.inl (unchanged ?_)
    unfold permission
    rw [permissions]
  · by_cases own : u = userId ∧ c = coprId
    · obtain ⟨rfl, rfl⟩ := own
      rw [← held]
      exact (only.own name).imp (fun same => same.symm) id
    · exact Or.inl (unchanged (only.others u c own))

/-- Who passes `raise_if_cant_update_copr` may edit the project. -/
theorem mayEdit_of_mayUpdate {userId coprId : Nat} {user : User} {copr : Project}
    (foundUser : s.user userId = some user) (foundCopr : s.copr coprId = some copr)
    (allowed : mayUpdate s.permissions user copr = true) : s.MayEdit userId coprId := by
  refine ⟨user, copr, foundUser, foundCopr, ?_⟩
  have rights := mayUpdate_iff.mp allowed
  rw [user_id foundUser, copr_id foundCopr] at rights
  rw [user_id foundUser]
  exact rights

/-- Calls about the rows of others, and calls that set anything to approved, are made by users who
may edit the project. -/
theorem step_by_editor (stepped : s.step e = some t)
    (beyond : (∃ u c, e.target = some (u, c) ∧ e.actor ≠ some u) ∨
      ∃ u c name, e.sets u c name = some .approved) :
    ∃ editor copr, e.actor = some editor ∧ e.coprId = some copr ∧ s.MayEdit editor copr := by
  have asked : ∀ value : Bool, PermissionEnum.ofValue value ≠ .approved := by decide
  cases e with
  | requestPermission userId coprId permission reqBool =>
    rcases beyond with ⟨u, c, target, other⟩ | ⟨u, c, name, sets⟩
    · obtain ⟨rfl, -⟩ := Prod.mk.inj (Option.some.inj target)
      exact absurd rfl other
    · simp only [PermissionEvent.sets] at sets
      split at sets
      · obtain ⟨req, -, same⟩ := Option.map_eq_some_iff.mp sets
        exact absurd same (asked req)
      · contradiction
  | updatePermissionsByApplier userId coprId builder admin =>
    rcases beyond with ⟨u, c, target, other⟩ | ⟨u, c, name, sets⟩
    · obtain ⟨rfl, -⟩ := Prod.mk.inj (Option.some.inj target)
      exact absurd rfl other
    · simp only [PermissionEvent.sets] at sets
      split at sets
      · cases name with
        | builder => exact absurd (Option.some.inj sets) (asked builder)
        | admin => exact absurd (Option.some.inj sets) (asked admin)
      · contradiction
  | setPermissions requestUserId coprId userId permission state =>
    obtain ⟨requestUser, foundUser, rest⟩ := Option.bind_eq_some_iff.mp stepped
    obtain ⟨copr, foundCopr, rest⟩ := Option.bind_eq_some_iff.mp rest
    obtain ⟨user, -, rest⟩ := Option.bind_eq_some_iff.mp rest
    obtain ⟨answer, answered, -⟩ := Option.map_eq_some_iff.mp rest
    have allowed := (setPermissions_sets answered).1
    exact ⟨requestUserId, coprId, rfl, rfl, mayEdit_of_mayUpdate foundUser foundCopr allowed⟩
  | updatePermissions userId coprId targetId newBuilder newAdmin =>
    obtain ⟨user, foundUser, rest⟩ := Option.bind_eq_some_iff.mp stepped
    obtain ⟨copr, foundCopr, rest⟩ := Option.bind_eq_some_iff.mp rest
    obtain ⟨row, -, rest⟩ := Option.bind_eq_some_iff.mp rest
    obtain ⟨permissions, updated, -⟩ := Option.map_eq_some_iff.mp rest
    unfold updatePermissions at updated
    split at updated
    · rename_i allowed
      exact ⟨userId, coprId, rfl, rfl, mayEdit_of_mayUpdate foundUser foundCopr allowed⟩
    · contradiction
  | directory users coprs =>
    rcases beyond with ⟨u, c, target, -⟩ | ⟨u, c, name, sets⟩
    · contradiction
    · contradiction

/-- A call sets permissions in the project that it is about. -/
theorem copr_of_sets {u c : Nat} {name : PermissionField} {value : PermissionEnum}
    (sets : e.sets u c name = some value) : e.coprId = some c := by
  cases e with
  | directory users coprs => contradiction
  | _ =>
    simp only [PermissionEvent.sets] at sets
    split at sets
    · rename_i own
      simp only [PermissionEvent.coprId, own]
    · contradiction

/-- The user who makes the call may not edit the project that it is about. -/
def Unprivileged (s : PermissionTables) (e : PermissionEvent) : Prop :=
  ∀ editor copr, e.actor = some editor → e.coprId = some copr → ¬ s.MayEdit editor copr

/-- A call without the right to edit approves nothing and changes no row of another user. -/
theorem unprivileged_step (stepped : s.step e = some t) (without : s.Unprivileged e) :
    (∀ u c name, t.holds u c name = .approved → s.holds u c name = .approved) ∧
      ∀ u, e.actor ≠ some u → ∀ c, t.permission u c = s.permission u c := by
  have never : ¬ ((∃ u c, e.target = some (u, c) ∧ e.actor ≠ some u) ∨
      ∃ u c name, e.sets u c name = some .approved) := by
    intro beyond
    obtain ⟨editor, copr, actor, project, rights⟩ := step_by_editor stepped beyond
    exact without editor copr actor project rights
  constructor
  · intro u c name held
    refine (approved_step stepped held).resolve_right fun sets => never (Or.inr ?_)
    exact ⟨u, c, name, sets⟩
  · intro u other c
    rcases step_ownRowOnly stepped with ⟨-, permissions⟩ | ⟨userId, coprId, only⟩
    · unfold permission
      rw [permissions]
    · refine only.others u c fun own => never (Or.inl ⟨userId, coprId, only.target, ?_⟩)
      rw [← own.1]
      exact other

/-- Events one after another. -/
def run (s : PermissionTables) (events : List PermissionEvent) : Option PermissionTables :=
  exec step (fun _ _ => true) s events

/-- From a state without permissions: whoever holds an approved permission, the last call that set
it to approved was made by a user who at that moment could edit the project; and from whatever
state is reached, calls by users who may not edit the projects approve nothing and change no
permission of another user. -/
theorem approved_permissions_are_granted {events : List PermissionEvent}
    (nothing : s.permissions = []) (ran : s.run events = some t) :
    (∀ u c name, t.holds u c name = .approved →
        ∃ before e after now, events = before ++ e :: after ∧ s.run before = some now ∧
          e.sets u c name = some .approved ∧
          (∀ later ∈ after, later.sets u c name ≠ some .approved) ∧
          ∃ editor, e.actor = some editor ∧ now.MayEdit editor c) ∧
      ∀ more t', t.run more = some t' →
        (∀ before e after now, more = before ++ e :: after → t.run before = some now →
          now.Unprivileged e) →
        (∀ u c name, t'.holds u c name = .approved → t.holds u c name = .approved) ∧
          ∀ u, (∀ e ∈ more, e.actor ≠ some u) → ∀ c, t'.permission u c = t.permission u c := by
  constructor
  · intro u c name held
    have first : s.holds u c name ≠ .approved := by
      unfold holds permission CoprPermissionsLogic.get
      rw [nothing]
      show PermissionEnum.nothing ≠ .approved
      decide
    have each : ∀ a e b, step a e = some b → b.holds u c name = .approved →
        a.holds u c name = .approved ∨ e.sets u c name = some .approved :=
      fun _ _ _ stepped after => approved_step stepped after
    rcases exec_last_cause (P := fun s => s.holds u c name = .approved) each ran held with
      ⟨there, -⟩ | ⟨before, e, after, now, next, split, reached, stepped, sets, last⟩
    · exact absurd there first
    · obtain ⟨editor, copr, actor, project, rights⟩ :=
        step_by_editor stepped (Or.inr ⟨u, c, name, sets⟩)
      have same : copr = c := Option.some.inj (project.symm.trans (copr_of_sets sets))
      exact ⟨before, e, after, now, split, reached, sets, last, editor, actor, same ▸ rights⟩
  · intro more t' further without
    constructor
    · refine exec_keeps (P := fun a b => ∀ u c name, b.holds u c name = .approved →
        a.holds u c name = .approved) (fun _ _ _ _ held => held) ?_ further ?_
      · intro a b d first second u c name held
        exact first u c name (second u c name held)
      · intro before e after now next split reached stepped
        exact (unprivileged_step stepped (without before e after now split reached)).1
    · intro u others
      refine exec_keeps (P := fun a b => ∀ c, b.permission u c = a.permission u c)
        (fun _ _ => rfl) ?_ further ?_
      · intro a b d first second c
        exact (second c).trans (first c)
      · intro before e after now next split reached stepped
        refine (unprivileged_step stepped (without before e after now split reached)).2 u ?_
        apply others
        rw [split]
        exact List.mem_append_right _ List.mem_cons_self

/-- A user asks for both permissions of a project, and the owner approves one of them. -/
theorem approved_permissions_are_granted_once :
    ∃ s t : PermissionTables, ∃ events, s.run events = some t ∧
      t.holds 2 1 .admin = .approved ∧ t.holds 2 1 .builder = .request ∧
        ∃ before e after now, events = before ++ e :: after ∧ s.run before = some now ∧
          e.sets 2 1 .admin = some .approved ∧
          (∀ later ∈ after, later.sets 2 1 .admin ≠ some .approved) ∧
          ∃ editor, e.actor = some editor ∧ now.MayEdit editor 1 := by
  let copr : Project := { id := 1, name := "copr", userId := 1, group := none, ownerName := "a" }
  let s : PermissionTables := ⟨[⟨1, false, []⟩, ⟨2, false, []⟩], [copr], []⟩
  let events : List PermissionEvent := [.updatePermissionsByApplier 2 1 true true,
    .setPermissions 1 1 2 "admin" "approved"]
  have ran : s.run events = some { s with permissions := [⟨2, 1, .request, .approved⟩] } := by
    decide
  exact ⟨s, _, events, ran, rfl, rfl,
    (approved_permissions_are_granted rfl ran).1 2 1 .admin rfl⟩

end PermissionTables

end Copr
