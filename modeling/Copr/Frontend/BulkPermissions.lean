import Copr.Frontend.GrantedPermissions

/-!
# Updating all permissions of a project

`copr_update_permissions` of `coprs/views/coprs_ns/coprs_general.py` goes through the permissions of
a project and sets each to the values of a form. Before each of them `update_permissions` checks
anew that the user may edit the project; the row that the check has remembered is the one of the
session, which the updates change in place. Here is for which forms all rows are set.
-/

namespace Copr

/-- A form of `PermissionsFormFactory`: the values for each user, by id. -/
structure PermissionsForm where
  /-- `copr_builder_<id>`. -/
  coprBuilder : Nat → PermissionEnum
  /-- `copr_admin_<id>`. -/
  coprAdmin : Nat → PermissionEnum

namespace CoprPermissionsLogic

/-- The key that the rows are sorted by. -/
def sortKey (user : User) (row : CoprPermission) : Int := if row.userId = user.id then -1 else 1

/-- The order in which the rows are updated. -/
def inOrder (user : User) (rows : List CoprPermission) : List CoprPermission :=
  rows.mergeSort fun a b => decide (sortKey user a ≤ sortKey user b)

/-- One round of the loop. -/
def updateRow (user : User) (copr : Project) (form : PermissionsForm)
    (permissions : List CoprPermission) (row : CoprPermission) : Option (List CoprPermission) :=
  updatePermissions permissions user copr row (form.coprBuilder row.userId)
    (form.coprAdmin row.userId)

/-- `copr_update_permissions`, for the permissions of the project in some order. It is `none` when
an `InsufficientRightsException` is raised, and everything is rolled back. -/
def coprUpdatePermissions (user : User) (copr : Project) (form : PermissionsForm)
    (rows permissions : List CoprPermission) : Option (List CoprPermission) :=
  (inOrder user rows).foldlM (updateRow user copr form) permissions

/-- Every row of the project has the values of the form. -/
def applied (copr : Project) (form : PermissionsForm) (permissions : List CoprPermission) :
    List CoprPermission :=
  permissions.map fun p =>
    if p.coprId = copr.id then withBoth (form.coprBuilder p.userId) (form.coprAdmin p.userId) p
    else p

/-- The row of a user is set. -/
def setRow (copr : Project) (form : PermissionsForm) (permissions : List CoprPermission)
    (row : CoprPermission) : List CoprPermission :=
  change permissions row.userId copr.id
    (withBoth (form.coprBuilder row.userId) (form.coprAdmin row.userId))

section Loop

variable {user : User} {copr : Project} {form : PermissionsForm}
  {permissions rows : List CoprPermission} {row : CoprPermission}

/-- A row is set if the user may edit the project. -/
theorem updateRow_eq : updateRow user copr form permissions row =
    if mayUpdate permissions user copr then some (setRow copr form permissions row) else none :=
  rfl

/-- What the user holds after a row was set. -/
theorem get_setRow : get (setRow copr form permissions row) user.id copr.id =
    if user.id = row.userId then
      (get permissions user.id copr.id).map
        (withBoth (form.coprBuilder row.userId) (form.coprAdmin row.userId))
    else get permissions user.id copr.id := by
  have keeps (p : CoprPermission) :
      (withBoth (form.coprBuilder row.userId) (form.coprAdmin row.userId) p).userId = p.userId ∧
        (withBoth (form.coprBuilder row.userId) (form.coprAdmin row.userId) p).coprId =
          p.coprId := ⟨rfl, rfl⟩
  rw [setRow, get_change keeps]
  simp

/-- The rows of others have no influence. -/
theorem mayUpdate_setRow_other (other : row.userId ≠ user.id) :
    mayUpdate (setRow copr form permissions row) user copr =
      mayUpdate permissions user copr := by
  rw [Bool.eq_iff_iff, mayUpdate_iff, mayUpdate_iff, get_setRow, if_neg other.symm]

/-- After the own row was set, the user needs the value of the form or another right. -/
theorem mayUpdate_setRow_own (own : row.userId = user.id)
    (there : (get permissions user.id copr.id).isSome = true) :
    mayUpdate (setRow copr form permissions row) user copr = true ↔
      mayUpdate [] user copr = true ∨ form.coprAdmin user.id = .approved := by
  have ⟨held, found⟩ := Option.isSome_iff_exists.mp there
  have none : get [] user.id copr.id = none := rfl
  rw [mayUpdate_iff, mayUpdate_iff, get_setRow, if_pos own.symm, found, none, own]
  simp only [Option.map_some, Option.getD_some, Option.map_none, Option.getD_none,
    CoprPermission.getPermission, withBoth, reduceCtorEq, or_false, or_assoc]

/-- Without a row a user has the other rights only. -/
theorem mayUpdate_of_absent (absent : get permissions user.id copr.id = none) :
    mayUpdate permissions user copr = mayUpdate [] user copr := by
  have none : get [] user.id copr.id = none := rfl
  rw [Bool.eq_iff_iff, mayUpdate_iff, mayUpdate_iff, absent, none]

/-- The rows of others are set one after another, or the first one is refused. -/
theorem foldlM_updateRow (others : ∀ row ∈ rows, row.userId ≠ user.id) :
    rows.foldlM (updateRow user copr form) permissions =
      if rows = [] ∨ mayUpdate permissions user copr = true then
        some (rows.foldl (setRow copr form) permissions)
      else none := by
  induction rows generalizing permissions with
  | nil => simp
  | cons row rest ih =>
    have ⟨first, later⟩ := List.forall_mem_cons.mp others
    rw [List.foldlM_cons, updateRow_eq]
    by_cases may : mayUpdate permissions user copr = true
    · have still : mayUpdate (setRow copr form permissions row) user copr = true := by
        rw [mayUpdate_setRow_other first, may]
      rw [if_pos may, if_pos (Or.inr may)]
      show rest.foldlM (updateRow user copr form) (setRow copr form permissions row) = _
      rw [ih later, if_pos (Or.inr still)]
      rfl
    · have refused : ¬ (row :: rest = [] ∨ mayUpdate permissions user copr = true) := by
        simp [may]
      rw [if_neg may, if_neg refused]
      rfl

/-- Setting rows sets exactly the rows of their users. -/
theorem foldl_setRow : rows.foldl (setRow copr form) permissions =
    permissions.map fun p =>
      if p.coprId = copr.id ∧ p.userId ∈ rows.map CoprPermission.userId then
        withBoth (form.coprBuilder p.userId) (form.coprAdmin p.userId) p
      else p := by
  induction rows generalizing permissions with
  | nil => simp
  | cons row rest ih =>
    rw [List.foldl_cons, ih, setRow, change, List.map_map]
    apply List.map_congr_left
    intro p _
    rw [Function.comp_apply]
    by_cases own : p.userId = row.userId ∧ p.coprId = copr.id
    · rw [if_pos own]
      have listed : p.userId ∈ (row :: rest).map CoprPermission.userId := by simp [own.1]
      rw [if_pos (And.intro own.2 listed), ← own.1]
      split
      · rfl
      · rfl
    · rw [if_neg own]
      have same : (p.coprId = copr.id ∧ p.userId ∈ (row :: rest).map CoprPermission.userId) ↔
          p.coprId = copr.id ∧ p.userId ∈ rest.map CoprPermission.userId := by
        rw [List.map_cons, List.mem_cons]
        constructor
        · intro ⟨project, member⟩
          refine ⟨project, member.resolve_left fun equal => own ⟨equal, project⟩⟩
        · exact fun ⟨project, member⟩ => ⟨project, Or.inr member⟩
      rw [if_congr same rfl rfl]

/-- Setting all rows of a project applies the form. -/
theorem foldl_setRow_all (listed : rows.Perm
    (permissions.filter fun p => decide (p.coprId = copr.id))) :
    rows.foldl (setRow copr form) permissions = applied copr form permissions := by
  rw [foldl_setRow, applied]
  apply List.map_congr_left
  intro p member
  have there : p.coprId = copr.id → p.userId ∈ rows.map CoprPermission.userId := by
    intro project
    apply List.mem_map_of_mem
    exact listed.mem_iff.mpr (List.mem_filter.mpr ⟨member, decide_eq_true project⟩)
  rw [if_congr (and_iff_left_of_imp there) rfl rfl]

/-- A user has one row in a project. -/
theorem userIds_nodup (listed : rows.Perm
    (permissions.filter fun p => decide (p.coprId = copr.id)))
    (keys : (permissions.map fun p => (p.userId, p.coprId)).Nodup) :
    (rows.map CoprPermission.userId).Nodup := by
  rw [(listed.map _).nodup_iff]
  have own : ((permissions.filter fun p => decide (p.coprId = copr.id)).map
      fun p => (p.userId, p.coprId)).Nodup := keys.sublist (List.filter_sublist.map _)
  have pairs : (permissions.filter fun p => decide (p.coprId = copr.id)).map
      (fun p => (p.userId, p.coprId)) =
      ((permissions.filter fun p => decide (p.coprId = copr.id)).map
        CoprPermission.userId).map fun userId => (userId, copr.id) := by
    rw [List.map_map]
    apply List.map_congr_left
    intro p member
    have project := of_decide_eq_true (List.mem_filter.mp member).2
    rw [Function.comp_apply, project]
  rw [pairs] at own
  exact own.of_map

/-- The own row comes first, if there is one. -/
theorem inOrder_cases (distinct : (rows.map CoprPermission.userId).Nodup) :
    (∀ row ∈ rows, row.userId ≠ user.id) ∨
      ∃ own others, inOrder user rows = own :: others ∧ own.userId = user.id ∧
        ∀ row ∈ others, row.userId ≠ user.id := by
  by_cases absent : ∀ row ∈ rows, row.userId ≠ user.id
  · exact Or.inl absent
  · right
    push Not at absent
    have ⟨own, member, mine⟩ := absent
    have perm : (inOrder user rows).Perm rows := List.mergeSort_perm rows _
    have sorted : (inOrder user rows).Pairwise fun a b =>
        decide (sortKey user a ≤ sortKey user b) = true :=
      List.pairwise_mergeSort (fun a b c => by simp; omega) (fun a b => by simp; omega) rows
    have users : ((inOrder user rows).map CoprPermission.userId).Nodup :=
      (perm.map _).nodup_iff.mpr distinct
    have inside := perm.mem_iff.mpr member
    cases order : inOrder user rows with
    | nil =>
      rw [order] at inside
      exact absurd inside List.not_mem_nil
    | cons first others =>
      rw [order] at sorted users inside
      have firstMine : first.userId = user.id := by
        cases List.mem_cons.mp inside with
        | inl same => rw [← same, mine]
        | inr later =>
          have before := of_decide_eq_true ((List.pairwise_cons.mp sorted).1 own later)
          by_contra other
          simp [sortKey, mine, other] at before
      refine ⟨first, others, rfl, firstMine, fun row later same => ?_⟩
      have fresh := (List.nodup_cons.mp users).1
      rw [firstMine, ← same] at fresh
      exact fresh (List.mem_map_of_mem later)

end Loop

namespace Sample

/-- The owner of the project. -/
def founder : User := ⟨1, false, []⟩

/-- A user who may edit the project by a permission. -/
def editor : User := ⟨2, false, []⟩

/-- The project. -/
def shared : Project :=
  { id := 1, name := "hello", userId := 1, group := none, ownerName := "founder" }

/-- Two users have permissions. -/
def twoRows : List CoprPermission :=
  [⟨2, 1, .approved, .approved⟩, ⟨3, 1, .request, .nothing⟩]

/-- One user gets a permission, the other one gives up a permission. -/
def handover : PermissionsForm where
  coprBuilder := fun _ => .approved
  coprAdmin := fun userId => if userId = 3 then .approved else .nothing

end Sample

end CoprPermissionsLogic

end Copr
