import Copr.Lib.Memo
import Copr.Frontend.Models
import Mathlib.Data.List.Dedup

/-!
# Who may build in a project and edit it

`User.can_build_in` and `User.can_edit` of `coprs/models.py` with the permissions that a `User`
object remembers during one request, and `BuildsLogic.cancel_builds` and `delete_builds`, which
check a list of builds on one `User` object.
-/

namespace Copr

open Memo

/-- `PermissionEnum`. -/
inductive PermissionEnum
  /-- Not asked for. -/
  | nothing
  /-- Asked for. -/
  | request
  /-- Approved by an administrator of the project. -/
  | approved
  deriving DecidableEq, Repr

/-- The columns of `Copr` that decide about rights. -/
structure Project where
  /-- Primary key. -/
  id : Nat
  /-- `name`: unique for one owner only. -/
  name : String
  /-- `user_id`. -/
  userId : Nat
  /-- `fas_name` of `group`. -/
  group : Option String
  /-- `owner_name`: the name of the group with an `@`, or of the user. -/
  ownerName : String
  /-- `persistent`. -/
  persistent : Bool := false
  /-- `appstream`. -/
  appstream : Bool := true
  deriving DecidableEq, Repr

/-- `User`, without what it remembers. -/
structure User where
  /-- Primary key. -/
  id : Nat
  /-- `admin`. -/
  admin : Bool
  /-- `user_teams`. -/
  userTeams : List String
  deriving DecidableEq, Repr

/-- `CoprPermission`. -/
structure CoprPermission where
  /-- `user_id`. -/
  userId : Nat
  /-- `copr_id`. -/
  coprId : Nat
  /-- `copr_builder`. -/
  coprBuilder : PermissionEnum
  /-- `copr_admin`. -/
  coprAdmin : PermissionEnum
  deriving DecidableEq, Repr

/-- What `permissions_for_copr` remembers: by project name. -/
abbrev PermissionMemo := AList fun _ : String => Option CoprPermission

section Checks

variable (permissions : List CoprPermission) (user : User)

/-- The query of `permissions_for_copr`. -/
def queryPermission (copr : Project) : Option CoprPermission :=
  permissions.find? fun p => decide (p.userId = user.id ∧ p.coprId = copr.id)

/-- `permissions_for_copr`. -/
def permissionsForCopr (memo : PermissionMemo) (copr : Project) :
    Option CoprPermission × PermissionMemo :=
  ask (queryPermission permissions user) Project.name memo copr

/-- `can_build_in_group`. -/
def User.canBuildInGroup (group : String) : Bool := decide (group ∈ user.userTeams)

/-- The project is one of the user's group, or the user's own without a group. -/
def User.belongsTo (copr : Project) : Bool :=
  match copr.group with
  | some group => user.canBuildInGroup group
  | none => decide (copr.userId = user.id)

/-- `can_build_in`. -/
def canBuildIn (memo : PermissionMemo) (copr : Project) : Bool × PermissionMemo :=
  if user.admin then (true, memo)
  else if user.belongsTo copr then (true, memo)
  else
    match permissionsForCopr permissions user memo copr with
    | (none, memo) => (false, memo)
    | (some p, memo) => (decide (p.coprBuilder = .approved ∨ p.coprAdmin = .approved), memo)

/-- `can_edit`. -/
def canEdit (memo : PermissionMemo) (copr : Project) (ignoreAdmin : Bool) :
    Bool × PermissionMemo :=
  if copr.group.isNone && decide (copr.userId = user.id) then (true, memo)
  else if !ignoreAdmin && user.admin then (true, memo)
  else
    let (p, memo) := permissionsForCopr permissions user memo copr
    -- The second call finds what the first one has remembered.
    let (again, memo) :=
      if p.isSome then permissionsForCopr permissions user memo copr else (p, memo)
    if again.any fun p => decide (p.coprAdmin = .approved) then (true, memo)
    else (copr.group.any fun group => decide (group ∈ user.userTeams), memo)

/-- A check on a `User` object. -/
inductive Check
  /-- `can_build_in`. -/
  | build (copr : Project)
  /-- `can_edit`. -/
  | edit (copr : Project) (ignoreAdmin : Bool)
  deriving DecidableEq, Repr

/-- The project that a check is about. -/
def Check.copr : Check → Project
  | .build copr => copr
  | .edit copr _ => copr

/-- The answer of a check and what the object remembers afterwards. -/
def Check.run (memo : PermissionMemo) : Check → Bool × PermissionMemo
  | .build copr => canBuildIn permissions user memo copr
  | .edit copr ignoreAdmin => canEdit permissions user memo copr ignoreAdmin

/-- The answer of a new `User` object. -/
def Check.fresh (check : Check) : Bool := (check.run permissions user ∅).1

/-- The answers of one object to some checks one after another. -/
def answers (memo : PermissionMemo) : List Check → List Bool
  | [] => []
  | check :: rest =>
    (check.run permissions user memo).1 :: answers (check.run permissions user memo).2 rest

end Checks

/-! ## What a check depends on -/

/-- A check has to look at the permissions of the project. -/
def Check.consults (user : User) : Check → Bool
  | .build copr => !user.admin && !user.belongsTo copr
  | .edit copr ignoreAdmin =>
    !(copr.group.isNone && decide (copr.userId = user.id)) && (ignoreAdmin || !user.admin)

/-- What a check answers when it has to look at the permissions and finds these. -/
def Check.answerBy (user : User) (p : Option CoprPermission) : Check → Bool
  | .build _ => p.any fun p => decide (p.coprBuilder = .approved ∨ p.coprAdmin = .approved)
  | .edit copr _ =>
    (p.any fun p => decide (p.coprAdmin = .approved)) ||
      copr.group.any fun group => decide (group ∈ user.userTeams)

section Answers

variable {permissions : List CoprPermission} {user : User}

/-- Asking twice is asking once. -/
theorem permissionsForCopr_again (memo : PermissionMemo) (copr : Project) :
    permissionsForCopr permissions user (permissionsForCopr permissions user memo copr).2 copr =
      permissionsForCopr permissions user memo copr := by
  unfold permissionsForCopr ask
  cases known : memo.lookup copr.name with
  | some p => simp [known]
  | none => simp

/-- A check either does not look at the permissions, or answers by what is remembered. -/
theorem Check.run_eq (check : Check) (memo : PermissionMemo) :
    check.run permissions user memo =
      if check.consults user then
        (check.answerBy user (permissionsForCopr permissions user memo check.copr).1,
          (permissionsForCopr permissions user memo check.copr).2)
      else (true, memo) := by
  cases check with
  | build copr =>
    simp only [Check.run, canBuildIn, Check.consults, Check.answerBy, Check.copr]
    by_cases admin : user.admin = true
    · simp [admin]
    · by_cases own : user.belongsTo copr = true
      · simp [admin, own]
      · simp only [admin, own]
        cases asked : permissionsForCopr permissions user memo copr with
        | mk p memo' => cases p <;> simp
  | edit copr ignoreAdmin =>
    simp only [Check.run, canEdit, Check.consults, Check.answerBy, Check.copr]
    by_cases own : (copr.group.isNone && decide (copr.userId = user.id)) = true
    · simp [own]
    · by_cases admin : (!ignoreAdmin && user.admin) = true
      · have other : (ignoreAdmin || !user.admin) = false := by
          cases ignoreAdmin <;> simp_all
        simp [own, admin, other]
      · have other : (ignoreAdmin || !user.admin) = true := by
          cases ignoreAdmin <;> simp_all
        simp only [own, admin, other, permissionsForCopr_again]
        cases asked : permissionsForCopr permissions user memo copr with
        | mk p memo' =>
          cases p with
          | none => simp
          | some p => by_cases approved : p.coprAdmin = .approved <;> simp [approved]

/-- The projects whose permissions some checks have looked at. -/
def consulted (user : User) (checks : List Check) : List Project :=
  (checks.filter fun check => check.consults user).map Check.copr

/-- What a new object remembers after some checks. -/
def memoAfter (permissions : List CoprPermission) (user : User) (checks : List Check) :
    PermissionMemo :=
  askAll (queryPermission permissions user) Project.name ∅ (consulted user checks)

/-- The project whose permissions are taken for those of `copr` after some checks: the first one
of this name whose permissions were looked at. -/
def standsFor (user : User) (before : List Check) (copr : Project) : Project :=
  first Project.name (consulted user before) copr

/-- One more check leaves what is remembered after all of them. -/
theorem run_memoAfter (before : List Check) (check : Check) :
    (check.run permissions user (memoAfter permissions user before)).2 =
      memoAfter permissions user (before ++ [check]) := by
  rw [check.run_eq]
  by_cases looks : check.consults user = true
  · simp [looks, memoAfter, consulted, askAll, permissionsForCopr]
  · simp [looks, memoAfter, consulted]

/-- The answer of a check after others. -/
theorem run_after (before : List Check) (check : Check) :
    (check.run permissions user (memoAfter permissions user before)).1 =
      if check.consults user then
        check.answerBy user
          (queryPermission permissions user (standsFor user before check.copr))
      else true := by
  rw [check.run_eq]
  split
  · rw [permissionsForCopr, memoAfter, ask_askAll]
    rfl
  · rfl

/-- The answer of a new object. -/
theorem fresh_eq (check : Check) : check.fresh permissions user =
    if check.consults user then
      check.answerBy user (queryPermission permissions user check.copr)
    else true := run_after [] check

/-- Whenever a check looks at permissions, those it gets lead to the same answer as those of the
project it is about. -/
def Undisturbed (permissions : List CoprPermission) (user : User) (done checks : List Check) :
    Prop :=
  ∀ before check after, checks = before ++ check :: after → check.consults user = true →
    check.answerBy user
        (queryPermission permissions user (standsFor user (done ++ before) check.copr)) =
      check.answerBy user (queryPermission permissions user check.copr)

/-- The first check and those after it. -/
theorem undisturbed_cons {done rest : List Check} {check : Check} :
    Undisturbed permissions user done (check :: rest) ↔
      (check.consults user = true →
        check.answerBy user (queryPermission permissions user (standsFor user done check.copr)) =
          check.answerBy user (queryPermission permissions user check.copr)) ∧
      Undisturbed permissions user (done ++ [check]) rest := by
  unfold Undisturbed
  rw [forall_split_cons]
  simp only [List.append_nil, List.append_assoc, List.singleton_append]

/-- One object answers as new objects would exactly when no check is disturbed. -/
theorem answers_fresh_iff (done checks : List Check) :
    answers permissions user (memoAfter permissions user done) checks =
      checks.map (Check.fresh permissions user) ↔ Undisturbed permissions user done checks := by
  induction checks generalizing done with
  | nil => simp [answers, Undisturbed]
  | cons check rest ih =>
    rw [answers, List.map_cons, List.cons_eq_cons, run_memoAfter, ih, run_after, fresh_eq,
      undisturbed_cons]
    by_cases looks : check.consults user = true
    · simp [looks]
    · simp [looks]

/-- Whenever a check looks at permissions and those of the project it is about lead to a denial,
so do those it gets. -/
def NeverGranted (permissions : List CoprPermission) (user : User) (done checks : List Check) :
    Prop :=
  ∀ before check after, checks = before ++ check :: after → check.consults user = true →
    check.answerBy user (queryPermission permissions user check.copr) = false →
      check.answerBy user
        (queryPermission permissions user (standsFor user (done ++ before) check.copr)) = false

/-- Undisturbed checks grant nothing. -/
theorem Undisturbed.neverGranted {done checks : List Check}
    (undisturbed : Undisturbed permissions user done checks) :
    NeverGranted permissions user done checks := by
  intro before check after same looks denied
  rw [undisturbed before check after same looks]
  exact denied

/-- The first check and those after it: what a new object denies is denied. -/
theorem neverGranted_cons {done rest : List Check} {check : Check} :
    NeverGranted permissions user done (check :: rest) ↔
      (check.fresh permissions user = false →
        (check.run permissions user (memoAfter permissions user done)).1 = false) ∧
      NeverGranted permissions user (done ++ [check]) rest := by
  unfold NeverGranted
  rw [forall_split_cons, fresh_eq, run_after]
  simp only [List.append_nil, List.append_assoc, List.singleton_append]
  refine and_congr_left fun _ => ?_
  by_cases looks : check.consults user = true
  · simp [looks]
  · simp [looks]

/-- Whenever a check looks at permissions, those it gets lead to an approval. -/
def AllGranted (permissions : List CoprPermission) (user : User) (done checks : List Check) :
    Prop :=
  ∀ before check after, checks = before ++ check :: after → check.consults user = true →
    check.answerBy user
      (queryPermission permissions user (standsFor user (done ++ before) check.copr)) = true

/-- The first check and those after it: all of them are granted. -/
theorem allGranted_cons {done rest : List Check} {check : Check} :
    AllGranted permissions user done (check :: rest) ↔
      (check.run permissions user (memoAfter permissions user done)).1 = true ∧
      AllGranted permissions user (done ++ [check]) rest := by
  unfold AllGranted
  rw [forall_split_cons, run_after]
  simp only [List.append_nil, List.append_assoc, List.singleton_append]
  refine and_congr_left fun _ => ?_
  by_cases looks : check.consults user = true
  · simp [looks]
  · simp [looks]

/-- Every check is answered with yes exactly when all permissions that are looked at lead to an
approval. -/
theorem answers_granted_iff (done checks : List Check) :
    (∀ granted ∈ answers permissions user (memoAfter permissions user done) checks,
      granted = true) ↔ AllGranted permissions user done checks := by
  induction checks generalizing done with
  | nil => simp [answers, AllGranted]
  | cons check rest ih =>
    rw [answers, List.forall_mem_cons, run_memoAfter, ih, allGranted_cons]

end Answers

/-! ## Lists of builds -/

/-- A build and its project. -/
structure OwnedBuild where
  /-- The build. -/
  build : Build
  /-- `copr`. -/
  copr : Project
  deriving DecidableEq, Repr

/-- `BadRequest` of `cancel_builds` and `delete_builds`. -/
structure BadRequest where
  /-- `no_permission`. -/
  noPermission : List Nat
  /-- `not_cancelable` or `still_running`. -/
  notReady : List Nat
  /-- The ids of no build. -/
  missing : List Nat
  deriving DecidableEq, Repr

/-- The two kinds of `BadRequest` of `delete_builds`. -/
inductive DeleteRefusal
  /-- There are builds that cannot be deleted. -/
  | builds (e : BadRequest)
  /-- `Can not delete builds from more projects`. -/
  | moreProjects
  deriving DecidableEq, Repr

/-- A build is refused: as one without permission, or with the whole request. -/
def DeleteRefusal.Refuses (id : Nat) : DeleteRefusal → Prop
  | .builds e => id ∈ e.noPermission
  | .moreProjects => True

/-- Ids in a message. -/
def idTexts (ids : List Nat) : String := ", ".intercalate (ids.map toString)

/-- The message of `delete_builds`. -/
def BadRequest.deleteMessage (e : BadRequest) : String :=
  (if e.noPermission.isEmpty then "" else
    "You don't have permissions to delete build(s) " ++ idTexts e.noPermission ++ ".\n") ++
  (if e.notReady.isEmpty then "" else
    "Build(s) " ++ idTexts e.notReady ++ " are still running.\n") ++
  (if e.missing.isEmpty then "" else
    "Build(s) " ++ idTexts e.missing ++ " don't exist.\n")

section Lists

variable (permissions : List CoprPermission) (user : User)

/-- The loops of `cancel_builds` and `delete_builds`: the builds to be handled, those without
permission and those that are not ready. No check means no permission. -/
def sortBuilds (check : OwnedBuild → Option Check) (ready : OwnedBuild → Bool) :
    PermissionMemo → List OwnedBuild → List OwnedBuild × List Nat × List Nat
  | _, [] => ([], [], [])
  | memo, b :: rest =>
    match check b with
    | none =>
      let (todo, noPermission, notReady) := sortBuilds check ready memo rest
      (todo, b.build.id :: noPermission, notReady)
    | some c =>
      let (todo, noPermission, notReady) :=
        sortBuilds check ready (c.run permissions user memo).2 rest
      if !(c.run permissions user memo).1 then (todo, b.build.id :: noPermission, notReady)
      else if ready b then (b :: todo, noPermission, notReady)
      else (todo, noPermission, b.build.id :: notReady)

/-- The check of `cancel_builds`. -/
def cancelCheck (b : OwnedBuild) : Option Check := some (.build b.copr)

/-- The check of `check_build_to_delete`; nobody may delete a persistent build. -/
def deleteCheck (b : OwnedBuild) : Option Check :=
  if b.copr.persistent then none else some (.edit b.copr false)

/-- `get_by_ids`. -/
def getByIds (builds : List OwnedBuild) (ids : List Nat) : List OwnedBuild :=
  builds.filter fun b => decide (b.build.id ∈ ids)

/-- The parameters that `send_delete_multiple_builds` takes over from the first build. -/
def Project.deleteParams (copr : Project) : String × String × Bool :=
  (copr.ownerName, copr.name, copr.appstream)

/-- The loop of `send_delete_multiple_builds` meets a build with other parameters than the one
before. -/
def moreProjects : List OwnedBuild → Bool
  | a :: b :: rest => decide (b.copr.deleteParams ≠ a.copr.deleteParams) || moreProjects (b :: rest)
  | _ => false

/-- `cancel_builds`: the builds that are canceled. -/
def cancelBuilds (memo : PermissionMemo) (builds : List OwnedBuild) (ids : List Nat) :
    Except BadRequest (List OwnedBuild) :=
  let (toCancel, noPermission, notCancelable) := sortBuilds permissions user cancelCheck
    (fun b => b.build.cancelable) memo (getByIds builds ids)
  if noPermission.isEmpty && notCancelable.isEmpty then .ok toCancel
  else .error ⟨noPermission, notCancelable, []⟩

/-- `delete_builds`: the builds that are deleted. The delete action is sent before any row is
deleted. -/
def deleteBuilds (memo : PermissionMemo) (builds : List OwnedBuild) (ids : List Nat)
    (sendDeleteAction : Bool) : Except DeleteRefusal (List OwnedBuild) :=
  let selected := getByIds builds ids
  let missing := ids.dedup.filter fun id => decide (id ∉ selected.map fun b => b.build.id)
  let (toDelete, noPermission, stillRunning) := sortBuilds permissions user deleteCheck
    (fun b => b.build.finished) memo selected
  if missing.isEmpty && noPermission.isEmpty && stillRunning.isEmpty then
    if sendDeleteAction && moreProjects toDelete then .error .moreProjects
    else .ok toDelete
  else .error (.builds ⟨noPermission, stillRunning, missing⟩)

end Lists

section Refused

variable {permissions : List CoprPermission} {user : User}

/-- A user has the rights that a check asks for when a new object says so. -/
def hasRights (permissions : List CoprPermission) (user : User) (check : OwnedBuild → Option Check)
    (b : OwnedBuild) : Bool := (check b).any (Check.fresh permissions user)

section Loop

variable {check : OwnedBuild → Option Check} {ready : OwnedBuild → Bool} {memo : PermissionMemo}
  {head : OwnedBuild} {builds rest : List OwnedBuild}

/-- A build whose check is not made is refused. -/
theorem refused_cons_of_none (asks : check head = none) :
    (sortBuilds permissions user check ready memo (head :: rest)).2.1 =
      head.build.id :: (sortBuilds permissions user check ready memo rest).2.1 := by
  simp [sortBuilds, asks]

/-- A build is refused when its check is answered so. -/
theorem refused_cons_of_some {c : Check} (asks : check head = some c) :
    (sortBuilds permissions user check ready memo (head :: rest)).2.1 =
      if (c.run permissions user memo).1 = true then
        (sortBuilds permissions user check ready (c.run permissions user memo).2 rest).2.1
      else head.build.id ::
        (sortBuilds permissions user check ready (c.run permissions user memo).2 rest).2.1 := by
  cases granted : (c.run permissions user memo).1 with
  | false => simp [sortBuilds, asks, granted]
  | true =>
    simp only [sortBuilds, asks, granted]
    cases ready head <;> rfl

/-- Only the builds of the list are refused. -/
theorem refused_subset : ∀ id ∈ (sortBuilds permissions user check ready memo builds).2.1,
    id ∈ builds.map fun b => b.build.id := by
  induction builds generalizing memo with
  | nil => simp [sortBuilds]
  | cons head rest ih =>
    intro id refused
    rw [List.map_cons, List.mem_cons]
    cases asks : check head with
    | none =>
      rw [refused_cons_of_none asks] at refused
      exact (List.mem_cons.mp refused).imp_right (ih id)
    | some c =>
      rw [refused_cons_of_some asks] at refused
      split at refused
      · exact Or.inr (ih id refused)
      · exact (List.mem_cons.mp refused).imp_right (ih id)

/-- Every build without rights is refused exactly when no check grants what a new object would
deny. -/
theorem refuses_iff {done : List Check} (distinct : (builds.map fun b => b.build.id).Nodup) :
    (∀ b ∈ builds, hasRights permissions user check b = false →
      b.build.id ∈ (sortBuilds permissions user check ready (memoAfter permissions user done)
        builds).2.1) ↔ NeverGranted permissions user done (builds.filterMap check) := by
  induction builds generalizing done with
  | nil => simp [NeverGranted]
  | cons head rest ih =>
    obtain ⟨fresh, distinct⟩ := List.nodup_cons.mp distinct
    have others : ∀ b ∈ rest, b.build.id ≠ head.build.id := fun b member same =>
      fresh (List.mem_map.mpr ⟨b, member, same⟩)
    have unlisted : ∀ memo, head.build.id ∉
        (sortBuilds permissions user check ready memo rest).2.1 := fun memo refused =>
      fresh (refused_subset _ refused)
    rw [List.forall_mem_cons]
    cases asks : check head with
    | none =>
      rw [List.filterMap_cons_none asks, ← ih distinct, refused_cons_of_none asks]
      have first : hasRights permissions user check head = false → head.build.id ∈
          head.build.id :: (sortBuilds permissions user check ready
            (memoAfter permissions user done) rest).2.1 := fun _ => List.mem_cons_self
      rw [and_iff_right first]
      refine forall₂_congr fun b member => imp_congr_right fun _ => ?_
      rw [List.mem_cons, or_iff_right (others b member)]
    | some c =>
      rw [List.filterMap_cons_some asks, neverGranted_cons, ← ih distinct,
        refused_cons_of_some asks, run_memoAfter]
      have rights : hasRights permissions user check head = c.fresh permissions user := by
        simp [hasRights, asks]
      rw [rights]
      refine and_congr (imp_congr_right fun _ => ?_)
        (forall₂_congr fun b member => imp_congr_right fun _ => ?_)
      · split <;> rename_i granted
        · simp [granted, unlisted]
        · simp [granted]
      · split
        · rfl
        · rw [List.mem_cons, or_iff_right (others b member)]

end Loop

/-- Nothing is refused and every build is ready exactly when all checks are made and granted. -/
theorem sortBuilds_clean {check : OwnedBuild → Option Check} {ready : OwnedBuild → Bool}
    {memo : PermissionMemo} {builds : List OwnedBuild} :
    ((sortBuilds permissions user check ready memo builds).2.1 = [] ∧
      (sortBuilds permissions user check ready memo builds).2.2 = []) ↔
    (∀ b ∈ builds, (check b).isSome = true ∧ ready b = true) ∧
      ∀ granted ∈ answers permissions user memo (builds.filterMap check), granted = true := by
  induction builds generalizing memo with
  | nil => simp [sortBuilds, answers]
  | cons head rest ih =>
    rw [List.forall_mem_cons]
    cases asks : check head with
    | none => simp [sortBuilds, asks]
    | some c =>
      rw [List.filterMap_cons_some asks, answers, List.forall_mem_cons, Option.isSome_some]
      simp only [sortBuilds, asks]
      have later := @ih (c.run permissions user memo).2
      cases granted : (c.run permissions user memo).1 with
      | false => simp
      | true =>
        cases ended : ready head with
        | false => simp
        | true =>
          simp only [Bool.not_true, Bool.false_eq_true, if_false, if_true, true_and, and_true]
          exact later

/-- When nothing is refused and every build is ready, all builds are handled. -/
theorem sortBuilds_all {check : OwnedBuild → Option Check} {ready : OwnedBuild → Bool}
    {memo : PermissionMemo} {builds : List OwnedBuild}
    (clean : (sortBuilds permissions user check ready memo builds).2.1 = [] ∧
      (sortBuilds permissions user check ready memo builds).2.2 = []) :
    (sortBuilds permissions user check ready memo builds).1 = builds := by
  induction builds generalizing memo with
  | nil => rfl
  | cons head rest ih =>
    cases asks : check head with
    | none => simp [sortBuilds, asks] at clean
    | some c =>
      simp only [sortBuilds, asks] at clean ⊢
      cases granted : (c.run permissions user memo).1 with
      | false => simp [granted] at clean
      | true =>
        cases ended : ready head with
        | false => simp [granted, ended] at clean
        | true =>
          simp only [granted, ended, Bool.not_true, Bool.false_eq_true, if_false, if_true]
            at clean ⊢
          rw [ih clean]

/-- Some builds do not have the same parameters for their delete action. -/
def OfMoreProjects (builds : List OwnedBuild) : Prop :=
  ∃ a ∈ builds, ∃ b ∈ builds, a.copr.deleteParams ≠ b.copr.deleteParams

/-- The comparison of each build with the one before it finds whether all are the same. -/
theorem moreProjects_iff {builds : List OwnedBuild} :
    moreProjects builds = true ↔ OfMoreProjects builds := by
  have first : ∀ (rest : List OwnedBuild) (a : OwnedBuild), moreProjects (a :: rest) = true ↔
      ∃ b ∈ rest, b.copr.deleteParams ≠ a.copr.deleteParams := by
    intro rest
    induction rest with
    | nil => simp [moreProjects]
    | cons b rest ih =>
      intro a
      rw [moreProjects, Bool.or_eq_true, decide_eq_true_eq, ih b]
      by_cases same : b.copr.deleteParams = a.copr.deleteParams
      · simp [same]
      · have now : ∃ c ∈ b :: rest, c.copr.deleteParams ≠ a.copr.deleteParams :=
          ⟨b, List.mem_cons_self, same⟩
        simp [same]
  cases builds with
  | nil => simp [moreProjects, OfMoreProjects]
  | cons a rest =>
    rw [first]
    constructor
    · rintro ⟨b, member, other⟩
      exact ⟨b, List.mem_cons_of_mem a member, a, List.mem_cons_self, other⟩
    · rintro ⟨b, one, c, another, other⟩
      by_contra none
      push Not at none
      have same : ∀ d ∈ a :: rest, d.copr.deleteParams = a.copr.deleteParams :=
        List.forall_mem_cons.mpr ⟨rfl, none⟩
      exact other ((same b one).trans (same c another).symm)

/-- `delete_builds` finds nothing to object to in the builds one by one: all ids are those of
builds, all builds are finished, none is persistent, and all permissions that are looked at lead to
an approval. -/
structure LetThrough (permissions : List CoprPermission) (user : User) (done : List Check)
    (builds : List OwnedBuild) (ids : List Nat) : Prop where
  /-- There is a build for every id. -/
  exist : ∀ id ∈ ids, ∃ b ∈ builds, b.build.id = id
  /-- Every build is ready to be deleted. -/
  ready : ∀ b ∈ getByIds builds ids, b.copr.persistent = false ∧ b.build.finished = true
  /-- The permissions that stand for those of its project let the user edit it. -/
  granted : AllGranted permissions user done ((getByIds builds ids).filterMap deleteCheck)

/-- No id is missing exactly when there is a build for each of them. -/
theorem missing_eq_nil_iff {builds : List OwnedBuild} {ids : List Nat} :
    (ids.dedup.filter fun id => decide (id ∉ (getByIds builds ids).map fun b => b.build.id)) = [] ↔
      ∀ id ∈ ids, ∃ b ∈ builds, b.build.id = id := by
  rw [List.filter_eq_nil_iff]
  refine forall_congr' fun id => ?_
  rw [List.mem_dedup]
  refine imp_congr_right fun listed => ?_
  rw [decide_eq_true_eq, not_not, List.mem_map]
  refine exists_congr fun b => ?_
  rw [getByIds, List.mem_filter, decide_eq_true_eq]
  constructor
  · rintro ⟨⟨member, _⟩, same⟩
    exact ⟨member, same⟩
  · rintro ⟨member, same⟩
    exact ⟨⟨member, same ▸ listed⟩, same⟩

/-- The builds are let through exactly when the loop of `delete_builds` leaves nothing over. -/
theorem letThrough_iff {done : List Check} {builds : List OwnedBuild} {ids : List Nat} :
    LetThrough permissions user done builds ids ↔
      (ids.dedup.filter fun id =>
        decide (id ∉ (getByIds builds ids).map fun b => b.build.id)) = [] ∧
      (sortBuilds permissions user deleteCheck (fun b => b.build.finished)
        (memoAfter permissions user done) (getByIds builds ids)).2.1 = [] ∧
      (sortBuilds permissions user deleteCheck (fun b => b.build.finished)
        (memoAfter permissions user done) (getByIds builds ids)).2.2 = [] := by
  have checked : ∀ b : OwnedBuild, (deleteCheck b).isSome = true ↔ b.copr.persistent = false := by
    intro b
    unfold deleteCheck
    cases b.copr.persistent <;> simp
  rw [missing_eq_nil_iff, sortBuilds_clean, answers_granted_iff]
  simp only [checked]
  constructor
  · rintro ⟨exist, ready, granted⟩
    exact ⟨exist, ready, granted⟩
  · rintro ⟨exist, ready, granted⟩
    exact ⟨exist, ready, granted⟩

/-- `cancel_builds` refuses the builds that its loop does. -/
theorem cancelBuilds_refuses {memo : PermissionMemo} {builds : List OwnedBuild} {ids : List Nat}
    {id : Nat} :
    (∃ e, cancelBuilds permissions user memo builds ids = .error e ∧ id ∈ e.noPermission) ↔
      id ∈ (sortBuilds permissions user cancelCheck (fun b => b.build.cancelable) memo
        (getByIds builds ids)).2.1 := by
  simp only [cancelBuilds]
  generalize sortBuilds permissions user cancelCheck (fun b => b.build.cancelable) memo
    (getByIds builds ids) = sorted
  constructor
  · rintro ⟨e, failed, refused⟩
    split at failed
    · contradiction
    · obtain rfl := Except.error.inj failed
      exact refused
  · intro refused
    have some_ : sorted.2.1.isEmpty = false := by simpa using List.ne_nil_of_mem refused
    rw [some_]
    exact ⟨_, rfl, refused⟩

/-- `delete_builds` refuses the builds that its loop does, and all of them when they are let
through but belong to more than one project. -/
theorem deleteBuilds_refuses {done : List Check} {builds : List OwnedBuild} {ids : List Nat}
    {sendDeleteAction : Bool} {id : Nat} :
    (∃ e, deleteBuilds permissions user (memoAfter permissions user done) builds ids
      sendDeleteAction = .error e ∧ e.Refuses id) ↔
      id ∈ (sortBuilds permissions user deleteCheck (fun b => b.build.finished)
        (memoAfter permissions user done) (getByIds builds ids)).2.1 ∨
      (sendDeleteAction = true ∧ LetThrough permissions user done builds ids ∧
        OfMoreProjects (getByIds builds ids)) := by
  rw [letThrough_iff]
  simp only [deleteBuilds]
  have all := @sortBuilds_all permissions user deleteCheck (fun b => b.build.finished)
    (memoAfter permissions user done) (getByIds builds ids)
  generalize sortBuilds permissions user deleteCheck (fun b => b.build.finished)
    (memoAfter permissions user done) (getByIds builds ids) = sorted at all ⊢
  generalize (ids.dedup.filter fun id =>
    decide (id ∉ (getByIds builds ids).map fun b => b.build.id)) = missing
  by_cases clean : missing = [] ∧ sorted.2.1 = [] ∧ sorted.2.2 = []
  · have nothing : (missing.isEmpty && sorted.2.1.isEmpty && sorted.2.2.isEmpty) = true := by
      simp [clean.1, clean.2.1, clean.2.2]
    rw [if_pos nothing, clean.2.1, all clean.2]
    by_cases more : sendDeleteAction = true ∧ OfMoreProjects (getByIds builds ids)
    · have refused : (sendDeleteAction && moreProjects (getByIds builds ids)) = true := by
        rw [more.1, moreProjects_iff.mpr more.2]
        rfl
      rw [if_pos refused]
      refine iff_of_true ⟨_, rfl, trivial⟩ (Or.inr ⟨more.1, ⟨clean.1, rfl, clean.2.2⟩, more.2⟩)
    · have deleted : ¬ (sendDeleteAction && moreProjects (getByIds builds ids)) = true := by
        rw [Bool.and_eq_true, moreProjects_iff]
        exact more
      rw [if_neg deleted]
      refine iff_of_false ?_ ?_
      · rintro ⟨e, failed, _⟩
        contradiction
      · rintro (listed | ⟨send, _, projects⟩)
        · exact absurd listed List.not_mem_nil
        · exact more ⟨send, projects⟩
  · have something : ¬ (missing.isEmpty && sorted.2.1.isEmpty && sorted.2.2.isEmpty) = true := by
      simpa [and_assoc] using clean
    rw [if_neg something]
    constructor
    · rintro ⟨e, failed, refused⟩
      obtain rfl := Except.error.inj failed
      exact Or.inl refused
    · rintro (listed | ⟨_, through, _⟩)
      · exact ⟨_, rfl, listed⟩
      · exact absurd through clean

/-- The selected builds have different ids. -/
theorem getByIds_nodup {builds : List OwnedBuild}
    (distinct : (builds.map fun b => b.build.id).Nodup) (ids : List Nat) :
    ((getByIds builds ids).map fun b => b.build.id).Nodup :=
  distinct.sublist (List.filter_sublist.map _)

/-- Nothing is disturbed when the projects that are checked have different names. -/
theorem undisturbed_of_names {checks : List Check}
    (names : ∀ a ∈ checks, ∀ b ∈ checks, a.copr.name = b.copr.name → a.copr = b.copr) :
    Undisturbed permissions user [] checks := by
  rintro before check after rfl _
  have same : standsFor user before check.copr = check.copr := by
    unfold standsFor first
    cases found : (consulted user before).find? fun p => decide (p.name = check.copr.name) with
    | none => rfl
    | some p =>
      have named : p.name = check.copr.name := by simpa using List.find?_some found
      obtain ⟨other, earlier, rfl⟩ := List.mem_map.mp (List.mem_of_find?_eq_some found)
      exact names other (List.mem_append_left _ (List.mem_of_mem_filter earlier)) check (by simp)
        named
  rw [List.nil_append, same]

/-- For every sequence of checks on one `User` object, all answers are those of new objects
exactly when, for every check that has to look at permissions, those of the first project of
the same name that were looked at lead to the same answer. After any checks on the object,
`cancel_builds` and `delete_builds` refuse every selected build of a project in which the user has
no rights exactly when none of these permissions lead to an approval where those of the project
itself do not, or when `delete_builds`, which is to send an action, refuses the whole request,
because it finds nothing to object to in the builds but that they are of more than one project. -/
theorem answers_by_project_iff (permissions : List CoprPermission) (user : User) :
    (∀ checks, answers permissions user ∅ checks = checks.map (Check.fresh permissions user) ↔
      Undisturbed permissions user [] checks) ∧
    (∀ done builds ids, (builds.map fun b => b.build.id).Nodup →
      ((∀ b ∈ getByIds builds ids, hasRights permissions user cancelCheck b = false →
        ∃ e, cancelBuilds permissions user (memoAfter permissions user done) builds ids = .error e ∧
          b.build.id ∈ e.noPermission) ↔
      NeverGranted permissions user done ((getByIds builds ids).filterMap cancelCheck))) ∧
    (∀ done builds ids sendDeleteAction, (builds.map fun b => b.build.id).Nodup →
      ((∀ b ∈ getByIds builds ids, hasRights permissions user deleteCheck b = false →
        ∃ e, deleteBuilds permissions user (memoAfter permissions user done) builds ids
          sendDeleteAction = .error e ∧ e.Refuses b.build.id) ↔
      NeverGranted permissions user done ((getByIds builds ids).filterMap deleteCheck) ∨
        (sendDeleteAction = true ∧ LetThrough permissions user done builds ids ∧
          OfMoreProjects (getByIds builds ids)))) := by
  refine ⟨answers_fresh_iff [], fun done builds ids distinct => ?_,
    fun done builds ids sendDeleteAction distinct => ?_⟩
  · have loop := @refuses_iff permissions user cancelCheck (fun b => b.build.cancelable)
      (getByIds builds ids) done (getByIds_nodup distinct ids)
    simp only [cancelBuilds_refuses]
    exact loop
  · have loop := @refuses_iff permissions user deleteCheck (fun b => b.build.finished)
      (getByIds builds ids) done (getByIds_nodup distinct ids)
    simp only [deleteBuilds_refuses]
    rw [← loop]
    by_cases whole : sendDeleteAction = true ∧ LetThrough permissions user done builds ids ∧
        OfMoreProjects (getByIds builds ids)
    · exact iff_of_true (fun _ _ _ => Or.inr whole) (Or.inr whole)
    · simp only [whole, or_false]

end Refused

namespace Sample

/-- A user without special rights. -/
def bob : User where
  id := 2
  admin := false
  userTeams := []

/-- A project of another user in which bob may build. -/
def shared : Project where
  id := 10
  name := "tools"
  userId := 1
  group := none
  ownerName := "user1"

/-- A project of a third user with the same name. -/
def foreign : Project where
  id := 11
  name := "tools"
  userId := 3
  group := none
  ownerName := "user3"

/-- Bob is a builder of the first one. -/
def grant : CoprPermission where
  userId := 2
  coprId := 10
  coprBuilder := .approved
  coprAdmin := .approved

/-- A build that runs in a project. -/
def runningIn (id : Nat) (copr : Project) : OwnedBuild where
  build := { id := id, sourceStatus := .pending, buildChroots := [] }
  copr := copr

/-- A build that has failed in a project. -/
def failedIn (id : Nat) (copr : Project) : OwnedBuild where
  build := { id := id, sourceStatus := .failed, buildChroots := [] }
  copr := copr

end Sample

/-- Alone, the build in the foreign project is refused. -/
theorem answers_by_project_alone : ∃ e, cancelBuilds [Sample.grant] Sample.bob
    (memoAfter [Sample.grant] Sample.bob []) [Sample.runningIn 2 Sample.foreign] [2] = .error e ∧
      2 ∈ e.noPermission :=
  ((answers_by_project_iff [Sample.grant] Sample.bob).2.1 [] [Sample.runningIn 2 Sample.foreign] [2]
    (List.nodup_singleton _)).mpr (undisturbed_of_names fun a first b second _ => by
      obtain rfl := List.mem_singleton.mp first
      obtain rfl := List.mem_singleton.mp second
      rfl).neverGranted (Sample.runningIn 2 Sample.foreign) (by decide) (by decide)

/-- A user who may build in one project gets the same rights in the project of the same name of
another owner, cancels builds there, and after a check of the first project also deletes them. -/
theorem rights_by_project_name :
    (¬ ∀ permissions user checks, user.admin = false →
      answers permissions user ∅ checks = checks.map (Check.fresh permissions user)) ∧
    (¬ ∀ permissions user builds ids b, user.admin = false → b ∈ getByIds builds ids →
      hasRights permissions user cancelCheck b = false →
        ∃ e, cancelBuilds permissions user ∅ builds ids = .error e ∧
          b.build.id ∈ e.noPermission) ∧
    (¬ ∀ permissions user done builds ids b, user.admin = false → b ∈ getByIds builds ids →
      hasRights permissions user deleteCheck b = false →
        ∃ e, deleteBuilds permissions user (memoAfter permissions user done) builds ids true =
          .error e) := by
  refine ⟨fun claimed => ?_, fun claimed => ?_, fun claimed => ?_⟩
  · have same := claimed [Sample.grant] Sample.bob [.build Sample.shared, .build Sample.foreign] rfl
    revert same
    decide
  · obtain ⟨e, refused, -⟩ := claimed [Sample.grant] Sample.bob
      [Sample.runningIn 1 Sample.shared, Sample.runningIn 2 Sample.foreign] [1, 2]
      (Sample.runningIn 2 Sample.foreign) rfl (by decide) (by decide)
    have canceled : cancelBuilds [Sample.grant] Sample.bob ∅
        [Sample.runningIn 1 Sample.shared, Sample.runningIn 2 Sample.foreign] [1, 2] =
        .ok [Sample.runningIn 1 Sample.shared, Sample.runningIn 2 Sample.foreign] := rfl
    rw [canceled] at refused
    contradiction
  · obtain ⟨e, refused⟩ := claimed [Sample.grant] Sample.bob [.edit Sample.shared false]
      [Sample.failedIn 2 Sample.foreign] [2] (Sample.failedIn 2 Sample.foreign) rfl (by decide)
      (by decide)
    have deleted : deleteBuilds [Sample.grant] Sample.bob
        (memoAfter [Sample.grant] Sample.bob [.edit Sample.shared false])
        [Sample.failedIn 2 Sample.foreign] [2] true =
        .ok [Sample.failedIn 2 Sample.foreign] := rfl
    rw [deleted] at refused
    contradiction

end Copr
