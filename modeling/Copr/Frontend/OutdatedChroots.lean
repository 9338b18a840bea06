import Copr.Lib.Dicts
import Copr.Frontend.CoprChroots

/-!
# The preservation life cycle

`OutdatedChrootsLogic` and the commands that run it: EOL, activation and deactivation of mock
chroots, extending and expiring, the policy for rolling chroots, notifications and deletions. With
them all other operations that write `deleted`, `delete_after` or `delete_notify`. Every operation
is at one point in time and commits as a whole, unless it says otherwise.
-/

namespace Copr

open Tables

/-- The configuration of the life cycle. -/
structure EolConfig where
  /-- `DELETE_EOL_CHROOTS_AFTER`. -/
  deleteEolChrootsAfter : DateTime := daysLong 180
  /-- `EOL_CHROOTS_NOTIFICATION_PERIOD`, in days. -/
  eolChrootsNotificationPeriod : Int := 80
  /-- `EOL_CHROOTS_EXPIRE_PERIOD`. -/
  eolChrootsExpirePeriod : DateTime := 43200000000
  /-- `ROLLING_CHROOTS_INACTIVITY_WARNING`, in days. -/
  rollingChrootsInactivityWarning : Int := 180
  /-- `ROLLING_CHROOTS_INACTIVITY_REMOVAL`. -/
  rollingChrootsInactivityRemoval : DateTime := daysLong 180
  deriving DecidableEq, Repr

/-- The actions of `alter-chroot`. -/
inductive AlterChrootAction
  /-- `activate`. -/
  | activate
  /-- `deactivate`. -/
  | deactivate
  /-- `eol`. -/
  | eol
  deriving DecidableEq, Repr

/-- What `alter-chroot` does to a chroot that is not deleted. -/
def AlterChrootAction.alter (cfg : EolConfig) (now : DateTime) (c : CoprChroot) :
    AlterChrootAction → CoprChroot
  | .activate =>
    { c with
      deleteAfter := none
      deleteNotify := none }
  | .deactivate => c
  | .eol => { c with deleteAfter := some (now + cfg.deleteEolChrootsAfter) }

/-- The key is kept. -/
@[simp] theorem AlterChrootAction.key_alter (action : AlterChrootAction) (cfg : EolConfig)
    (now : DateTime) (c : CoprChroot) : (action.alter cfg now c).key = c.key := by
  cases action <;> rfl

/-- `_update_copr_chroot`. -/
def CoprChroot.updateCoprChroot (c : CoprChroot) (period now : DateTime) : CoprChroot :=
  c.updateChroot { deleteAfter := some (now + period) }

/-- `extend`. -/
def CoprChroot.extend (cfg : EolConfig) (now : DateTime) (c : CoprChroot) : CoprChroot :=
  c.updateCoprChroot cfg.deleteEolChrootsAfter now

/-- The key is kept. -/
@[simp] theorem CoprChroot.key_extend (cfg : EolConfig) (now : DateTime) (c : CoprChroot) :
    (c.extend cfg now).key = c.key := rfl

/-- `expire`. -/
def CoprChroot.expire (cfg : EolConfig) (now : DateTime) (c : CoprChroot) : CoprChroot :=
  let notified := { c with deleteNotify := some now }
  notified.updateCoprChroot cfg.eolChrootsExpirePeriod now

/-- The key is kept. -/
@[simp] theorem CoprChroot.key_expire (cfg : EolConfig) (now : DateTime) (c : CoprChroot) :
    (c.expire cfg now).key = c.key := rfl

/-- `trigger_rolling_eol_policy` for a chroot that is marked. -/
def CoprChroot.mark (cfg : EolConfig) (now : DateTime) (c : CoprChroot) : CoprChroot :=
  c.updateCoprChroot cfg.rollingChrootsInactivityRemoval now

/-- The key is kept. -/
@[simp] theorem CoprChroot.key_mark (cfg : EolConfig) (now : DateTime) (c : CoprChroot) :
    (c.mark cfg now).key = c.key := rfl

/-- The end of `Notifier.notify`. -/
def CoprChroot.notify (now : DateTime) (c : CoprChroot) : CoprChroot :=
  { c with deleteNotify := some now }

/-- The key is kept. -/
@[simp] theorem CoprChroot.key_notify (now : DateTime) (c : CoprChroot) :
    (c.notify now).key = c.key := rfl

/-- `fixup_unnoticed_chroots` for a chroot that is prolonged. -/
def CoprChroot.prolong (prolongDays : Int) (now : DateTime) (c : CoprChroot) : CoprChroot :=
  { c with deleteAfter := some (now + daysLong prolongDays) }

/-- The key is kept. -/
@[simp] theorem CoprChroot.key_prolong (prolongDays : Int) (now : DateTime) (c : CoprChroot) :
    (c.prolong prolongDays now).key = c.key := rfl

/-- `Deleter.delete`. -/
def CoprChroot.delete (c : CoprChroot) : CoprChroot :=
  { c with
    deleted := true
    deleteAfter := none }

/-- The key is kept. -/
@[simp] theorem CoprChroot.key_delete (c : CoprChroot) :
    (c.delete).key = c.key := rfl

namespace EolDatabase

variable (cfg : EolConfig) (db : EolDatabase)

/-! ## Mock chroots -/

/-- `func_alter_chroot` for one name, which is a transaction of its own. Nothing happens under an
unknown name. -/
def funcAlterChroot (action : AlterChrootAction) (name : String) (now : DateTime) : EolDatabase :=
  if ¬ db.Known name then db
  else
    let edited : EolDatabase :=
      { db with
        mockChroots := db.mockChroots.update (fun m => decide (m.name = name))
          (fun m => { m with isActive := decide (action = AlterChrootAction.activate) })
          fun _ => rfl
        references := fun c member => by
          rw [Table.find_update, Option.isSome_map]
          exact db.references c member }
    edited.updateChroots (fun c => decide (c.mockChroot = name) && !c.deleted)
      (fun c => action.alter cfg now c) (action.key_alter cfg now)

/-- `create_chroot` of a mock chroot. -/
def createMockChroot (name : String) (activated : Bool) : EolDatabase :=
  { db with
    mockChroots := db.mockChroots.insert
      { name := name
        isActive := activated
        rolling := false }
    references := fun c member => by
      rw [Table.find_insert, Option.isSome_or, db.references c member, Bool.true_or] }

/-! ## Projects -/

/-- `CoprsLogic.add`: the project gets a new id. -/
def addProject (copr : CoprRow) (selectedChroots : List String) : EolDatabase :=
  if (db.coprs.find copr.id).isSome then db
  else { db with coprs := db.coprs.insert copr }.newFromNames copr.id selectedChroots

/-- The chroots of a project with an id that are active and not deleted: `active_copr_chroots`. -/
def activeCoprChroots (copr : Nat) : List CoprChroot :=
  db.coprChroots.rows.filter fun c =>
    decide (c.copr = copr) && (db.isActive c.mockChroot && !c.deleted)

/-- `ProjectForking.fork_copr` into a new project, which gets a new id. -/
def forkProject (copr id : Nat) (user ownerName name : String) : EolDatabase :=
  match db.coprs.find copr, db.coprs.find id with
  | some source, none =>
    let fcopr :=
      { source with
        id := id
        user := user
        ownerName := ownerName
        name := name
        approvedAdmins := []
        persistent := false }
    { db with coprs := db.coprs.insert fcopr }.addChroots
      ((db.activeCoprChroots copr).map fun chroot =>
        createChrootFrom chroot (some id) (some chroot.mockChroot))
      (List.forall_mem_map.mpr fun c member => db.references c (List.mem_of_mem_filter member))
  | _, _ => db

/-- The approved admins of a project change. -/
def updatePermissions (copr : Nat) (approvedAdmins : List String) : EolDatabase :=
  { db with
    coprs := db.coprs.update (fun row => decide (row.id = copr))
      (fun row => { row with approvedAdmins := approvedAdmins }) fun _ => rfl }

/-- `delete_unsafe`. -/
def deleteProject (copr : Nat) : EolDatabase :=
  { db with
    coprs := db.coprs.update (fun row => decide (row.id = copr))
      (fun row => { row with deleted := true }) fun _ => rfl }

/-- The clone of the rawhide chroot that `turn_on_the_chroot_for_copr` creates, unless there is a
chroot already. -/
def branchedChroot (copr : Nat) (rawhide dest : String) : List CoprChroot :=
  match db.coprChroots.find ⟨copr, dest⟩, db.coprChroots.find ⟨copr, rawhide⟩ with
  | none, some rawhideChroot => [createChrootFrom rawhideChroot none (some dest)]
  | _, _ => []

variable {db} in
/-- The clone is made when there is only the rawhide chroot. -/
theorem mem_branchedChroot {copr : Nat} {rawhide dest : String} {c : CoprChroot} :
    c ∈ db.branchedChroot copr rawhide dest ↔ db.coprChroots.find ⟨copr, dest⟩ = none ∧
      ∃ rawhideChroot, db.coprChroots.find ⟨copr, rawhide⟩ = some rawhideChroot ∧
        c = createChrootFrom rawhideChroot none (some dest) := by
  unfold branchedChroot
  cases db.coprChroots.find ⟨copr, dest⟩ with
  | some there => simp
  | none => cases db.coprChroots.find ⟨copr, rawhide⟩ <;> simp

variable {db} in
/-- The clone is for the new chroot. -/
theorem key_of_branchedChroot {copr : Nat} {rawhide dest : String} {c : CoprChroot}
    (member : c ∈ db.branchedChroot copr rawhide dest) : c.key = ⟨copr, dest⟩ := by
  obtain ⟨_, rawhideChroot, found, rfl⟩ := mem_branchedChroot.mp member
  have same : rawhideChroot.key = ⟨copr, rawhide⟩ := (Table.find_eq_some.mp found).2
  rw [← show rawhideChroot.copr = copr from congrArg ChrootKey.copr same]
  rfl

/-- `turn_on_the_chroot_for_copr`. -/
def turnOnTheChrootForCopr (copr : Nat) (rawhide dest : String) (known : db.Known dest) :
    EolDatabase :=
  db.addChroots (db.branchedChroot copr rawhide dest) fun c member => by
    rw [show c.mockChroot = dest from congrArg ChrootKey.mockChroot (key_of_branchedChroot member)]
    exact known

/-- `rawhide_to_release_function` for one project that has the rawhide chroot, which is a
transaction of its own. With `freshBuilds` some build is forked. -/
def rawhideToRelease (copr : Nat) (rawhide dest : String) (freshBuilds : Bool) (now : DateTime) :
    EolDatabase :=
  if known : db.Known dest ∧ (db.coprChroots.find ⟨copr, rawhide⟩).isSome then
    let turnedOn := db.turnOnTheChrootForCopr copr rawhide dest known.1
    if freshBuilds then
      turnedOn.updateChrootAt ⟨copr, dest⟩ (fun c => c.buildSubmitted now)
        fun c => c.key_buildSubmitted now
    else turnedOn
  else db

/-! ## The rolling policy -/

/-- The query of `trigger_rolling_eol_policy`. -/
def lifeless (now : DateTime) (c : CoprChroot) : Bool :=
  db.rolling c.mockChroot && (db.isActive c.mockChroot && (c.deleteAfter.isNone &&
    c.lastBuildTimestamp.any fun last =>
      decide (last < timestamp now - cfg.rollingChrootsInactivityWarning * 24 * 3600)))

/-- `trigger_rolling_eol_policy`. -/
def triggerRollingEolPolicy (now : DateTime) : EolDatabase :=
  db.updateChroots (db.lifeless cfg now) (CoprChroot.mark cfg now) (CoprChroot.key_mark cfg now)

/-! ## Notifications -/

/-- `filter_outdated` for the chroots of projects that are not deleted. Nothing in the query ties
the row of `MockChroot` to the chroot: `joinedload` takes no part in filters. -/
def filterOutdated (now : DateTime) : List CoprChroot :=
  db.coprChroots.rows.filter fun c =>
    (c.deleteAfter.any fun deleteAfter => decide (now ≤ deleteAfter)) && !c.deleted &&
      db.inLiveCopr c && db.mockChroots.rows.any fun m => !m.isActive || m.rolling

/-- `get_user_chroots_map`: the chroots that each admin is responsible for. -/
def getUserChrootsMap (now : DateTime) (emailFilter : String → Bool) :
    List (String × List ChrootKey) :=
  Dicts.group ((db.filterOutdated now).flatMap fun c =>
    (((db.coprs.find c.copr).elim [] CoprRow.getAdminsForCopr).filter emailFilter).map fun admin =>
      (admin, c.key))

/-- `filter_chroots` for one chroot. It sees what was written for the users before. -/
def dueForNotification (all : Bool) (now : DateTime) (notified : List ChrootKey)
    (k : ChrootKey) : Bool :=
  all ||
    match if k ∈ notified then some now
      else (db.coprChroots.find k).bind CoprChroot.deleteNotify with
    | none => true
    | some deleteNotify =>
      decide (cfg.eolChrootsNotificationPeriod ≤ (now - deleteNotify) / daysLong 1)

/-- The loop of `notify_outdated_chroots_function`: the chroots for which `Notifier.notify`
succeeds. -/
def notifyUsers (all : Bool) (sendMail : String → Bool) (now : DateTime) :
    List (String × List ChrootKey) → List ChrootKey → List ChrootKey
  | [], notified => notified
  | (user, chroots) :: rest, notified =>
    let due := chroots.filter (db.dueForNotification cfg all now notified)
    if due.isEmpty || !sendMail user then notifyUsers all sendMail now rest notified
    else notifyUsers all sendMail now rest (notified ++ due)

/-- The chroots for which `notify_outdated_chroots_function` sends mails. -/
def notified (all : Bool) (emailFilter sendMail : String → Bool) (now : DateTime) :
    List ChrootKey :=
  db.notifyUsers cfg all sendMail now (db.getUserChrootsMap now emailFilter) []

/-- `notify_outdated_chroots_function`. -/
def notifyOutdatedChroots (all : Bool) (emailFilter sendMail : String → Bool) (now : DateTime) :
    EolDatabase :=
  db.updateChroots (fun c => decide (c.key ∈ db.notified cfg all emailFilter sendMail now))
    (CoprChroot.notify now) (CoprChroot.key_notify now)

/-- The query of `should_already_be_noticed`, which does not tie `MockChroot` either. -/
def shouldAlreadyBeNoticed (remainingDays : Int) (now : DateTime) (c : CoprChroot) : Bool :=
  (c.deleteAfter.any fun deleteAfter => decide (deleteAfter < now + daysLong remainingDays)) &&
    !c.deleted && c.deleteNotify.isNone && db.inLiveCopr c &&
      db.mockChroots.rows.any fun m => !m.isActive

/-- `fixup_unnoticed_chroots`. -/
def fixupUnnoticedChroots (deleteAfterDays prolongDays : Int) (now : DateTime) : EolDatabase :=
  db.updateChroots (db.shouldAlreadyBeNoticed deleteAfterDays now)
    (CoprChroot.prolong prolongDays now) (CoprChroot.key_prolong prolongDays now)

/-! ## Deletions -/

/-- `filter_to_be_deleted` for the chroots of projects that are not deleted. -/
def filterToBeDeleted (now : DateTime) : List CoprChroot :=
  db.coprChroots.rows.filter fun c =>
    (c.deleteAfter.any fun deleteAfter => decide (deleteAfter < now)) &&
      (db.coprs.find c.copr).any fun copr => !copr.deleted && !copr.persistent

/-- The loop of `delete_outdated_chroots_function` over numbered chroots: the chroots whose deletion
is committed, given what was committed and what was not. -/
def deleteLoop (now : DateTime) :
    List (CoprChroot × Nat) → List CoprChroot → List CoprChroot → List CoprChroot
  | [], committed, pending => committed ++ pending
  | (chroot, i) :: rest, committed, pending =>
    match db.deleteStatus chroot now with
    -- The exception ends the command.
    | none => committed
    | some status =>
      if status ≠ .expired then deleteLoop now rest committed pending
      else if i % 1000 = 0 then deleteLoop now rest (committed ++ pending) [chroot]
      else deleteLoop now rest committed (pending ++ [chroot])

/-- The chroots that `delete_outdated_chroots_function` deletes. -/
def deletedChroots (now : DateTime) : List CoprChroot :=
  db.deleteLoop now ((db.filterToBeDeleted now).zipIdx 1) [] []

/-- The action of `send_delete_chroot`. -/
def sendDeleteChroot (c : CoprChroot) : Option DeleteChroot :=
  (db.coprs.find c.copr).map fun copr =>
    { ownername := copr.ownerName
      projectname := copr.name
      chrootname := c.mockChroot
      storage := copr.storage
      coprId := copr.id }

/-- `delete_outdated_chroots_function`. -/
def deleteOutdatedChroots (now : DateTime) : EolDatabase :=
  let deleted := db.deletedChroots now
  { db.updateChroots (fun c => decide (c ∈ deleted)) CoprChroot.delete CoprChroot.key_delete with
    deleteActions := db.deleteActions ++ deleted.filterMap db.sendDeleteChroot }

end EolDatabase

/-! ## Runs -/

/-- The operations on chroots. -/
inductive ChrootOperation
  /-- A mock chroot is created. -/
  | createMockChroot (name : String) (activated : Bool)
  /-- `alter-chroot`. -/
  | alterChroot (action : AlterChrootAction) (name : String) (now : DateTime)
  /-- A project is created. -/
  | addProject (copr : CoprRow) (selectedChroots : List String)
  /-- A project is forked. -/
  | forkProject (copr id : Nat) (user ownerName name : String)
  /-- The admins of a project change. -/
  | updatePermissions (copr : Nat) (approvedAdmins : List String)
  /-- A project is deleted. -/
  | deleteProject (copr : Nat)
  /-- The user selects the chroots of a project. -/
  | updateFromNames (copr : Nat) (names : List String) (unfinished : String → Bool)
    (now : DateTime)
  /-- The user changes the build configuration of a chroot. -/
  | updateChroot (k : ChrootKey) (args : UpdateArgs)
  /-- `extend`. -/
  | extend (k : ChrootKey) (now : DateTime)
  /-- `expire`. -/
  | expire (k : ChrootKey) (now : DateTime)
  /-- A build is submitted. -/
  | buildSubmitted (k : ChrootKey) (now : DateTime)
  /-- `eol-lifeless-rolling-chroots`. -/
  | triggerRollingEolPolicy (now : DateTime)
  /-- `rawhide-to-release`. -/
  | rawhideToRelease (copr : Nat) (rawhide dest : String) (freshBuilds : Bool) (now : DateTime)
  /-- `notify-outdated-chroots`. -/
  | notifyOutdatedChroots (all : Bool) (emailFilter sendMail : String → Bool) (now : DateTime)
  /-- `fixup-unnoticed-chroots`. -/
  | fixupUnnoticedChroots (deleteAfterDays prolongDays : Int) (now : DateTime)
  /-- `delete-outdated-chroots`. -/
  | deleteOutdatedChroots (now : DateTime)

/-- What an operation does. The views never give `update_chroot` one of the timestamps. -/
def EolDatabase.step (cfg : EolConfig) (db : EolDatabase) : ChrootOperation → EolDatabase
  | .createMockChroot name activated => db.createMockChroot name activated
  | .alterChroot action name now => db.funcAlterChroot cfg action name now
  | .addProject copr selectedChroots => db.addProject copr selectedChroots
  | .forkProject copr id user ownerName name => db.forkProject copr id user ownerName name
  | .updatePermissions copr approvedAdmins => db.updatePermissions copr approvedAdmins
  | .deleteProject copr => db.deleteProject copr
  | .updateFromNames copr names unfinished now => db.updateFromNames copr names unfinished now
  | .updateChroot k args => db.updateChrootAt k (fun c => c.updateChroot
      { args with
        deleteAfter := none
        deleteNotify := none }) fun c => c.key_updateChroot _
  | .extend k now => db.updateChrootAt k (CoprChroot.extend cfg now)
    (CoprChroot.key_extend cfg now)
  | .expire k now => db.updateChrootAt k (CoprChroot.expire cfg now)
    (CoprChroot.key_expire cfg now)
  | .buildSubmitted k now => db.updateChrootAt k (fun c => c.buildSubmitted now)
        fun c => c.key_buildSubmitted now
  | .triggerRollingEolPolicy now => db.triggerRollingEolPolicy cfg now
  | .rawhideToRelease copr rawhide dest freshBuilds now =>
    db.rawhideToRelease copr rawhide dest freshBuilds now
  | .notifyOutdatedChroots all emailFilter sendMail now =>
    db.notifyOutdatedChroots cfg all emailFilter sendMail now
  | .fixupUnnoticedChroots deleteAfterDays prolongDays now =>
    db.fixupUnnoticedChroots deleteAfterDays prolongDays now
  | .deleteOutdatedChroots now => db.deleteOutdatedChroots now

end Copr
