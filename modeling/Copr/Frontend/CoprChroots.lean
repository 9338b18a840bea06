import Copr.Lib.Tables
import Copr.Common.ActionData

/-!
# Chroots of projects

The rows of `CoprChroot` with the functions of `models.py` and `CoprChrootsLogic` that read and
write them: `delete_status`, `update_chroot`, `create_chroot`, `create_chroot_from`,
`update_from_names` and `remove_copr_chroot`. Requests without permission are refused and change
nothing; they are left out.
-/

namespace Copr

open Tables

/-! ## Rows -/

/-- A `datetime`, in microseconds. -/
abbrev DateTime := Int

/-- `timedelta(days=n)`. -/
def daysLong (n : Int) : DateTime := n * 86400000000

/-- `int(datetime.timestamp())`. -/
def timestamp (t : DateTime) : Int := t.tdiv 1000000

/-- A row of `MockChroot`. -/
structure MockChrootRow where
  /-- `name`, which is unique. -/
  name : String
  /-- `is_active`. -/
  isActive : Bool
  /-- `rolling`. -/
  rolling : Bool
  deriving DecidableEq, Repr

/-- A row of `Copr`. -/
structure CoprRow where
  /-- `id`. -/
  id : Nat
  /-- `owner_name`. -/
  ownerName : String
  /-- `name`. -/
  name : String
  /-- `user`. -/
  user : String
  /-- The users with an approved `copr_admin` permission. -/
  approvedAdmins : List String
  /-- `storage`. -/
  storage : StorageEnum
  /-- `persistent`. -/
  persistent : Bool
  /-- `deleted`. -/
  deleted : Bool
  deriving DecidableEq, Repr

/-- `CoprPermissionsLogic.get_admins_for_copr`. -/
def CoprRow.getAdminsForCopr (copr : CoprRow) : List String := copr.user :: copr.approvedAdmins

/-- The build configuration in a row of `CoprChroot`, with the defaults of the columns. -/
structure BuildConfig where
  /-- `buildroot_pkgs`. -/
  buildrootPkgs : Option String := none
  /-- `repos`. -/
  repos : String := ""
  /-- `comps_name`. -/
  compsName : Option String := none
  /-- What `comps_zlib` contains. -/
  comps : Option String := none
  /-- `with_opts`. -/
  withOpts : String := ""
  /-- `without_opts`. -/
  withoutOpts : String := ""
  /-- `module_toggle`. -/
  moduleToggle : Option String := none
  /-- `bootstrap`. -/
  bootstrap : Option String := none
  /-- `bootstrap_image`. -/
  bootstrapImage : Option String := none
  /-- `isolation`. -/
  isolation : Option String := some "unchanged"
  deriving DecidableEq, Repr

/-- A row of `CoprChroot`. -/
structure CoprChroot where
  /-- `copr_id`. -/
  copr : Nat
  /-- The name of `mock_chroot`. -/
  mockChroot : String
  /-- The build configuration. -/
  config : BuildConfig := {}
  /-- `deleted`: it was unclicked or its data was deleted. -/
  deleted : Bool := false
  /-- `delete_after`. -/
  deleteAfter : Option DateTime := none
  /-- `delete_notify`. -/
  deleteNotify : Option DateTime := none
  /-- `last_build_timestamp`. -/
  lastBuildTimestamp : Option Int := none
  deriving DecidableEq, Repr

/-- The unique constraint of `CoprChroot`. -/
structure ChrootKey where
  /-- `copr_id`. -/
  copr : Nat
  /-- The name of `mock_chroot`. -/
  mockChroot : String
  deriving DecidableEq, Repr

/-- The key of a row. -/
def CoprChroot.key (c : CoprChroot) : ChrootKey := ⟨c.copr, c.mockChroot⟩

/-! ## `delete_status` -/

/-- `ChrootDeletionStatus`. -/
inductive ChrootDeletionStatus
  /-- Enabled, and nothing is going to be deleted. -/
  | active
  /-- Deactivated, not EOL. -/
  | deactivated
  /-- The preservation period is not over, or nobody could be notified. -/
  | preserved
  /-- The data may be deleted. -/
  | expired
  /-- The data was deleted. -/
  | deleted
  deriving DecidableEq, Repr

/-- `delete_status`; `none` when it raises `RuntimeError`. -/
def CoprChroot.deleteStatus (c : CoprChroot) (isActive rolling : Bool) (now : DateTime) :
    Option ChrootDeletionStatus :=
  if c.deleted then
    match c.deleteAfter with
    | none => some .deleted
    | some deleteAfter => if deleteAfter < now then some .expired else some .preserved
  else if !isActive then
    if c.deleteAfter.isNone && c.deleteNotify.isNone then some .deactivated
    else if c.deleteNotify.isNone then some .preserved
    else
      match c.deleteAfter with
      | none => some .deleted
      | some deleteAfter => if deleteAfter < now then some .expired else some .preserved
  else if c.deleteAfter.isNone && c.deleteNotify.isNone then some .active
  else
    match c.deleteAfter, rolling with
    | some deleteAfter, true =>
      if c.deleteNotify.isNone then some .preserved
      else if deleteAfter < now then some .expired
      else some .preserved
    | _, _ => none

/-- The status is defined: unclicked and inactive chroots have one, others when nothing is set or
a rolling chroot is going to be deleted. -/
def CoprChroot.Defined (c : CoprChroot) (isActive rolling : Bool) : Prop :=
  c.deleted = true ∨ isActive = false ∨ (c.deleteAfter = none ∧ c.deleteNotify = none) ∨
    (c.deleteAfter ≠ none ∧ rolling = true)

/-- Whether there is a status does not depend on the time. -/
theorem CoprChroot.deleteStatus_isSome {c : CoprChroot} {isActive rolling : Bool}
    {now : DateTime} :
    (c.deleteStatus isActive rolling now).isSome = true ↔ c.Defined isActive rolling := by
  unfold deleteStatus Defined
  cases c.deleted <;> cases isActive <;> cases rolling <;> cases c.deleteAfter <;>
    cases c.deleteNotify <;> simp [apply_ite Option.isSome]

/-- Only what was unclicked or deleted before, or what its users were notified about, expires. -/
theorem CoprChroot.deleteStatus_expired {c : CoprChroot} {isActive rolling : Bool}
    {now : DateTime} (expired : c.deleteStatus isActive rolling now = some .expired) :
    c.deleteAfter.isSome = true ∧ (c.deleted = true ∨ c.deleteNotify.isSome = true) := by
  unfold deleteStatus at expired
  revert expired
  cases c.deleted <;> cases isActive <;> cases rolling <;> cases c.deleteAfter <;>
    cases c.deleteNotify <;> simp

/-! ## `update_chroot` -/

/-- The keyword arguments of `update_chroot`, with their defaults. -/
structure UpdateArgs where
  /-- `buildroot_pkgs`. -/
  buildrootPkgs : Option String := none
  /-- `repos`. -/
  repos : Option String := none
  /-- `comps`. -/
  comps : Option String := none
  /-- `comps_name`. -/
  compsName : Option String := none
  /-- `with_opts`. -/
  withOpts : Option String := some ""
  /-- `without_opts`. -/
  withoutOpts : Option String := some ""
  /-- `delete_after`. -/
  deleteAfter : Option DateTime := none
  /-- `delete_notify`. -/
  deleteNotify : Option DateTime := none
  /-- `module_toggle`. -/
  moduleToggle : Option String := some ""
  /-- `bootstrap`. -/
  bootstrap : Option String := none
  /-- `bootstrap_image`. -/
  bootstrapImage : Option String := none
  /-- `isolation`. -/
  isolation : Option String := none
  deriving DecidableEq, Repr

/-- `_update_chroot` for the build configuration: arguments that are `None` keep the value. -/
def BuildConfig.update (config : BuildConfig) (args : UpdateArgs) : BuildConfig where
  buildrootPkgs := args.buildrootPkgs.or config.buildrootPkgs
  repos := (args.repos.map fun repos => repos.map fun c => if c = '\n' then ' ' else c).getD
    config.repos
  compsName := args.compsName.or config.compsName
  comps := if args.compsName.isSome then args.comps else config.comps
  withOpts := args.withOpts.getD config.withOpts
  withoutOpts := args.withoutOpts.getD config.withoutOpts
  moduleToggle := args.moduleToggle.or config.moduleToggle
  bootstrap :=
    -- An image without a kind of bootstrap means that the image is to be used.
    if args.bootstrapImage.isSome &&
        args.bootstrap.all fun bootstrap => decide (bootstrap = "") then
      some "custom_image"
    else args.bootstrap.or config.bootstrap
  bootstrapImage := args.bootstrapImage.or config.bootstrapImage
  isolation := args.isolation.or config.isolation

/-- `_update_chroot`. -/
def CoprChroot.updateChroot (c : CoprChroot) (args : UpdateArgs) : CoprChroot :=
  { c with
    config := c.config.update args
    deleteAfter := args.deleteAfter.or c.deleteAfter
    deleteNotify := args.deleteNotify.or c.deleteNotify }

/-- The key is kept. -/
@[simp] theorem CoprChroot.key_updateChroot (c : CoprChroot) (args : UpdateArgs) :
    (c.updateChroot args).key = c.key := rfl

/-- What the life cycle does to a build configuration when it sets `delete_after`. -/
theorem BuildConfig.update_default (config : BuildConfig) (deleteAfter : Option DateTime) :
    config.update { deleteAfter := deleteAfter } =
      { config with
        withOpts := ""
        withoutOpts := ""
        moduleToggle := some "" } := by
  simp [BuildConfig.update]

/-- `create_chroot`. -/
def createChroot (copr : Nat) (mockChroot : String) : CoprChroot :=
  let created : CoprChroot :=
    { copr := copr
      mockChroot := mockChroot }
  created.updateChroot
    { buildrootPkgs := some ""
      repos := some "" }

/-- `create_chroot_from`: a clone for another project or another chroot. -/
def createChrootFrom (fromCoprChroot : CoprChroot) (copr : Option Nat)
    (mockChroot : Option String) : CoprChroot :=
  { fromCoprChroot with
    copr := copr.getD fromCoprChroot.copr
    mockChroot := mockChroot.getD fromCoprChroot.mockChroot }

/-- `build_submitted`. -/
def CoprChroot.buildSubmitted (c : CoprChroot) (now : DateTime) : CoprChroot :=
  { c with
    deleteAfter := none
    lastBuildTimestamp := some (timestamp now)
    deleteNotify := none }

/-- The key is kept. -/
@[simp] theorem CoprChroot.key_buildSubmitted (c : CoprChroot) (now : DateTime) :
    (c.buildSubmitted now).key = c.key := rfl

/-- The end of the loop in `update_from_names`: the chroot is (re-)enabled. -/
def CoprChroot.enable (c : CoprChroot) : CoprChroot :=
  { c with
    deleted := false
    deleteAfter := none }

/-- The key is kept. -/
@[simp] theorem CoprChroot.key_enable (c : CoprChroot) : c.enable.key = c.key := rfl

/-- `remove_copr_chroot` for a chroot that is not deleted. -/
def CoprChroot.remove (c : CoprChroot) (now : DateTime) : CoprChroot :=
  { c with
    deleteAfter := some (now + daysLong 7)
    deleted := true }

/-- The key is kept. -/
@[simp] theorem CoprChroot.key_remove (c : CoprChroot) (now : DateTime) :
    (c.remove now).key = c.key := rfl

/-! ## The database -/

/-- The `data` of a delete action for a chroot, with the id of the project. -/
structure DeleteChroot where
  /-- `ownername`. -/
  ownername : String
  /-- `projectname`. -/
  projectname : String
  /-- `chrootname`. -/
  chrootname : String
  /-- `storage`. -/
  storage : StorageEnum
  /-- `copr_id`. -/
  coprId : Nat
  deriving DecidableEq, Repr

/-- The tables. -/
structure EolDatabase where
  /-- `MockChroot`. -/
  mockChroots : Table MockChrootRow.name
  /-- `Copr`. -/
  coprs : Table CoprRow.id
  /-- `CoprChroot`. -/
  coprChroots : Table CoprChroot.key
  /-- The delete actions for chroots that were sent, the oldest first. -/
  deleteActions : List DeleteChroot := []
  /-- The foreign key of `CoprChroot`. -/
  references : ∀ c ∈ coprChroots.rows, (mockChroots.find c.mockChroot).isSome = true

namespace EolDatabase

variable (db : EolDatabase)

/-- A mock chroot is in the database. -/
def Known (mockChroot : String) : Prop := (db.mockChroots.find mockChroot).isSome = true

/-- It can be looked up. -/
instance (mockChroot : String) : Decidable (db.Known mockChroot) :=
  inferInstanceAs (Decidable ((db.mockChroots.find mockChroot).isSome = true))

/-- `is_active` of a mock chroot. -/
def isActive (mockChroot : String) : Bool :=
  (db.mockChroots.find mockChroot).any fun m => m.isActive

/-- `rolling` of a mock chroot. -/
def rolling (mockChroot : String) : Bool :=
  (db.mockChroots.find mockChroot).any fun m => m.rolling

/-- `delete_status` of a chroot. -/
def deleteStatus (c : CoprChroot) (now : DateTime) : Option ChrootDeletionStatus :=
  c.deleteStatus (db.isActive c.mockChroot) (db.rolling c.mockChroot) now

/-- The project of a chroot is not deleted. -/
def inLiveCopr (c : CoprChroot) : Bool := (db.coprs.find c.copr).any fun copr => !copr.deleted

/-- Some chroots are changed. -/
def updateChroots (selected : CoprChroot → Bool) (change : CoprChroot → CoprChroot)
    (keeps : ∀ c, (change c).key = c.key) : EolDatabase :=
  { db with
    coprChroots := db.coprChroots.update selected change keeps
    references := by
      intro c member
      obtain ⟨before, listed, same⟩ := Table.mem_update.mp member
      have kept : c.key = before.key := by
        rw [← same]
        split
        · exact keeps before
        · rfl
      rw [show c.mockChroot = before.mockChroot from congrArg ChrootKey.mockChroot kept]
      exact db.references before listed }

/-- The chroot with a key is changed. -/
def updateChrootAt (k : ChrootKey) (change : CoprChroot → CoprChroot)
    (keeps : ∀ c, (change c).key = c.key) : EolDatabase :=
  db.updateChroots (fun c => decide (c.key = k)) change keeps

/-- Chroots of known mock chroots are added. -/
def addChroots (added : List CoprChroot) (known : ∀ c ∈ added, db.Known c.mockChroot) :
    EolDatabase :=
  { db with
    coprChroots := db.coprChroots.insertAll added
    references := fun c member =>
      (Table.mem_insertAll member).elim (db.references c) (known c) }

/-- `mock_chroots_from_names`. -/
def mockChrootsFromNames (names : List String) : List String :=
  (db.mockChroots.rows.filter fun m => decide (m.name ∈ names)).map MockChrootRow.name

variable {db} in
/-- The names are those of mock chroots. -/
theorem known_of_mem {names : List String} {name : String}
    (member : name ∈ db.mockChrootsFromNames names) : db.Known name := by
  obtain ⟨m, listed, rfl⟩ := List.mem_map.mp member
  rw [Known, Table.find_of_mem (List.mem_of_mem_filter listed)]
  rfl

/-- `new_from_names`. -/
def newFromNames (copr : Nat) (names : List String) : EolDatabase :=
  db.addChroots
    ((db.mockChrootsFromNames names).map fun name =>
      { copr := copr
        mockChroot := name })
    (List.forall_mem_map.mpr fun _ => known_of_mem)

/-- A chroot is re-enabled by `update_from_names` for some mock chroots. -/
def reEnables (copr : Nat) (newMockChroots : List String) (c : CoprChroot) : Bool :=
  decide (c.copr = copr) && decide (c.mockChroot ∈ newMockChroots) && c.deleted

/-- A chroot is among those that `update_from_names` drops. -/
def toRemove (copr : Nat) (newMockChroots : List String) (c : CoprChroot) : Bool :=
  decide (c.copr = copr) && decide (c.mockChroot ∉ newMockChroots) && db.isActive c.mockChroot

/-- `update_from_names` raises `ConflictingRequest`: a build is in progress in a chroot that is
dropped. -/
def conflicts (copr : Nat) (newMockChroots : List String) (unfinished : String → Bool) : Bool :=
  db.coprChroots.rows.any fun c => db.toRemove copr newMockChroots c && unfinished c.mockChroot

/-- `update_from_names`. An exception rolls everything back. -/
def updateFromNames (copr : Nat) (names : List String) (unfinished : String → Bool)
    (now : DateTime) : EolDatabase :=
  let newMockChroots := db.mockChrootsFromNames names
  if db.conflicts copr newMockChroots unfinished then db
  else
    let enabled := db.updateChroots (reEnables copr newMockChroots) CoprChroot.enable
      CoprChroot.key_enable
    let created := enabled.addChroots
      (newMockChroots.map fun name => (createChroot copr name).enable)
      (List.forall_mem_map.mpr fun _ => known_of_mem)
    created.updateChroots (fun c => db.toRemove copr newMockChroots c && !c.deleted)
      (fun c => c.remove now) fun c => c.key_remove now

end EolDatabase

end Copr
