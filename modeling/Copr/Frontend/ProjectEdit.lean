import Copr.Frontend.ChrootSteps
import Copr.Frontend.GrantedPermissions
import Copr.Frontend.ProjectForm

/-!
# Editing a project

`ProjectEdit` of `coprs/views/apiv3_ns/apiv3_projects.py`: the fields of the form that a request
supplies are copied to the attributes of the project, some of which are properties with a meaning of
their own, and the chroots are enabled and disabled. For which requests the project gets exactly
what was asked for.
-/

namespace Copr

open Tables

/-! ## The project -/

/-- The columns of `Copr` that hold settings, apart from `delete_after`. -/
inductive CoprColumn
  /-- `description`. -/
  | description
  /-- `instructions`. -/
  | instructions
  /-- `homepage`. -/
  | homepage
  /-- `contact`. -/
  | contact
  /-- `repos`. -/
  | repos
  /-- `runtime_dependencies`. -/
  | runtimeDependencies
  /-- `auto_createrepo`. -/
  | autoCreaterepo
  /-- `unlisted_on_hp`. -/
  | unlistedOnHp
  /-- `persistent`. -/
  | persistent
  /-- `auto_prune`. -/
  | autoPrune
  /-- `bootstrap`. -/
  | bootstrap
  /-- `isolation`. -/
  | isolation
  /-- `follow_fedora_branching`. -/
  | followFedoraBranching
  /-- `multilib`. -/
  | multilib
  /-- `build_enable_net`. -/
  | buildEnableNet
  /-- `module_hotfixes`. -/
  | moduleHotfixes
  /-- `fedora_review`. -/
  | fedoraReview
  /-- `appstream`. -/
  | appstream
  /-- `packit_forge_projects_allowed`. -/
  | packitForgeProjectsAllowed
  /-- `repo_priority`. -/
  | repoPriority
  /-- `storage`. -/
  | storage
  deriving DecidableEq

/-- All columns. -/
def CoprColumn.all : List CoprColumn :=
  [description, instructions, homepage, contact, repos, runtimeDependencies, autoCreaterepo,
    unlistedOnHp, persistent, autoPrune, bootstrap, isolation, followFedoraBranching, multilib,
    buildEnableNet, moduleHotfixes, fedoraReview, appstream, packitForgeProjectsAllowed,
    repoPriority, storage]

/-- The settings of a project. -/
structure CoprSettings where
  /-- The values of the columns; nothing stands for `NULL`. -/
  columns : CoprColumn → Option FormScalar
  /-- `delete_after`. -/
  deleteAfter : Option DateTime

namespace CoprSettings

variable (s : CoprSettings)

/-- A column gets a value. -/
def set (c : CoprColumn) (v : FormScalar) : CoprSettings :=
  { s with columns := fun other => if other = c then some v else s.columns other }

/-- The setter of `delete_after_days`. -/
def setDeleteAfterDays (now : DateTime) (days : Int) : CoprSettings :=
  { s with
    deleteAfter :=
      if days = -1 then none
      else some ((now + daysLong (days + 1)) / daysLong 1 * daysLong 1) }

/-- `delete_after_days`. -/
def deleteAfterDays (now : DateTime) : Option Int :=
  s.deleteAfter.map fun deleteAfter => max 0 ((deleteAfter - now) / daysLong 1)

end CoprSettings

/-- A project with the chroots of all projects. -/
structure EditState where
  /-- The settings of the project. -/
  settings : CoprSettings
  /-- The chroots. -/
  db : EolDatabase

/-- `active_chroots` has a chroot of this name. -/
def EolDatabase.enabledIn (db : EolDatabase) (copr : Nat) (name : String) : Bool :=
  db.isActive name && (db.coprChroots.find ⟨copr, name⟩).any fun c => !c.deleted

/-! ## The edit -/

/-- Why an edit fails. -/
inductive EditError
  /-- `InvalidForm`. -/
  | invalidForm
  /-- `BadRequest` of `validate_chroots`. -/
  | unexpectedChroot (message : String)
  /-- `InsufficientRightsException`. -/
  | insufficientRights
  /-- `NonAdminCannotDisableAutoPrunning`. -/
  | nonAdminCannotDisableAutoPrunning
  /-- `ConflictingRequest` of `update_from_names`. -/
  | conflictingRequest
  /-- Another exception. -/
  | serverError
  deriving DecidableEq

/-- The column that an attribute of a project stands for. The two fields without an attribute in the
model become attributes of the object in memory only. -/
def ProjectField.column : ProjectField → Option CoprColumn
  | description => some .description
  | instructions => some .instructions
  | homepage => some .homepage
  | contact => some .contact
  | deleteAfterDays => none
  | repos => some .repos
  | runtimeDependencies => some .runtimeDependencies
  | initialPkgs => none
  | disableCreaterepo => some .autoCreaterepo
  | unlistedOnHp => some .unlistedOnHp
  | autoPrune => some .autoPrune
  | useBootstrapContainer => none
  | bootstrap => some .bootstrap
  | isolation => some .isolation
  | followFedoraBranching => some .followFedoraBranching
  | multilib => some .multilib
  | buildEnableNet => some .buildEnableNet
  | enableNet => some .buildEnableNet
  | moduleHotfixes => some .moduleHotfixes
  | fedoraReview => some .fedoraReview
  | appstream => some .appstream
  | packitForgeProjectsAllowed => some .packitForgeProjectsAllowed
  | repoPriority => some .repoPriority
  | storage => some .storage

/-- What a column stores for the value of a field: the setter of `disable_createrepo` turns it
around. -/
def ProjectField.stored : ProjectField → FormScalar → FormScalar
  | disableCreaterepo, v => .bool (!v.truthy)
  | _, v => v

/-- `setattr(copr, field.name, value)`. -/
def setattr (now : DateTime) (s : CoprSettings) (f : ProjectField) (v : FormScalar) :
    Except EditError CoprSettings :=
  match f, v with
  | .deleteAfterDays, .int days => .ok (s.setDeleteAfterDays now days)
  | .deleteAfterDays, _ => .error .serverError
  -- `validate_repo_priority` of the model.
  | .repoPriority, .int n => if n < 1 then .error .serverError else .ok (s.set .repoPriority v)
  | .repoPriority, _ => .error .serverError
  | f, v =>
    match f.column with
    | some c => .ok (s.set c (f.stored v))
    | none => .ok s

section Edit

variable (lib : TextLibrary) (now : DateTime) (input : FormInput)

/-- `field.data` of a form that could be created. -/
def fieldData (f : ProjectField) : Option FormScalar :=
  (f.process lib (input.raw f)).bind ProcessedField.data

/-- The value that is copied: neither missing in the data nor `None`. -/
def given (f : ProjectField) : Option FormScalar :=
  if input.Supplies f then fieldData lib input f else none

/-- One round of the loop that copies the fields. -/
def assign (s : CoprSettings) (f : ProjectField) : Except EditError CoprSettings :=
  match given lib input f with
  | none => .ok s
  | some v => setattr now s f v

/-- `form.chroots.data`. An empty list is no value of the data. -/
def chrootsData : List String :=
  match input.chroots with
  | some (.scalar v) => [lib.toText v]
  | some (.list items) => items
  | _ => []

/-- `validate_on_submit`. -/
def validateOnSubmit (activeNames : List String) : Bool :=
  (ProjectField.all.all fun f =>
    (f.process lib (input.raw f)).any (f.validate lib (input.raw f))) &&
  (chrootsData lib input).all fun name => decide (name ∈ activeNames)

/-- `inserted` of `validate_chroots`. The elements of a text are its characters. -/
def insertedChroots : Except EditError (List String) :=
  match input.chroots with
  | some (.scalar v) =>
    if !v.truthy then .ok []
    else
      match v with
      | .text s => .ok (s.toList.map fun c => String.ofList [c])
      | _ => .error .serverError
  | some (.list items) => .ok items
  | _ => .ok []

/-- `validate_chroots`. -/
def validateChroots (allowed : List String) : Except EditError Unit :=
  match insertedChroots input with
  | .error e => .error e
  | .ok inserted =>
    let unexpected := (inserted.filter fun name => decide (name ∉ allowed)).dedup
    if unexpected = [] then .ok ()
    else .error (.unexpectedChroot ("Unexpected chroot: " ++ ", ".intercalate unexpected))

/-- `StorageEnum(copr.storage)` of the response does not raise. -/
def storageKnown (s : CoprSettings) : Bool :=
  decide (s.columns .storage ∈
    [some (.int 0), some (.int 1), some (.text "backend"), some (.text "pulp")])

/-- `update_from_names`, with the check of its caller that there are names. -/
def updateChroots (allowed : Bool) (copr : Nat) (unfinished : String → Bool) (names : List String)
    (db : EolDatabase) : Except EditError EolDatabase :=
  if names = [] then .ok db
  else if !allowed then .error .insufficientRights
  else if db.conflicts copr (db.mockChrootsFromNames names) unfinished then
    .error .conflictingRequest
  else .ok (db.updateFromNames copr names unfinished now)

/-- `ProjectEdit._common`. Which values the database takes for a column is a parameter, as are the
mock chroots of the project in which builds are in progress. An error rolls everything back. -/
def editProject (accepts : CoprColumn → Option FormScalar → Bool)
    (permissions : List CoprPermission) (user : User) (copr : Project)
    (unfinished : String → Bool) (state : EditState) : Except EditError EditState :=
  let mockNames := state.db.mockChroots.rows.map MockChrootRow.name
  if ProjectField.all.any fun f => (f.process lib (input.raw f)).isNone then .error .serverError
  else if !validateOnSubmit lib input (mockNames.filter state.db.isActive) then
    .error .invalidForm
  else
    match validateChroots input mockNames with
    | .error e => .error e
    | .ok () =>
      match ProjectField.all.foldlM (assign lib now input) state.settings with
      | .error e => .error e
      | .ok settings =>
        let allowed := CoprPermissionsLogic.mayUpdate permissions user copr
        match updateChroots now allowed copr.id unfinished (chrootsData lib input) state.db with
        | .error e => .error e
        | .ok db =>
          if !allowed then .error .insufficientRights
          else if !user.admin && !(settings.columns .autoPrune).any FormScalar.truthy then
            .error .nonAdminCannotDisableAutoPrunning
          else if !CoprColumn.all.all fun c => accepts c (settings.columns c) then
            .error .serverError
          else if !storageKnown settings then .error .serverError
          else .ok ⟨settings, db⟩

end Edit

/-! ## What was asked for -/

/-- What a column holds when a field was set to a value: the number of a storage, and the opposite
for the field that is turned around. -/
def ProjectField.meant : ProjectField → FormScalar → FormScalar
  | disableCreaterepo, v => .bool (!v.truthy)
  | storage, .text "backend" => .int 0
  | storage, .text "pulp" => .int 1
  | _, v => v

/-- A project has the value of a field. The project is deleted after a number of days that counts
from the day of the edit, and the old field for the bootstrap container means two of the values of
the new one, as it does for a new project. -/
def Gives (now : DateTime) (s : CoprSettings) : ProjectField → Option FormScalar → Prop
  | .deleteAfterDays, some (.int days) =>
    if days = -1 then s.deleteAfter = none
    else ∀ later, now < later → later / daysLong 1 = now / daysLong 1 →
      s.deleteAfterDays later = some days
  | .useBootstrapContainer, some v =>
    s.columns .bootstrap = some (.text (if v.truthy then "on" else "off"))
  | f, v => ∀ c, f.column = some c → s.columns c = v.map f.meant

section Claim

variable (lib : TextLibrary) (now : DateTime) (input : FormInput) (user : User) (copr : Project)
  (before after : EditState)

/-- An edit changes exactly what was asked for. -/
structure EditsExactly : Prop where
  /-- Columns whose fields were not supplied are kept. -/
  columns : ∀ c, (∀ f : ProjectField, f.column = some c → ¬input.Supplies f) →
    after.settings.columns c = before.settings.columns c
  /-- So is `delete_after`. -/
  deleteAfter : ¬input.Supplies .deleteAfterDays →
    after.settings.deleteAfter = before.settings.deleteAfter
  /-- So are the chroots. -/
  chroots : input.chroots = none → after.db = before.db
  /-- Supplied fields get their values. -/
  fields : ∀ f, input.Supplies f → Gives now after.settings f (fieldData lib input f)
  /-- So do the chroots. -/
  enabled : input.chroots ≠ none →
    ∀ name, after.db.enabledIn copr.id name = true ↔ name ∈ chrootsData lib input
  /-- What only administrators may change. -/
  adminOnly : user.admin = false →
    after.settings.columns .storage = before.settings.columns .storage ∧
      after.settings.columns .persistent = before.settings.columns .persistent ∧
      ((after.settings.columns .autoPrune).any FormScalar.truthy = false →
        (before.settings.columns .autoPrune).any FormScalar.truthy = false)

/-- A request that the edit does justice to. -/
structure CleanEdit : Prop where
  /-- Only columns that are empty are emptied. -/
  emptied : ∀ (f : ProjectField) c, f.column = some c → input.Supplies f →
    fieldData lib input f = none → before.settings.columns c = none
  /-- The two fields for the network agree. -/
  network : input.Supplies .buildEnableNet → input.Supplies .enableNet →
    fieldData lib input .buildEnableNet = fieldData lib input .enableNet
  /-- The old field for the bootstrap container says what the new one says, or what is set. -/
  bootstrap : ∀ v, given lib input .useBootstrapContainer = some v →
    (given lib input .bootstrap).or (before.settings.columns .bootstrap) =
      some (.text (if v.truthy then "on" else "off"))
  /-- The storage is left alone. -/
  storage : ¬input.Supplies .storage
  /-- Chroots are all disabled only where none is enabled. -/
  chroots : input.chroots ≠ none → chrootsData lib input = [] →
    ∀ name, before.db.enabledIn copr.id name = false

end Claim

/-! ## The loop -/

section Loop

variable {lib : TextLibrary} {now : DateTime} {input : FormInput} {s s' : CoprSettings}

/-- What `setattr` does to a column. -/
theorem setattr_columns {f : ProjectField} {v : FormScalar} (set : setattr now s f v = .ok s')
    (c : CoprColumn) :
    s'.columns c = if f.column = some c then some (f.stored v) else s.columns c := by
  have simple : ∀ own, (Except.ok (s.set own (f.stored v)) : Except EditError CoprSettings) =
      .ok s' → f.column = some own →
        s'.columns c = if f.column = some c then some (f.stored v) else s.columns c := by
    intro own same column
    rw [← Except.ok.inj same, column]
    simp only [CoprSettings.set, Option.some_inj, eq_comm]
  cases f
  case deleteAfterDays =>
    cases v with
    | int days =>
      rw [← Except.ok.inj set]
      rfl
    | _ => cases set
  case repoPriority =>
    cases v with
    | int n =>
      simp only [setattr] at set
      split at set
      · cases set
      · exact simple .repoPriority set rfl
    | _ => cases set
  case initialPkgs =>
    rw [← Except.ok.inj set]
    rfl
  case useBootstrapContainer =>
    rw [← Except.ok.inj set]
    rfl
  all_goals exact simple _ set rfl

/-- What `setattr` does to `delete_after`. -/
theorem setattr_deleteAfter {f : ProjectField} {v : FormScalar}
    (set : setattr now s f v = .ok s') :
    (f ≠ .deleteAfterDays → s'.deleteAfter = s.deleteAfter) ∧
      (f = .deleteAfterDays → ∃ days, v = .int days ∧ s' = s.setDeleteAfterDays now days) := by
  cases f
  case deleteAfterDays =>
    cases v with
    | int days =>
      exact ⟨fun other => absurd rfl other, fun _ => ⟨days, rfl, (Except.ok.inj set).symm⟩⟩
    | _ => cases set
  case repoPriority =>
    cases v with
    | int n =>
      simp only [setattr] at set
      split at set
      · cases set
      · exact ⟨fun _ => (congrArg CoprSettings.deleteAfter (Except.ok.inj set)).symm,
          fun same => by cases same⟩
    | _ => cases set
  all_goals exact ⟨fun _ => (congrArg CoprSettings.deleteAfter (Except.ok.inj set)).symm,
    fun same => by cases same⟩

/-- A round of the loop sets the column of a given field. -/
theorem assign_columns {f : ProjectField} (assigned : assign lib now input s f = .ok s')
    (c : CoprColumn) :
    s'.columns c =
      if f.column = some c then ((given lib input f).map f.stored).or (s.columns c)
      else s.columns c := by
  unfold assign at assigned
  cases value : given lib input f with
  | none =>
    rw [value] at assigned
    rw [← Except.ok.inj assigned]
    simp
  | some v =>
    rw [value] at assigned
    rw [setattr_columns assigned c]
    rfl

/-- What the loop does to a column, field by field. -/
theorem fold_columns {fields : List ProjectField}
    (folded : fields.foldlM (assign lib now input) s = .ok s') (c : CoprColumn) :
    s'.columns c = fields.foldl (fun old f =>
      if f.column = some c then ((given lib input f).map f.stored).or old else old)
        (s.columns c) := by
  induction fields generalizing s with
  | nil =>
    rw [← Except.ok.inj folded]
    rfl
  | cons f fields ih =>
    rw [List.foldlM_cons] at folded
    cases assigned : assign lib now input s f with
    | error e =>
      rw [assigned] at folded
      cases folded
    | ok s1 =>
      rw [assigned] at folded
      rw [ih folded, List.foldl_cons, assign_columns assigned c]

/-- What the loop does to `delete_after`. -/
theorem fold_deleteAfter {fields : List ProjectField}
    (folded : fields.foldlM (assign lib now input) s = .ok s') :
    (given lib input .deleteAfterDays = none ∨ .deleteAfterDays ∉ fields →
      s'.deleteAfter = s.deleteAfter) ∧
    (∀ v, given lib input .deleteAfterDays = some v → .deleteAfterDays ∈ fields →
      ∃ days, v = .int days ∧
        s'.deleteAfter = (s.setDeleteAfterDays now days).deleteAfter) := by
  induction fields generalizing s with
  | nil =>
    rw [← Except.ok.inj folded]
    exact ⟨fun _ => rfl, fun _ _ listed => by cases listed⟩
  | cons f fields ih =>
    rw [List.foldlM_cons] at folded
    cases assigned : assign lib now input s f with
    | error e =>
      rw [assigned] at folded
      cases folded
    | ok s1 =>
      rw [assigned] at folded
      have ⟨kept, gets⟩ := ih folded
      unfold assign at assigned
      constructor
      · intro absent
        have later : given lib input .deleteAfterDays = none ∨ .deleteAfterDays ∉ fields :=
          absent.imp_right fun missing listed => missing (List.mem_cons_of_mem _ listed)
        rw [kept later]
        cases value : given lib input f with
        | none =>
          rw [value] at assigned
          rw [Except.ok.inj assigned]
        | some v =>
          rw [value] at assigned
          apply (setattr_deleteAfter assigned).1
          intro same
          cases absent with
          | inl nothing =>
            rw [same, nothing] at value
            cases value
          | inr missing => exact missing (same ▸ List.mem_cons_self)
      · intro v value listed
        by_cases later : .deleteAfterDays ∈ fields
        · exact (gets v value later).imp fun days ⟨same, set⟩ => ⟨same, set⟩
        · have same : f = .deleteAfterDays := by
            cases List.mem_cons.mp listed with
            | inl same => exact same.symm
            | inr inner => exact absurd inner later
          rw [same, value] at assigned
          have ⟨days, number, set⟩ := (setattr_deleteAfter assigned).2 rfl
          exact ⟨days, number, by rw [kept (Or.inr later), set]⟩

/-- The loop over the form sets a column of one field to its value. -/
theorem form_columns (folded : ProjectField.all.foldlM (assign lib now input) s = .ok s')
    {f : ProjectField} {c : CoprColumn} (own : f.column = some c) (single : c ≠ .buildEnableNet) :
    s'.columns c = ((given lib input f).map f.stored).or (s.columns c) := by
  rw [fold_columns folded c]
  cases f <;> cases own <;> first | rfl | exact absurd rfl single

/-- Of the two fields for the network the later one counts. -/
theorem form_network (folded : ProjectField.all.foldlM (assign lib now input) s = .ok s') :
    s'.columns .buildEnableNet = (given lib input .enableNet).or
      ((given lib input .buildEnableNet).or (s.columns .buildEnableNet)) := by
  rw [fold_columns folded]
  have net : ((given lib input .enableNet).map ProjectField.enableNet.stored) =
      given lib input .enableNet := by
    cases given lib input .enableNet <;> rfl
  have old : ((given lib input .buildEnableNet).map ProjectField.buildEnableNet.stored) =
      given lib input .buildEnableNet := by
    cases given lib input .buildEnableNet <;> rfl
  rw [← net, ← old]
  rfl

/-- A column without given fields is kept. -/
theorem fold_kept {fields : List ProjectField}
    (folded : fields.foldlM (assign lib now input) s = .ok s') {c : CoprColumn}
    (absent : ∀ f : ProjectField, f.column = some c → given lib input f = none) :
    s'.columns c = s.columns c := by
  rw [fold_columns folded c]
  clear folded
  induction fields with
  | nil => rfl
  | cons f fields ih =>
    rw [List.foldl_cons]
    by_cases own : f.column = some c
    · rw [if_pos own, absent f own]
      exact ih
    · rw [if_neg own]
      exact ih

end Loop

/-! ## The data of the fields -/

section Data

variable {lib : TextLibrary} {input : FormInput}

/-- A supplied field has a value in the data. -/
theorem raw_isSome {f : ProjectField} (supplied : input.Supplies f) :
    ∃ v, input.raw f = some v := by
  unfold FormInput.Supplies at supplied
  have ⟨pair, listed, same⟩ := List.mem_map.mp supplied
  unfold FormInput.raw
  rw [← Option.isSome_iff_exists, List.lookup_isSome_iff]
  exact ⟨pair, listed, by simp [same]⟩

/-- A checkbox always has a value. -/
theorem boolean_data {f : ProjectField} (boolean : f.kind = .boolean)
    (processed : (f.process lib (input.raw f)).isSome = true) :
    ∃ b, fieldData lib input f = some (.bool b) := by
  have plain : f.filters lib = [] := by
    cases f <;> first | rfl | cases boolean
  unfold fieldData
  unfold ProjectField.process at processed ⊢
  rw [boolean, plain] at processed ⊢
  generalize input.raw f = raw at processed ⊢
  cases raw with
  | none => exact ⟨false, rfl⟩
  | some v =>
    cases v with
    | object empty => cases processed
    | text s => exact ⟨decide (s ∉ ["false", ""]), rfl⟩
    | bool b => exact ⟨b, rfl⟩
    | int n => exact ⟨n != 0, rfl⟩
    | real q => exact ⟨decide (q ≠ 0), rfl⟩

/-- A supplied storage is a text. -/
theorem storage_data (supplied : input.Supplies .storage) :
    ∃ s, fieldData lib input .storage = some (.text s) := by
  have ⟨v, there⟩ := raw_isSome supplied
  unfold fieldData
  rw [there]
  exact ⟨lib.toText v, rfl⟩

/-- A valid limit is a number of days, or `-1` for none. -/
theorem limit_data
    (valid : (ProjectField.deleteAfterDays.process lib (input.raw .deleteAfterDays)).any
      (ProjectField.deleteAfterDays.validate lib (input.raw .deleteAfterDays)) = true) :
    ∃ days, fieldData lib input .deleteAfterDays = some (.int days) ∧ -1 ≤ days := by
  unfold fieldData
  generalize input.raw .deleteAfterDays = raw at valid ⊢
  cases processed : ProjectField.deleteAfterDays.process lib raw with
  | none =>
    rw [processed] at valid
    cases valid
  | some p =>
    rw [processed, Option.any_some] at valid
    cases out : leftOut lib raw with
    | true =>
      have empty : p.data = some (.int (-1)) := by
        cases raw with
        | none => rw [← Option.some.inj processed]
        | some v =>
          cases v with
          | text s =>
            have none : lib.int s = none := lib.int_blank s out
            simp only [ProjectField.process, ProjectField.kind, processFormdata, none,
              ProjectField.filters, applyFilters, withoutLimitFilter, Option.some_inj] at processed
            rw [← processed]
          | _ => cases out
      exact ⟨-1, empty, by omega⟩
    | false =>
      simp only [ProjectField.validate, out, Bool.false_or, Bool.and_eq_true] at valid
      have range := valid.2
      cases data : p.data with
      | none =>
        rw [data] at range
        cases range
      | some v =>
        rw [data] at range
        cases v with
        | int days =>
          simp only [inRange, Bool.and_eq_true, decide_eq_true_eq] at range
          exact ⟨days, data, range.1⟩
        | _ => cases range

end Data

/-- The days from a later moment of a day to the midnight that ends some days after it. -/
theorem days_to_midnight {now later days : Int} (some : 0 ≤ days) (passed : now < later)
    (sameDay : later / 86400000000 = now / 86400000000) :
    max 0 (((now + (days + 1) * 86400000000) / 86400000000 * 86400000000 - later) /
      86400000000) = days := by
  omega

/-- A limit of some days lasts for these days from the next day on. -/
theorem deleteAfterDays_of_set (s : CoprSettings) {now later : DateTime} {days : Int}
    (some : 0 ≤ days) (passed : now < later)
    (sameDay : later / daysLong 1 = now / daysLong 1) :
    (s.setDeleteAfterDays now days).deleteAfterDays later = .some days := by
  have limited : days ≠ -1 := by omega
  unfold CoprSettings.setDeleteAfterDays CoprSettings.deleteAfterDays
  rw [if_neg limited, Option.map_some]
  exact congrArg Option.some (days_to_midnight some passed sameDay)

/-! ## The chroots -/

section Chroots

variable {db db' : EolDatabase} {copr : Nat} {names : List String} {unfinished : String → Bool}
  {now : DateTime}

/-- Which mock chroots are active does not depend on the projects. -/
theorem isActive_updateFromNames (name : String) :
    (db.updateFromNames copr names unfinished now).isActive name = db.isActive name := by
  simp only [EolDatabase.updateFromNames]
  split
  · rfl
  · rfl

/-- Exactly the named chroots are enabled after an update. -/
theorem enabledIn_updateFromNames
    (free : db.conflicts copr (db.mockChrootsFromNames names) unfinished = false)
    (active : ∀ name ∈ names, name ∈ db.mockChroots.rows.map MockChrootRow.name ∧
      db.isActive name = true) (name : String) :
    (db.updateFromNames copr names unfinished now).enabledIn copr name = true ↔ name ∈ names := by
  have chosen : ∀ other, other ∈ db.mockChrootsFromNames names ↔ other ∈ names := by
    intro other
    simp only [EolDatabase.mockChrootsFromNames, List.mem_map, List.mem_filter,
      decide_eq_true_eq]
    constructor
    · rintro ⟨m, ⟨_, listed⟩, same⟩
      exact same ▸ listed
    · intro listed
      obtain ⟨m, there, same⟩ := List.mem_map.mp (active other listed).1
      exact ⟨m, ⟨there, same ▸ listed⟩, same⟩
  unfold EolDatabase.enabledIn
  rw [isActive_updateFromNames, @EolDatabase.find_updateFromNames {}]
  have created : db.created (.updateFromNames copr names unfinished now) =
      (db.mockChrootsFromNames names).map fun name => (createChroot copr name).enable := by
    simp [EolDatabase.created, free]
  rw [created]
  cases found : db.coprChroots.find ⟨copr, name⟩ with
  | some c =>
    obtain ⟨_, key⟩ := Table.find_eq_some.mp found
    have own : c.copr = copr := congrArg ChrootKey.copr key
    have named : c.mockChroot = name := congrArg ChrootKey.mockChroot key
    rw [Option.map_some, Option.some_or, Option.any_some]
    simp only [EolDatabase.change, free, EolDatabase.reEnables, EolDatabase.toRemove, own, named,
      chosen]
    by_cases listed : name ∈ names
    · have on := (active name listed).2
      cases deleted : c.deleted <;> simp [listed, on, deleted, CoprChroot.enable]
    · cases on : db.isActive name <;> cases deleted : c.deleted <;>
        simp [listed, deleted, CoprChroot.remove]
  | none =>
    rw [Option.map_none, Option.none_or]
    by_cases listed : name ∈ names
    · have on := (active name listed).2
      have made : (((db.mockChrootsFromNames names).map fun name =>
          (createChroot copr name).enable).find? fun c =>
            decide (c.key = ⟨copr, name⟩)).isSome = true := by
        rw [List.find?_isSome]
        exact ⟨_, List.mem_map.mpr ⟨name, (chosen name).mpr listed, rfl⟩, by
          simp [createChroot, CoprChroot.updateChroot, CoprChroot.key, CoprChroot.enable]⟩
      obtain ⟨row, got⟩ := Option.isSome_iff_exists.mp made
      obtain ⟨other, _, same⟩ := List.mem_map.mp (List.mem_of_find?_eq_some got)
      rw [got, Option.any_some, ← same]
      simp [on, listed, CoprChroot.enable]
    · have none : ((db.mockChrootsFromNames names).map fun name =>
          (createChroot copr name).enable).find? (fun c => decide (c.key = ⟨copr, name⟩)) =
            none := by
        rw [List.find?_eq_none]
        intro row made
        obtain ⟨other, chosenOther, same⟩ := List.mem_map.mp made
        have apart : other ≠ name := fun equal => listed (equal ▸ (chosen other).mp chosenOther)
        rw [← same]
        simp [createChroot, CoprChroot.updateChroot, CoprChroot.key, CoprChroot.enable, apart]
      rw [none]
      simp [listed]

end Chroots

/-! ## Successful edits -/

section Success

variable {lib : TextLibrary} {now : DateTime} {input : FormInput}
  {accepts : CoprColumn → Option FormScalar → Bool} {permissions : List CoprPermission}
  {user : User} {copr : Project} {unfinished : String → Bool} {before after : EditState}

/-- What is known about an edit that succeeds. -/
structure Edited (lib : TextLibrary) (now : DateTime) (input : FormInput) (user : User)
    (copr : Project) (unfinished : String → Bool) (before after : EditState) : Prop where
  /-- All fields are valid. -/
  valid : ∀ f : ProjectField, (f.process lib (input.raw f)).any
    (f.validate lib (input.raw f)) = true
  /-- The chroots are active. -/
  active : ∀ name ∈ chrootsData lib input,
    name ∈ before.db.mockChroots.rows.map MockChrootRow.name ∧ before.db.isActive name = true
  /-- The fields were copied. -/
  copied : ProjectField.all.foldlM (assign lib now input) before.settings = .ok after.settings
  /-- The chroots were not updated without names. -/
  kept : chrootsData lib input = [] → after.db = before.db
  /-- They were updated with names, and no build was in progress in a removed one. -/
  updated : chrootsData lib input ≠ [] →
    before.db.conflicts copr.id (before.db.mockChrootsFromNames (chrootsData lib input))
        unfinished = false ∧
      after.db = before.db.updateFromNames copr.id (chrootsData lib input) unfinished now
  /-- Old builds are deleted unless the user is an administrator. -/
  pruned : user.admin = false →
    (after.settings.columns .autoPrune).any FormScalar.truthy = true
  /-- The storage is known. -/
  known : storageKnown after.settings = true

/-- Every field is one of the form. -/
theorem ProjectField.mem_all (f : ProjectField) : f ∈ ProjectField.all := by
  cases f <;> decide

/-- The facts about an edit that succeeds. -/
theorem edited_of_ok (edited : editProject lib now input accepts permissions user copr unfinished
    before = .ok after) : Edited lib now input user copr unfinished before after := by
  simp only [editProject] at edited
  split at edited
  · cases edited
  · split at edited
    · cases edited
    · rename_i valid
      split at edited
      · cases edited
      · split at edited
        · cases edited
        · rename_i settings folded
          split at edited
          · cases edited
          · rename_i db updated
            split at edited
            · cases edited
            · split at edited
              · cases edited
              · rename_i pruned
                split at edited
                · cases edited
                · split at edited
                  · cases edited
                  · rename_i known
                    have result := Except.ok.inj edited
                    simp only [Bool.not_eq_true, Bool.not_eq_false', validateOnSubmit,
                      Bool.and_eq_true, List.all_eq_true, decide_eq_true_eq,
                      List.mem_filter] at valid
                    rw [← result]
                    constructor
                    · exact fun f => valid.1 f f.mem_all
                    · exact valid.2
                    · exact folded
                    · intro none
                      rw [updateChroots, if_pos none] at updated
                      exact (Except.ok.inj updated).symm
                    · intro some
                      rw [updateChroots, if_neg some] at updated
                      split at updated
                      · cases updated
                      · split at updated
                        · cases updated
                        · rename_i free
                          exact ⟨Bool.not_eq_true _ ▸ free, (Except.ok.inj updated).symm⟩
                    · intro ordinary
                      simpa [ordinary] using pruned
                    · simpa using known

/-- A field is processed in an edit that succeeds. -/
theorem Edited.processed (edit : Edited lib now input user copr unfinished before after)
    (f : ProjectField) : (f.process lib (input.raw f)).isSome = true := by
  have valid := edit.valid f
  cases field : f.process lib (input.raw f) with
  | none =>
    rw [field] at valid
    cases valid
  | some p => rfl

/-- The column of a field after the edit. -/
theorem Edited.column_of (edit : Edited lib now input user copr unfinished before after)
    {f : ProjectField} {c : CoprColumn} (own : f.column = some c) (single : c ≠ .buildEnableNet)
    (supplied : input.Supplies f) :
    after.settings.columns c =
      ((fieldData lib input f).map f.stored).or (before.settings.columns c) := by
  rw [form_columns edit.copied own single, given, if_pos supplied]

/-- What a field means is what is stored for it, apart from the storage. -/
theorem ProjectField.meant_eq_stored {f : ProjectField} (other : f ≠ .storage) :
    f.meant = f.stored := by
  funext v
  cases f <;> first | rfl | exact absurd rfl other

/-- A supplied field with a column of its own has its value afterwards if it is not empty or empties
an empty column. -/
theorem Edited.gives_column (edit : Edited lib now input user copr unfinished before after)
    {f : ProjectField} {c : CoprColumn} (own : f.column = some c) (single : c ≠ .buildEnableNet)
    (other : f ≠ .storage) (supplied : input.Supplies f) :
    after.settings.columns c = (fieldData lib input f).map f.meant ↔
      (fieldData lib input f = none → before.settings.columns c = none) := by
  rw [edit.column_of own single supplied, ProjectField.meant_eq_stored other]
  cases fieldData lib input f with
  | none => simp
  | some v => simp

/-- The storage cannot be set to a number. -/
theorem Edited.not_gives_storage (edit : Edited lib now input user copr unfinished before after)
    (supplied : input.Supplies .storage) :
    ¬Gives now after.settings .storage (fieldData lib input .storage) := by
  intro gives
  have ⟨s, data⟩ := @storage_data lib input supplied
  have stored := edit.column_of (c := .storage) rfl (by decide) supplied
  have wanted := gives .storage rfl
  rw [data] at stored wanted
  have known := edit.known
  rw [storageKnown, decide_eq_true_eq, stored] at known
  have text : s = "backend" ∨ s = "pulp" := by
    simpa [ProjectField.stored] using known
  rw [stored] at wanted
  cases text with
  | inl same => simp [same, ProjectField.stored, ProjectField.meant] at wanted
  | inr same => simp [same, ProjectField.stored, ProjectField.meant] at wanted

/-- The column for the network after an edit that supplies one of its fields. -/
theorem Edited.network (edit : Edited lib now input user copr unfinished before after) :
    (input.Supplies .enableNet → after.settings.columns .buildEnableNet =
      fieldData lib input .enableNet) ∧
    (input.Supplies .buildEnableNet → ¬input.Supplies .enableNet →
      after.settings.columns .buildEnableNet = fieldData lib input .buildEnableNet) := by
  rw [form_network edit.copied]
  constructor
  · intro supplied
    have ⟨b, data⟩ := boolean_data rfl (edit.processed .enableNet)
    rw [given, if_pos supplied, data]
    rfl
  · intro supplied other
    have ⟨b, data⟩ := boolean_data rfl (edit.processed .buildEnableNet)
    rw [given, given, if_neg other, if_pos supplied, data]
    rfl

/-- The two fields for the network get their values exactly when they agree. -/
theorem Edited.gives_network (edit : Edited lib now input user copr unfinished before after) :
    (∀ f, f = .buildEnableNet ∨ f = .enableNet → input.Supplies f →
      Gives now after.settings f (fieldData lib input f)) ↔
    (input.Supplies .buildEnableNet → input.Supplies .enableNet →
      fieldData lib input .buildEnableNet = fieldData lib input .enableNet) := by
  have ⟨later, alone⟩ := edit.network
  have same : ∀ v : Option FormScalar, v.map ProjectField.buildEnableNet.meant = v ∧
      v.map ProjectField.enableNet.meant = v := by
    intro v
    cases v with
    | none => exact ⟨rfl, rfl⟩
    | some v => exact ⟨rfl, rfl⟩
  constructor
  · intro gives old new
    have stored := gives .buildEnableNet (Or.inl rfl) old .buildEnableNet rfl
    rw [(same _).1] at stored
    rw [← stored, later new]
  · intro agree f which supplied
    cases which with
    | inl old =>
      rw [old] at supplied ⊢
      intro c own
      rw [← Option.some.inj own, (same _).1]
      by_cases new : input.Supplies .enableNet
      · rw [later new, agree supplied new]
      · exact alone supplied new
    | inr new =>
      rw [new] at supplied ⊢
      intro c own
      rw [← Option.some.inj own, (same _).2]
      exact later supplied

/-- A limit in days is always kept. -/
theorem Edited.gives_limit (edit : Edited lib now input user copr unfinished before after)
    (supplied : input.Supplies .deleteAfterDays) :
    Gives now after.settings .deleteAfterDays (fieldData lib input .deleteAfterDays) := by
  have ⟨days, data, least⟩ := limit_data (edit.valid .deleteAfterDays)
  have value : given lib input .deleteAfterDays = some (.int days) := by
    rw [given, if_pos supplied, data]
  have ⟨same, number, set⟩ := (fold_deleteAfter edit.copied).2 _ value (ProjectField.mem_all _)
  rw [← FormScalar.int.inj number] at set
  rw [data]
  show if days = -1 then after.settings.deleteAfter = none
    else ∀ later, now < later → later / daysLong 1 = now / daysLong 1 →
      after.settings.deleteAfterDays later = some days
  split
  · rename_i without
    rw [set, CoprSettings.setDeleteAfterDays, without]
    rfl
  · rename_i limited
    intro later passed sameDay
    have kept := deleteAfterDays_of_set before.settings (by omega : 0 ≤ days) passed sameDay
    rw [CoprSettings.deleteAfterDays, ← set] at kept
    exact kept

/-- The old field for the bootstrap container has no effect. -/
theorem Edited.gives_bootstrap (edit : Edited lib now input user copr unfinished before after) :
    (input.Supplies .useBootstrapContainer →
      Gives now after.settings .useBootstrapContainer
        (fieldData lib input .useBootstrapContainer)) ↔
    ∀ v, given lib input .useBootstrapContainer = some v →
      (given lib input .bootstrap).or (before.settings.columns .bootstrap) =
        some (.text (if v.truthy then "on" else "off")) := by
  have kept : (given lib input .bootstrap).map ProjectField.bootstrap.stored =
      given lib input .bootstrap := by
    cases given lib input .bootstrap with
    | none => rfl
    | some v => rfl
  have after := form_columns edit.copied (f := .bootstrap) rfl (by decide)
  rw [kept] at after
  rw [← after]
  constructor
  · intro gives v value
    rw [given] at value
    split at value
    · rename_i supplied
      have means := gives supplied
      rw [value] at means
      exact means
    · cases value
  · intro means supplied
    cases data : fieldData lib input .useBootstrapContainer with
    | none => exact fun c own => by cases own
    | some v => exact means v (by rw [given, if_pos supplied, data])

/-- The chroots after the edit. -/
theorem Edited.enabled (edit : Edited lib now input user copr unfinished before after)
    (some : chrootsData lib input ≠ []) (name : String) :
    after.db.enabledIn copr.id name = true ↔ name ∈ chrootsData lib input := by
  have ⟨free, same⟩ := edit.updated some
  rw [same]
  exact enabledIn_updateFromNames free edit.active name

end Success

/-- A successful edit changes exactly what was asked for if and only if no column or set of chroots
with something in it was emptied, the fields that share a setting agree, and no storage was
supplied. -/
theorem edits_exactly_iff (lib : TextLibrary) (now : DateTime) (input : FormInput)
    (accepts : CoprColumn → Option FormScalar → Bool) (permissions : List CoprPermission)
    (user : User) (copr : Project) (unfinished : String → Bool) (before after : EditState)
    (edited : editProject lib now input accepts permissions user copr unfinished before =
      .ok after) :
    EditsExactly lib now input user copr before after ↔ CleanEdit lib input copr before := by
  have edit := edited_of_ok edited
  constructor
  · intro exact
    constructor
    · intro f c own supplied empty
      by_cases single : c = .buildEnableNet
      · have boolean : f.kind = .boolean := by
          rw [single] at own
          cases f <;> first | rfl | cases own
        have ⟨b, data⟩ := boolean_data boolean (edit.processed f)
        rw [data] at empty
        cases empty
      · by_cases other : f = .storage
        · rw [other] at supplied
          exact absurd (exact.fields .storage supplied) (edit.not_gives_storage supplied)
        · apply (edit.gives_column own single other supplied).mp _ empty
          have gives := exact.fields f supplied
          cases f <;> first | exact gives c own | cases own
    · exact edit.gives_network.mp fun f _ supplied => exact.fields f supplied
    · exact edit.gives_bootstrap.mp fun supplied => exact.fields _ supplied
    · intro supplied
      exact edit.not_gives_storage supplied (exact.fields _ supplied)
    · intro supplied empty name
      have same := exact.enabled supplied name
      rw [edit.kept empty, empty] at same
      simpa using same
  · intro clean
    constructor
    · intro c absent
      apply fold_kept edit.copied
      intro f own
      rw [given, if_neg (absent f own)]
    · intro absent
      apply (fold_deleteAfter edit.copied).1
      left
      rw [given, if_neg absent]
    · intro absent
      apply edit.kept
      rw [chrootsData, absent]
    · intro f supplied
      by_cases network : f = .buildEnableNet ∨ f = .enableNet
      · exact edit.gives_network.mpr clean.network f network supplied
      · have gives : ∀ c, f.column = some c →
            after.settings.columns c = (fieldData lib input f).map f.meant := by
          intro c own
          have single : c ≠ .buildEnableNet := by
            intro same
            rw [same] at own
            apply network
            cases f <;> first | exact Or.inl rfl | exact Or.inr rfl | cases own
          have other : f ≠ .storage := fun same => clean.storage (same ▸ supplied)
          exact (edit.gives_column own single other supplied).mpr
            (clean.emptied f c own supplied)
        cases f with
        | deleteAfterDays => exact edit.gives_limit supplied
        | useBootstrapContainer => exact edit.gives_bootstrap.mpr clean.bootstrap supplied
        | _ => exact gives
    · intro supplied name
      by_cases empty : chrootsData lib input = []
      · rw [edit.kept empty, empty, clean.chroots supplied empty name]
        simp
      · exact edit.enabled empty name
    · intro ordinary
      have storage : after.settings.columns .storage = before.settings.columns .storage := by
        apply fold_kept edit.copied
        intro f own
        have same : f = .storage := by cases f <;> first | rfl | cases own
        rw [same, given, if_neg clean.storage]
      have persistent : after.settings.columns .persistent =
          before.settings.columns .persistent := by
        apply fold_kept edit.copied
        intro f own
        cases f <;> cases own
      refine ⟨storage, persistent, fun off => ?_⟩
      rw [edit.pruned ordinary] at off
      contradiction

/-- Texts of ASCII, and validators that accept everything. -/
def plainTexts : TextLibrary where
  isspace := Char.isWhitespace
  int s := if s.toList.all Char.isWhitespace then none else s.toInt?
  str
    | .bool b => if b then "True" else "False"
    | .int n => toString n
    | _ => ""
  urlparse s := some ("", s)
  url _ := true
  email _ := true
  urlRepoList _ := true
  urlSrpmList _ := true
  int_blank _ blank := if_pos blank

/-- A project with a homepage, of the user with the id 1. -/
def projectWithHomepage : EditState where
  settings := {
    columns
      | .homepage => some (.text "https://example.com")
      | .autoPrune => some (.bool true)
      | .storage => some (.int 0)
      | _ => none
    deleteAfter := none }
  db := {
    mockChroots := Table.empty
    coprs := Table.empty
    coprChroots := Table.empty
    references := fun _ member => absurd member List.not_mem_nil }

/-- The owner of the project. -/
def projectOwner : User := ⟨1, false, []⟩

/-- A new description is what was asked for. -/
theorem description_edited :
    EditsExactly plainTexts 0 [("description", .scalar (.text "new"))] projectOwner
      ⟨1, "project", 1, none, "user", false, true⟩ projectWithHomepage
      ⟨projectWithHomepage.settings.set .description (.text "new"), projectWithHomepage.db⟩ := by
  apply (edits_exactly_iff plainTexts 0 _ (fun _ _ => true) [] projectOwner
    ⟨1, "project", 1, none, "user", false, true⟩ (fun _ => false) projectWithHomepage _ rfl).mpr
  have single : ∀ f : ProjectField, f ≠ .description →
      ¬FormInput.Supplies [("description", .scalar (.text "new"))] f := by
    intro f
    cases f <;> decide
  constructor
  · intro f c own supplied empty
    by_cases same : f = .description
    · rw [same] at empty
      cases empty
    · exact absurd supplied (single f same)
  · intro supplied
    exact absurd supplied (single _ (by decide))
  · intro v value
    rw [given, if_neg (single _ (by decide))] at value
    cases value
  · exact single _ (by decide)
  · intro supplied
    exact absurd rfl supplied

/-- An empty homepage is accepted, and the old one is kept. -/
theorem homepage_not_emptied :
    editProject plainTexts 0 [("homepage", .scalar (.text ""))] (fun _ _ => true) []
        projectOwner ⟨1, "project", 1, none, "user", false, true⟩ (fun _ => false)
        projectWithHomepage =
      .ok projectWithHomepage ∧
    ¬EditsExactly plainTexts 0 [("homepage", .scalar (.text ""))] projectOwner
      ⟨1, "project", 1, none, "user", false, true⟩ projectWithHomepage projectWithHomepage := by
  constructor
  · rfl
  · intro exact
    have emptied := exact.fields .homepage (by decide) .homepage rfl
    have data : fieldData plainTexts [("homepage", .scalar (.text ""))] .homepage = none := rfl
    rw [data] at emptied
    cases emptied

end Copr
