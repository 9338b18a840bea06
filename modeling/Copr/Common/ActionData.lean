import Mathlib.Data.List.AList
import Mathlib.Data.String.Defs

/-!
# Data of actions

What the frontend records with an action and the backend reads: the enumerations of
`copr_common/enums.py` for storages and results, how directories of builds are named, and the
`data` of the actions that delete builds and fork projects.
-/

namespace Copr

/-- `BackendResultEnum`, as actions use it. -/
inductive BackendResultEnum
  /-- The action has failed. -/
  | failure
  /-- The action has succeeded. -/
  | success
  deriving DecidableEq, Repr

/-- What is reported for the value of a call; an exception is a failure. -/
def BackendResultEnum.of : Option Bool → BackendResultEnum
  | some true => .success
  | _ => .failure

/-- Success is reported for nothing but a true value. -/
@[simp] theorem BackendResultEnum.of_eq_success {value : Option Bool} :
    BackendResultEnum.of value = .success ↔ value = some true := by
  cases value with
  | none => simp [BackendResultEnum.of]
  | some ok => cases ok <;> simp [BackendResultEnum.of]

/-- `StorageEnum`. -/
inductive StorageEnum
  /-- The results are in directories. -/
  | backend
  /-- The packages are in Pulp. -/
  | pulp
  deriving DecidableEq, Repr

/-- `chroot_builddirs`: the directories to delete, by chroot. -/
abbrev ChrootBuilddirs := AList fun _ : String => List String

/-- The items of a dictionary. -/
def ChrootBuilddirs.items (dirs : ChrootBuilddirs) : List (String × List String) :=
  dirs.entries.map fun e => (e.1, e.2)

/-- The items are what is looked up. -/
theorem ChrootBuilddirs.mem_items {dirs : ChrootBuilddirs} {chroot : String}
    {subdirs : List String} :
    (chroot, subdirs) ∈ dirs.items ↔ dirs.lookup chroot = some subdirs := by
  rw [← Option.mem_def, AList.mem_lookup_iff]
  simp [ChrootBuilddirs.items]

/-- A directory is listed for a chroot. -/
def ChrootBuilddirs.Lists (dirs : ChrootBuilddirs) (chroot subdir : String) : Prop :=
  ∃ subdirs, dirs.lookup chroot = some subdirs ∧ subdir ∈ subdirs

/-- What every delete action says about the project. -/
structure DeleteHeader where
  /-- `ownername`. -/
  ownername : String
  /-- `projectname`. -/
  projectname : String
  /-- `appstream`. -/
  appstream : Bool
  /-- `devel`. -/
  devel : Bool
  /-- `storage`. -/
  storage : StorageEnum
  deriving DecidableEq, Repr

/-- The `data` of an action that deletes one build. -/
structure BuildDeleteData extends DeleteHeader where
  /-- `project_dirname`. -/
  projectDirname : String
  /-- `chroot_builddirs`. -/
  chrootBuilddirs : ChrootBuilddirs

/-- The `data` of an action that deletes builds. -/
structure BuildsDeleteData extends DeleteHeader where
  /-- `project_dirnames`: the directories to delete, by project directory and chroot. -/
  projectDirnames : AList fun _ : String => ChrootBuilddirs
  /-- `build_ids`. -/
  buildIds : List Nat

/-- An action that deletes builds. -/
inductive DeleteAction
  /-- With the object type `build`. -/
  | build (objectId : Nat) (data : BuildDeleteData)
  /-- With the object type `builds`. -/
  | builds (data : BuildsDeleteData)

namespace DeleteAction

/-- What the action says about the project. -/
def header : DeleteAction → DeleteHeader
  | .build _ data => data.toDeleteHeader
  | .builds data => data.toDeleteHeader

/-- The ids of the builds to delete. -/
def buildIds : DeleteAction → List Nat
  | .build objectId _ => [objectId]
  | .builds data => data.buildIds

/-- The project directories with what is deleted in them. -/
def dirnames : DeleteAction → List (String × ChrootBuilddirs)
  | .build _ data => [(data.projectDirname, data.chrootBuilddirs)]
  | .builds data => data.projectDirnames.entries.map fun e => (e.1, e.2)

/-- A directory is listed for a project directory and a chroot. -/
def Lists (action : DeleteAction) (dirname chroot subdir : String) : Prop :=
  ∃ entry ∈ action.dirnames, entry.1 = dirname ∧ entry.2.Lists chroot subdir

/-- The chroots of all project directories with the directories to delete. -/
def items (action : DeleteAction) : List (String × String × List String) :=
  action.dirnames.flatMap fun entry => entry.2.items.map fun item => (entry.1, item)

/-- What is listed is in one of the items. -/
theorem lists_iff_items {action : DeleteAction} {dirname chroot subdir : String} :
    action.Lists dirname chroot subdir ↔
      ∃ subdirs, (dirname, chroot, subdirs) ∈ action.items ∧ subdir ∈ subdirs := by
  simp only [Lists, items, List.mem_flatMap, List.mem_map, Prod.mk.injEq]
  constructor
  · rintro ⟨entry, member, rfl, subdirs, looked, listed⟩
    have item := ChrootBuilddirs.mem_items.mpr looked
    exact ⟨subdirs, ⟨entry, member, _, item, rfl, rfl⟩, listed⟩
  · rintro ⟨subdirs, ⟨entry, member, _, item, rfl, rfl⟩, listed⟩
    exact ⟨entry, member, rfl, subdirs, ChrootBuilddirs.mem_items.mp item, listed⟩

end DeleteAction

/-! ## Forks -/

/-- The full name of a project. -/
structure ProjectPath where
  /-- The owner. -/
  owner : String
  /-- The name, which is also that of the main directory. -/
  project : String
  deriving DecidableEq, Repr

/-- The builds of a chroot: `result_dir` of the source and of the destination. -/
abbrev ForkedDirs := AList fun _ : String => String

/-- A fork action. -/
structure ForkAction where
  /-- `old_value`. -/
  source : ProjectPath
  /-- `new_value`. -/
  destination : ProjectPath
  /-- The frontend refuses to fork a project onto itself. -/
  differ : source ≠ destination
  /-- `storage`. -/
  storage : StorageEnum
  /-- `builds_map`. -/
  buildsMap : AList fun _ : String => ForkedDirs

/-! ## Names of directories -/

/-- `{:08d}`. -/
def padded (buildId : Nat) : String :=
  String.ofList (List.leftpad 8 '0' (Nat.toDigits 10 buildId))

/-- `build_target_dir` for a package. -/
def targetDir (buildId : Nat) (packageName : String) : String :=
  padded buildId ++ "-" ++ packageName

/-- The number can be read off the padded digits. -/
theorem ofDigitChars_padded (buildId : Nat) :
    Nat.ofDigitChars 10 (padded buildId).toList 0 = buildId := by
  rw [padded, String.toList_ofList, List.leftpad, Nat.ofDigitChars_append,
    Nat.ofDigitChars_replicate_zero, Nat.mul_zero, Nat.ofDigitChars_ten_toDigits]

/-- The padding consists of digits, too. -/
theorem padded_isDigit {buildId : Nat} {c : Char} (member : c ∈ (padded buildId).toList) :
    c.isDigit = true := by
  rw [padded, String.toList_ofList, List.leftpad, List.mem_append] at member
  cases member with
  | inl padding =>
    rw [List.eq_of_mem_replicate padding]
    decide
  | inr digit => exact Nat.isDigit_of_mem_toDigits (by decide) (by decide) digit

/-- There is no dash among the digits. -/
theorem padded_no_dash (buildId : Nat) : '-' ∉ (padded buildId).toList := by
  intro member
  exact absurd (padded_isDigit member) (by decide)

/-- The digits are what stands before the first dash. -/
theorem takeWhile_targetDir (buildId : Nat) (name : String) :
    (targetDir buildId name).toList.takeWhile (fun c => c != '-') =
      (padded buildId).toList := by
  have all : ∀ c ∈ (padded buildId).toList, (c != '-') = true := by
    intro c member
    have other : c ≠ '-' := fun dash => padded_no_dash buildId (dash ▸ member)
    simpa using other
  rw [targetDir, String.toList_append, String.toList_append, List.append_assoc,
    List.takeWhile_append_of_pos all]
  have stop : ("-".toList ++ name.toList).takeWhile (fun c => c != '-') = [] := rfl
  rw [stop, List.append_nil]

/-- Directories of different builds have different names. -/
theorem targetDir_injective {a b : Nat} {m n : String} (same : targetDir a m = targetDir b n) :
    a = b := by
  have equal : (padded a).toList = (padded b).toList := by
    rw [← takeWhile_targetDir a m, ← takeWhile_targetDir b n, same]
  rw [← ofDigitChars_padded a, ← ofDigitChars_padded b, equal]

/-- So have directories of different packages. -/
theorem targetDir_package {id : Nat} {m n : String} (same : targetDir id m = targetDir id n) :
    m = n :=
  (String.append_right_inj (padded id ++ "-")).mp same

/-- Directories of packages have names. -/
theorem targetDir_ne_empty (id : Nat) (name : String) : targetDir id name ≠ "" := by
  intro empty
  have dash : '-' ∈ (targetDir id name).toList := by simp [targetDir]
  rw [empty] at dash
  simp at dash

/-- `int(build.split("-")[0])` for a directory of a build; none where it raises. Of the texts that
`int` accepts those of decimal digits are the ones that begin such names. -/
def leadingId (build : String) : Option Nat :=
  let digits := build.toList.takeWhile fun c => c != '-'
  if digits.isEmpty || !digits.all Char.isDigit then none
  else some (Nat.ofDigitChars 10 digits 0)

/-- The id of a build can be read off the name of its directory. -/
theorem leadingId_targetDir (buildId : Nat) (name : String) :
    leadingId (targetDir buildId name) = some buildId := by
  have occupied : (padded buildId).toList ≠ [] := by
    intro empty
    have short : (padded buildId).toList.length = 0 := by rw [empty]; rfl
    rw [padded, String.toList_ofList, List.length_leftpad] at short
    omega
  have digits : (padded buildId).toList.all Char.isDigit = true :=
    List.all_eq_true.mpr fun c member => padded_isDigit member
  simp only [leadingId, takeWhile_targetDir, ofDigitChars_padded]
  rw [if_neg]
  simp [occupied, digits]

end Copr
