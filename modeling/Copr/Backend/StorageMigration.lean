import Copr.Lib.Loops
import Copr.Lib.Newest
import Copr.Lib.Text
import Copr.Backend.ActionResults

/-!
# Moving a project to Pulp

`change_storage_for_project` of the script `copr-change-storage`, with the parts of `PulpStorage`
and `PulpHTTPRedirect` that it uses. The directories are what `os.scandir` and `os.walk` find, in
any order; what Pulp, Redis and the frontend answer is a parameter. The order of the entries in a
dictionary is left out, log messages are too.
-/

namespace Copr

open Text

/-! ## What is on the disk -/

/-- A file below the directory of a build. -/
structure ResultFile where
  /-- The directories between, from the outermost. -/
  dirs : List String
  /-- The name of the file. -/
  name : String
  deriving DecidableEq, Repr

/-- An entry of a chroot directory. -/
structure BuildEntry where
  /-- `name`. -/
  name : String
  /-- `is_dir()`. -/
  isDir : Bool
  /-- What `os.walk` finds below. -/
  files : List ResultFile
  deriving DecidableEq, Repr

/-- An entry of a project directory. -/
structure ChrootEntry where
  /-- `name`. -/
  name : String
  /-- `is_dir()`. -/
  isDir : Bool
  /-- Its entries; `none` when `os.scandir` raises. -/
  builds : Option (List BuildEntry)
  deriving DecidableEq, Repr

/-- An entry of the directory of an owner. -/
structure ProjectEntry where
  /-- `name`. -/
  name : String
  /-- Its entries; `none` when `os.scandir` raises, such as for a file. -/
  chroots : Option (List ChrootEntry)
  deriving DecidableEq, Repr

/-- What `str.isdigit` and `int` accept. Beyond ASCII that depends on the database of Unicode; not
every digit is one of a decimal number. -/
structure Numerals where
  /-- `c.isdigit()`. -/
  isdigit : Char → Bool
  /-- `int(text)` for a text of digits; `none` when it raises `ValueError`. -/
  int : List Char → Option Nat
  /-- The digits of ASCII. -/
  isdigit_ascii : ∀ c : Char, c.toNat < 128 → isdigit c = c.isDigit
  /-- The decimal numbers of ASCII. -/
  int_ascii : ∀ text : List Char, text ≠ [] → (∀ c ∈ text, c.isDigit = true) →
    int text = some (Nat.ofDigitChars 10 text 0)

/-- `int` for the decimal numbers of ASCII and nothing else. -/
def asciiInt (text : List Char) : Option Nat :=
  if text.isEmpty || !text.all Char.isDigit then none else some (Nat.ofDigitChars 10 text 0)

/-- The decimal numbers of ASCII. -/
theorem asciiInt_digits (text : List Char) (occupied : text ≠ [])
    (digits : ∀ c ∈ text, c.isDigit = true) :
    asciiInt text = some (Nat.ofDigitChars 10 text 0) := by
  have all : text.all Char.isDigit = true := List.all_eq_true.mpr digits
  simp [asciiInt, occupied, all]

/-- Nothing but ASCII. -/
def Numerals.ascii : Numerals where
  isdigit := Char.isDigit
  int := asciiInt
  isdigit_ascii := CharClasses.ascii.isnumeric_ascii
  int_ascii := asciiInt_digits

/-! ## What is called -/

/-- How a part of the script ends. -/
inductive ScriptEnd (α : Type)
  /-- It raises. -/
  | raised
  /-- `sys.exit(1)`. -/
  | exited
  /-- It goes on with a value. -/
  | value (a : α)
  deriving DecidableEq, Repr

/-- The answer to `change-storage`. -/
inductive FrontendAnswer
  /-- The storage is changed. -/
  | accepted
  /-- A `FrontendClientException` with its text. -/
  | failed (text : String)
  /-- Another exception. -/
  | raised
  deriving DecidableEq, Repr

/-- How `PulpHTTPRedirect.add` ends. -/
inductive RedirectEnd
  /-- It returns. -/
  | returned
  /-- It raises an `OSError`. -/
  | osError
  /-- It raises something else, such as an error of Redis. -/
  | raised
  deriving DecidableEq, Repr

/-- What is called in a migration. -/
structure MigrationCalls where
  /-- `str.isdigit` and `int`. -/
  numerals : Numerals
  /-- `PulpStorage(...)` succeeds for a directory and a chroot. -/
  constructs : String → String → Bool
  /-- The steps of `init_project` for a directory and a chroot. -/
  initCalls : String → String → InitCalls
  /-- The `prn` in the response for a file of a build in a directory and a chroot; `none` when
  `upload_rpm` raises. -/
  uploadRpm : String → String → String → ResultFile → Option (Option String)
  /-- The order in which uploads are completed. -/
  asCompleted : List ResultFile → List ResultFile
  /-- All are completed. -/
  asCompleted_perm : ∀ rpms, (asCompleted rpms).Perm rpms
  /-- The backup file is written. -/
  backup : String → String → Bool
  /-- The steps of `create_repository_version` succeed. -/
  createVersion : String → String → Bool
  /-- The backup file is removed. -/
  unlink : String → String → Bool
  /-- What the frontend answers. -/
  frontend : FrontendAnswer
  /-- How the redirect is added. -/
  redirect : RedirectEnd

/-- What `upload_build_results` returns for a file. -/
structure UploadedRpm where
  /-- `build_id`. -/
  buildId : Nat
  /-- The base name of `path`, which is the key. -/
  basename : String
  /-- `path`, as the directory of the build and the file below. -/
  path : String × ResultFile
  /-- `prn`. -/
  prn : Option String
  deriving DecidableEq, Repr

/-- The content that a call of `create_repository_version` adds. -/
structure RepositoryVersion where
  /-- `dirname`. -/
  dirname : String
  /-- `chroot`. -/
  chroot : String
  /-- `package_hrefs_or_prns`. -/
  units : List (Option String)
  deriving DecidableEq, Repr

/-- What a migration has done. -/
structure Migration where
  /-- The lines of the file of redirects, if there is one. -/
  redirects : Option (List String)
  /-- The content that was added. -/
  versions : List RepositoryVersion := []
  /-- The frontend was asked to switch the storage. -/
  asked : Bool := false
  deriving DecidableEq, Repr

/-- The project, as the API of the frontend describes it. -/
structure MigratedProject where
  /-- `ownername`. -/
  ownername : String
  /-- `name`. -/
  name : String
  deriving DecidableEq, Repr

namespace PulpHTTPRedirect

/-- A call with keyword arguments is possible: all that is required is there, and nothing that is
no parameter. Otherwise it raises a `TypeError`. -/
def takes (required optional given : List String) : Bool :=
  required.all (fun name => decide (name ∈ given)) &&
    given.all fun name => decide (name ∈ required ++ optional)

/-- `PulpHTTPRedirect(...)` with keyword arguments: `__init__(self, lock, path=None)`. -/
def constructs (given : List String) : Bool := takes ["lock"] ["path"] given

/-- `add`, when nothing fails. -/
def add (fullname : String) (file : Option (List String)) : Option (List String) :=
  file.map fun projects => if fullname ∈ projects then projects else projects ++ [fullname]

end PulpHTTPRedirect

/-- `find_build_results`, by `os.walk`. -/
def findBuildResults (builddir : BuildEntry) : List ResultFile :=
  builddir.files.filter fun file =>
    decide (file.dirs.getLastD builddir.name ≠ "prev_build_backup") &&
      ".rpm".toList.isSuffixOf file.name.toList

/-- `create_repository_version`, which ends with the `return True` of `add_content`. -/
def PulpStorage.createRepositoryVersion (succeeds : Bool) : Returned :=
  if succeeds then .value true else .raised

namespace ChangeStorage

variable (calls : MigrationCalls) (project : MigratedProject)

/-- `is_valid_build_directory`. -/
def isValidBuildDirectory (name : String) : Bool :=
  if name ∈ ["repodata", "devel"] then false
  else if startswith name "repodata.old" || startswith name ".repodata." then false
  else if name ∈ ["tmp", "cache", "appdata"] then false
  else
    match split name '-' with
    | number :: _ :: _ => decide (number.length = 8) && number.all calls.numerals.isdigit
    | _ => false

/-- `int(builddir.split("-")[0])`. -/
def buildId (name : String) : Option Nat := calls.numerals.int ((split name '-').headD [])

/-- What is recorded for an uploaded file. -/
def uploadedRpm (id : Nat) (builddir : String) (file : ResultFile) (prn : Option String) :
    UploadedRpm where
  buildId := id
  basename := file.name
  path := (builddir, file)
  prn := prn

/-- `upload_build_results`: the entries in the order in which the uploads are completed. -/
def uploadBuildResults (subproject chroot builddir : String) (id : Nat)
    (toUpload : List ResultFile) : Option (List UploadedRpm) :=
  (calls.asCompleted toUpload).mapM fun file =>
    (calls.uploadRpm subproject chroot builddir file).map (uploadedRpm id builddir file)

/-- One turn of the loop over the directories of builds. -/
def uploadBuild (subproject chroot : String) (uploaded : AList fun _ : String => UploadedRpm)
    (builddir : BuildEntry) : Option (AList fun _ : String => UploadedRpm) :=
  if !builddir.isDir then some uploaded
  else if !isValidBuildDirectory calls builddir.name then some uploaded
  else do
    let id ← buildId calls builddir.name
    let toUpload := (findBuildResults builddir).filter fun rpm =>
      !(uploaded.lookup rpm.name).any fun entry => decide (id < entry.buildId)
    let results ← uploadBuildResults calls subproject chroot builddir.name id toUpload
    some (Newest.put UploadedRpm.basename uploaded results)

/-- `sorted(os.scandir(chrootdir), key=lambda x: x.name)`. -/
def sortedBuilds (builds : List BuildEntry) : List BuildEntry :=
  builds.mergeSort fun a b => decide (a.name ≤ b.name)

/-- The loop over the directories of builds; `none` when it raises. -/
def uploadBuilds (subproject chroot : String) (builds : List BuildEntry) :
    Option (AList fun _ : String => UploadedRpm) :=
  (sortedBuilds builds).foldlM (uploadBuild calls subproject chroot) ∅

/-- The rest of the loop over chroots, once the repository is there. -/
def migrateBuilds (subproject : String) (entry : ChrootEntry) (m : Migration) :
    ScriptEnd Bool × Migration :=
  match entry.builds.bind (uploadBuilds calls subproject entry.name) with
  | none => (.raised, m)
  | some uploaded =>
    let units := uploaded.entries.map fun rpm => rpm.2.prn
    if !calls.backup subproject entry.name then (.raised, m)
    else
      match (PulpStorage.createRepositoryVersion
        (calls.createVersion subproject entry.name)).truth with
      | none => (.raised, m)
      | some false => (.exited, m)
      | some true =>
        let m := { m with versions := m.versions ++ [⟨subproject, entry.name, units⟩] }
        if calls.unlink subproject entry.name then (.value true, m) else (.raised, m)

/-- The line that `init_project` adds to the file of redirects, in its `finally`. -/
def initRedirects (subproject chroot : String) (redirects : Option (List String)) :
    Option (List String) :=
  let init := calls.initCalls subproject chroot
  if PulpStorage.prepared false none init && init.redirect then
    PulpHTTPRedirect.add (project.ownername ++ "/" ++ subproject) redirects
  else redirects

/-- One turn of the loop over chroots; `false` is the `break`. -/
def migrateChroot (subproject : String) (entry : ChrootEntry) (m : Migration) :
    ScriptEnd Bool × Migration :=
  if entry.name = "srpm-builds" then (.value true, m)
  else if !entry.isDir then (.value true, m)
  else if !calls.constructs subproject entry.name then (.raised, m)
  else
    let m := { m with redirects := initRedirects calls project subproject entry.name m.redirects }
    match (PulpStorage.initProject false none (calls.initCalls subproject entry.name)).truth with
    | none => (.raised, m)
    | some false => (.value false, m)
    | some true => migrateBuilds calls subproject entry m

/-- The loop over chroots; `false` after a `break`. -/
def migrateChroots (subproject : String) :
    List ChrootEntry → Migration → ScriptEnd Bool × Migration
  | [], m => (.value true, m)
  | entry :: rest, m =>
    match migrateChroot calls project subproject entry m with
    | (.value true, m) => migrateChroots subproject rest m
    | stopped => stopped

/-- The directory belongs to the project. -/
def belongs (subproject : String) : Bool :=
  decide (subproject = project.name) || startswith subproject (project.name ++ ":")

/-- The loop over the directories of the owner, with `ok`. -/
def migrateDirs : Bool → List ProjectEntry → Migration → ScriptEnd Bool × Migration
  | ok, [], m => (.value ok, m)
  | ok, dir :: rest, m =>
    if !belongs project dir.name then migrateDirs ok rest m
    else
      match dir.chroots with
      | none => (.raised, m)
      | some chroots =>
        match migrateChroots calls project dir.name chroots m with
        | (.value done, m) => migrateDirs (ok && done) rest m
        | stopped => stopped

/-- The redirect, after the frontend was asked. -/
def addRedirect (m : Migration) : ScriptEnd Unit × Migration :=
  if !PulpHTTPRedirect.constructs ["log"] then (.raised, m)
  else
    match calls.redirect with
    | .returned =>
      (.value (),
        { m with
          redirects :=
            PulpHTTPRedirect.add (project.ownername ++ "/" ++ project.name) m.redirects })
    | .osError => (.value (), m)
    | .raised => (.raised, m)

/-- What follows the loops. -/
def switchStorage (m : Migration) : ScriptEnd Unit × Migration :=
  let m := { m with asked := true }
  match calls.frontend with
  | .raised => (.raised, m)
  | .failed text =>
    if !contains text "404 NOT FOUND" then (.exited, m) else addRedirect calls project m
  | .accepted => addRedirect calls project m

/-- `change_storage_for_project`, for the entries of the directory of the owner; there are none
when `os.scandir` raises. -/
def changeStorageForProject (ownerdir : Option (List ProjectEntry))
    (redirects : Option (List String)) : ScriptEnd Unit × Migration :=
  match ownerdir with
  | none => (.raised, ⟨redirects, [], false⟩)
  | some dirs =>
    match migrateDirs calls project true dirs ⟨redirects, [], false⟩ with
    | (.raised, m) => (.raised, m)
    | (.exited, m) => (.exited, m)
    | (.value false, m) => (.exited, m)
    | (.value true, m) => switchStorage calls project m

/-! ## The newest builds win -/

/-- What the uploads of the RPMs in the directory of a valid build return. -/
def rpmsOf (subproject chroot : String) (builddir : BuildEntry) : List UploadedRpm :=
  if builddir.isDir && isValidBuildDirectory calls builddir.name then
    match buildId calls builddir.name with
    | none => []
    | some id =>
      (findBuildResults builddir).map fun file =>
        uploadedRpm id builddir.name file
          ((calls.uploadRpm subproject chroot builddir.name file).getD none)
  else []

/-- Exactly one entry for each file name, from the newest build with such a file. -/
def NewestUploads (subproject chroot : String) (builds : List BuildEntry)
    (uploaded : AList fun _ : String => UploadedRpm) : Prop :=
  Newest.Keeps UploadedRpm.basename UploadedRpm.buildId
    {rpm | rpm ∈ builds.flatMap (rpmsOf calls subproject chroot)} uploaded

variable {calls project} {subproject chroot : String} {m m' : Migration}
  {uploaded uploaded' : AList fun _ : String => UploadedRpm}

/-- All chosen files are uploaded, in some order. -/
theorem mem_uploadBuildResults {builddir : String} {id : Nat} {toUpload : List ResultFile}
    {results : List UploadedRpm}
    (returned : uploadBuildResults calls subproject chroot builddir id toUpload = some results)
    (rpm : UploadedRpm) :
    rpm ∈ results ↔ ∃ file ∈ toUpload, uploadedRpm id builddir file
      ((calls.uploadRpm subproject chroot builddir file).getD none) = rpm := by
  have all := Loops.eq_map_of_mapM (g := fun file => uploadedRpm id builddir file
    ((calls.uploadRpm subproject chroot builddir file).getD none)) (by
      intro file rpm answered
      obtain ⟨prn, uploaded, rfl⟩ := Option.map_eq_some_iff.mp answered
      rw [uploaded]
      rfl) returned
  rw [all, List.mem_map]
  simp only [(calls.asCompleted_perm toUpload).mem_iff]

/-- After one more directory the upload has kept the newest package of each name. -/
theorem uploadBuild_newest {come : Set UploadedRpm} {builddir : BuildEntry}
    (keeps : Newest.Keeps UploadedRpm.basename UploadedRpm.buildId come uploaded)
    (done : uploadBuild calls subproject chroot uploaded builddir = some uploaded') :
    Newest.Keeps UploadedRpm.basename UploadedRpm.buildId
      (come ∪ {rpm | rpm ∈ rpmsOf calls subproject chroot builddir}) uploaded' := by
  unfold uploadBuild at done
  unfold rpmsOf
  cases isDir : builddir.isDir with
  | false =>
    simp only [isDir] at done ⊢
    obtain rfl := Option.some.inj done
    simpa using keeps
  | true =>
    cases valid : isValidBuildDirectory calls builddir.name with
    | false =>
      simp only [isDir, valid] at done ⊢
      obtain rfl := Option.some.inj done
      simpa using keeps
    | true =>
      simp only [isDir, valid] at done ⊢
      obtain ⟨id, read, done⟩ := Option.bind_eq_some_iff.mp done
      obtain ⟨results, returned, same⟩ := Option.bind_eq_some_iff.mp done
      obtain rfl := Option.some.inj same
      simp only [read, Bool.and_self, ↓reduceIte]
      refine keeps.put (r := id) ?_ fun rpm => ?_
      · intro rpm listed
        obtain ⟨file, -, rfl⟩ := List.mem_map.mp listed
        rfl
      · rw [mem_uploadBuildResults returned, List.mem_map]
        constructor
        · rintro ⟨file, chosen, rfl⟩
          obtain ⟨found, passes⟩ := List.mem_filter.mp chosen
          refine ⟨⟨file, found, rfl⟩, ?_⟩
          rw [Bool.not_eq_true'] at passes
          exact passes
        · rintro ⟨⟨file, found, rfl⟩, passes⟩
          refine ⟨file, List.mem_filter.mpr ⟨found, ?_⟩, rfl⟩
          rw [Bool.not_eq_true']
          exact passes

/-- After some directories the upload has kept the newest package of each name. -/
theorem foldlM_uploadBuild_newest {builds : List BuildEntry} {come : Set UploadedRpm}
    (keeps : Newest.Keeps UploadedRpm.basename UploadedRpm.buildId come uploaded)
    (done : builds.foldlM (uploadBuild calls subproject chroot) uploaded = some uploaded') :
    Newest.Keeps UploadedRpm.basename UploadedRpm.buildId
      (come ∪ {rpm | rpm ∈ builds.flatMap (rpmsOf calls subproject chroot)}) uploaded' := by
  induction builds generalizing come uploaded with
  | nil =>
    obtain rfl := Option.some.inj done
    simpa using keeps
  | cons builddir rest ih =>
    rw [List.foldlM_cons] at done
    obtain ⟨next, first, done⟩ := Option.bind_eq_some_iff.mp done
    have all := ih (uploadBuild_newest keeps first) done
    rw [Set.union_assoc] at all
    convert all using 2
    ext rpm
    simp

/-- The loop uploads the newest builds, whatever the order is in which it goes through them. -/
theorem uploadBuilds_newest {builds : List BuildEntry}
    (done : uploadBuilds calls subproject chroot builds = some uploaded) :
    NewestUploads calls subproject chroot builds uploaded := by
  have all := foldlM_uploadBuild_newest Newest.keeps_empty done
  rw [Set.empty_union] at all
  unfold NewestUploads
  convert all using 2
  ext rpm
  simp only [List.mem_flatMap, sortedBuilds, List.mem_mergeSort]

/-- What is added for a chroot, once its repository is there. -/
theorem migrateBuilds_newest {entry : ChrootEntry}
    (done : migrateBuilds calls subproject entry m = (.value true, m')) :
    ∃ builds uploaded, entry.builds = some builds ∧
      NewestUploads calls subproject entry.name builds uploaded ∧
      m'.versions = m.versions ++
        [⟨subproject, entry.name, uploaded.entries.map fun rpm => rpm.2.prn⟩] := by
  unfold migrateBuilds at done
  split at done
  · cases done
  · rename_i uploaded made
    obtain ⟨builds, listed, loop⟩ := Option.bind_eq_some_iff.mp made
    refine ⟨builds, uploaded, listed, uploadBuilds_newest loop, ?_⟩
    simp only at done
    split at done
    · cases done
    · split at done
      · cases done
      · cases done
      · split at done
        · obtain ⟨-, rfl⟩ := Prod.mk.inj done
          rfl
        · cases done

/-! ## When the frontend is asked -/

/-- The content that was added for a chroot of a directory. -/
def added (m : Migration) (subproject chroot : String) : List (Option String) :=
  (m.versions.filter fun version =>
    decide (version.dirname = subproject ∧ version.chroot = chroot)).flatMap RepositoryVersion.units

variable (calls project) in
/-- For every directory of the project and every chroot directory, the newest uploads and nothing
else were added. -/
def EverythingMoved (dirs : List ProjectEntry) (m : Migration) : Prop :=
  ∀ dir ∈ dirs, belongs project dir.name = true → ∃ chroots, dir.chroots = some chroots ∧
    ∀ entry ∈ chroots, entry.name ≠ "srpm-builds" → entry.isDir = true →
      ∃ builds uploaded, entry.builds = some builds ∧
        NewestUploads calls dir.name entry.name builds uploaded ∧
        added m dir.name entry.name = uploaded.entries.map fun rpm => rpm.2.prn

variable (calls project) in
/-- All that should be done when the storage is switched. -/
structure SwitchedRightly (ownerdir : Option (List ProjectEntry))
    (result : ScriptEnd Unit × Migration) : Prop where
  /-- The content is in Pulp. -/
  moved : ∃ dirs, ownerdir = some dirs ∧ EverythingMoved calls project dirs result.2
  /-- The redirect is registered, where there are redirects. -/
  redirected : ∀ lines, result.2.redirects = some lines →
    project.ownername ++ "/" ++ project.name ∈ lines
  /-- The function returns. -/
  returns : result.1 = .value ()

variable (project) in
/-- Every directory of the project can be read, and has no chroot directory but `srpm-builds`. -/
def NothingToMove (ownerdir : Option (List ProjectEntry)) : Prop :=
  ∃ dirs, ownerdir = some dirs ∧ ∀ dir ∈ dirs, belongs project dir.name = true →
    ∃ chroots, dir.chroots = some chroots ∧
      ∀ entry ∈ chroots, entry.name = "srpm-builds" ∨ entry.isDir = false

/-- A chroot directory ends the loop over chroots: `init_project` returns nothing. -/
theorem migrateChroot_continues {entry : ChrootEntry} :
    migrateChroot calls project subproject entry m = (.value true, m') ↔
      (entry.name = "srpm-builds" ∨ entry.isDir = false) ∧ m' = m := by
  have same : ((ScriptEnd.value true, m) : ScriptEnd Bool × Migration) = (.value true, m') ↔
      m' = m :=
    ⟨fun equal => (Prod.mk.inj equal).2.symm, fun equal => equal ▸ rfl⟩
  unfold migrateChroot
  by_cases srpm : entry.name = "srpm-builds"
  · rw [if_pos srpm, same]
    simp [srpm]
  · rw [if_neg srpm]
    cases isDir : entry.isDir with
    | false =>
      rw [Bool.not_false, if_pos rfl, same]
      simp
    | true =>
      simp only [srpm, Bool.true_eq_false, or_self, false_and, iff_false]
      have never : (PulpStorage.initProject false none
          (calls.initCalls subproject entry.name)).truth ≠ some true := by
        intro initialized
        exact initProject_pulp_ne (Returned.truth_eq_some_true.mp initialized)
      simp only [Bool.not_true, Bool.false_eq_true, ↓reduceIte]
      split
      · simp
      · split
        · simp
        · simp
        · rename_i initialized
          exact absurd initialized never

/-- The loop over chroots goes through when there is no chroot directory. -/
theorem migrateChroots_continues {chroots : List ChrootEntry} :
    migrateChroots calls project subproject chroots m = (.value true, m') ↔
      (∀ entry ∈ chroots, entry.name = "srpm-builds" ∨ entry.isDir = false) ∧ m' = m := by
  induction chroots generalizing m with
  | nil =>
    refine ⟨fun equal => ⟨List.forall_mem_nil _, (Prod.mk.inj equal).2.symm⟩, ?_⟩
    rintro ⟨-, rfl⟩
    rfl
  | cons entry rest ih =>
    rw [List.forall_mem_cons, migrateChroots]
    split
    · rename_i next turn
      obtain ⟨here, rfl⟩ := migrateChroot_continues.mp turn
      rw [ih]
      simp [here]
    · rename_i stopped other
      constructor
      · intro ends
        exact absurd ends (other m')
      · rintro ⟨⟨here, -⟩, -⟩
        exact absurd (migrateChroot_continues.mpr ⟨here, rfl⟩) (other m)

/-- The loops go through when there is no chroot directory in the directories of the project. -/
theorem migrateDirs_continues {dirs : List ProjectEntry} {ok : Bool} :
    migrateDirs calls project ok dirs m = (.value true, m') ↔
      ok = true ∧ (∀ dir ∈ dirs, belongs project dir.name = true → ∃ chroots,
        dir.chroots = some chroots ∧
          ∀ entry ∈ chroots, entry.name = "srpm-builds" ∨ entry.isDir = false) ∧ m' = m := by
  induction dirs generalizing ok m with
  | nil =>
    constructor
    · intro equal
      obtain ⟨value, rfl⟩ := Prod.mk.inj equal
      exact ⟨ScriptEnd.value.inj value, List.forall_mem_nil _, rfl⟩
    · rintro ⟨rfl, -, rfl⟩
      rfl
  | cons dir rest ih =>
    rw [List.forall_mem_cons, migrateDirs]
    cases own : belongs project dir.name with
    | false => simp [ih]
    | true =>
      simp only [Bool.not_true, Bool.false_eq_true, ↓reduceIte, true_implies]
      cases listed : dir.chroots with
      | none => simp
      | some chroots =>
        simp only [Option.some.injEq, exists_eq_left']
        split
        · rename_i done next loop
          cases done with
          | true =>
            obtain ⟨here, rfl⟩ := migrateChroots_continues.mp loop
            rw [ih, Bool.and_true]
            exact ⟨fun ⟨fine, later, same⟩ => ⟨fine, ⟨here, later⟩, same⟩,
              fun ⟨fine, ⟨_, later⟩, same⟩ => ⟨fine, later, same⟩⟩
          | false =>
            simp only [Bool.and_false, ih, Bool.false_eq_true, false_and, false_iff]
            rintro ⟨-, ⟨here, -⟩, -⟩
            rw [migrateChroots_continues.mpr ⟨here, rfl⟩] at loop
            cases loop
        · rename_i stopped other
          constructor
          · intro ends
            rcases stopped : migrateChroots calls project dir.name chroots m
              with ⟨_ | _ | done, next⟩
            · rw [stopped] at ends
              cases ends
            · rw [stopped] at ends
              cases ends
            · exact absurd stopped (other done next)
          · rintro ⟨-, ⟨here, -⟩, -⟩
            exact absurd (migrateChroots_continues.mpr ⟨here, rfl⟩) (other true m)

/-- Nobody is asked while the builds of a chroot are moved. -/
theorem migrateBuilds_asked {entry : ChrootEntry} :
    (migrateBuilds calls subproject entry m).2.asked = m.asked := by
  unfold migrateBuilds
  split
  · rfl
  · dsimp only
    split
    · rfl
    · split
      · rfl
      · rfl
      · split <;> rfl

/-- Nobody is asked in a turn of the loop over chroots. -/
theorem migrateChroot_asked {entry : ChrootEntry} :
    (migrateChroot calls project subproject entry m).2.asked = m.asked := by
  unfold migrateChroot
  split
  · rfl
  · split
    · rfl
    · split
      · rfl
      · dsimp only
        split
        · rfl
        · rfl
        · exact migrateBuilds_asked

/-- Nobody is asked in the loop over chroots. -/
theorem migrateChroots_asked {chroots : List ChrootEntry} :
    (migrateChroots calls project subproject chroots m).2.asked = m.asked := by
  induction chroots generalizing m with
  | nil => rfl
  | cons entry rest ih =>
    have here := @migrateChroot_asked calls project subproject m entry
    rw [migrateChroots]
    split
    · rename_i next turn
      rw [turn] at here
      exact ih.trans here
    · exact here

/-- Nobody is asked in the loop over directories. -/
theorem migrateDirs_asked {dirs : List ProjectEntry} {ok : Bool} :
    (migrateDirs calls project ok dirs m).2.asked = m.asked := by
  induction dirs generalizing ok m with
  | nil => rfl
  | cons dir rest ih =>
    rw [migrateDirs]
    split
    · exact ih
    · split
      · rfl
      · rename_i chroots _
        have here := @migrateChroots_asked calls project dir.name m chroots
        split
        · rename_i next loop
          rw [loop] at here
          exact ih.trans here
        · exact here

/-- The redirect leaves the question as it is. -/
theorem addRedirect_asked : (addRedirect calls project m).2.asked = m.asked := by
  unfold addRedirect
  split
  · rfl
  · split <;> rfl

/-- The switch asks the frontend. -/
theorem switchStorage_asked : (switchStorage calls project m).2.asked = true := by
  unfold switchStorage
  dsimp only
  split
  · rfl
  · split
    · rfl
    · exact addRedirect_asked
  · exact addRedirect_asked

/-- The frontend is asked exactly when there is nothing to move. -/
theorem asked_iff {ownerdir : Option (List ProjectEntry)} {redirects : Option (List String)} :
    (changeStorageForProject calls project ownerdir redirects).2.asked = true ↔
      NothingToMove project ownerdir := by
  unfold changeStorageForProject NothingToMove
  cases ownerdir with
  | none => simp
  | some dirs =>
    simp only [Option.some.injEq, exists_eq_left']
    have quiet := @migrateDirs_asked calls project ⟨redirects, [], false⟩ dirs true
    have goes := fun m' =>
      @migrateDirs_continues calls project ⟨redirects, [], false⟩ m' dirs true
    rcases loops : migrateDirs calls project true dirs ⟨redirects, [], false⟩ with
      ⟨_ | _ | ok, m⟩
    all_goals rw [loops] at quiet goes
    · refine iff_of_false (quiet ▸ Bool.false_ne_true) fun nothing => ?_
      cases (goes _).mpr ⟨rfl, nothing, rfl⟩
    · refine iff_of_false (quiet ▸ Bool.false_ne_true) fun nothing => ?_
      cases (goes _).mpr ⟨rfl, nothing, rfl⟩
    · cases ok with
      | false =>
        refine iff_of_false (quiet ▸ Bool.false_ne_true) fun nothing => ?_
        cases (goes _).mpr ⟨rfl, nothing, rfl⟩
      | true => exact iff_of_true switchStorage_asked ((goes m).mp rfl).2.1

/-- The redirect cannot be made: a `PulpHTTPRedirect` needs a lock and knows no `log`. -/
theorem addRedirect_fails : (addRedirect calls project m).1 = .raised := by
  have impossible : PulpHTTPRedirect.constructs ["log"] = false := by decide
  rw [addRedirect, impossible]
  rfl

/-- Switching the storage of a project never ends with a returned value. -/
theorem switchStorage_fails : (switchStorage calls project m).1 ≠ .value () := by
  unfold switchStorage
  dsimp only
  split
  · nofun
  · split
    · nofun
    · rw [addRedirect_fails]
      nofun
  · rw [addRedirect_fails]
    nofun

/-- A migration that asks the frontend never returns. -/
theorem asked_fails {ownerdir : Option (List ProjectEntry)} {redirects : Option (List String)}
    (asked : (changeStorageForProject calls project ownerdir redirects).2.asked = true) :
    (changeStorageForProject calls project ownerdir redirects).1 ≠ .value () := by
  unfold changeStorageForProject
  split
  · nofun
  · split
    · nofun
    · nofun
    · nofun
    · exact switchStorage_fails

/-- When the frontend is asked to switch the storage, everything has been moved, the redirect is
registered and the function returns: this holds exactly if there is something to move, or the
directories cannot be read, so that the frontend is not asked. -/
theorem switched_rightly_iff (calls : MigrationCalls) (project : MigratedProject)
    (ownerdir : Option (List ProjectEntry)) (redirects : Option (List String)) :
    ((changeStorageForProject calls project ownerdir redirects).2.asked = true →
      SwitchedRightly calls project ownerdir
        (changeStorageForProject calls project ownerdir redirects)) ↔
      ¬ NothingToMove project ownerdir := by
  rw [← @asked_iff calls project ownerdir redirects]
  constructor
  · intro rightly asked
    exact asked_fails asked (rightly asked).returns
  · intro never asked
    exact absurd asked never

end ChangeStorage

/-! ## A concrete project -/

namespace Sample

/-- Calls that all succeed. -/
def migrationCalls : MigrationCalls where
  numerals := .ascii
  constructs _ _ := true
  initCalls _ _ := ⟨true, true, .created, true, .created, true, true, true, true, true, true, true⟩
  uploadRpm _ _ builddir file := some (some (builddir ++ "/" ++ file.name))
  asCompleted := id
  asCompleted_perm _ := .refl _
  backup _ _ := true
  createVersion _ _ := true
  unlink _ _ := true
  frontend := .accepted
  redirect := .returned

/-- A project with source builds only. -/
def sourcesOnly : List ProjectEntry := [⟨"hello", some [⟨"srpm-builds", true, some []⟩]⟩]

end Sample

namespace ChangeStorage

/-- The frontend switches the storage of a project with source builds only, and the script raises
before the redirect is registered. -/
theorem sourcesOnly_without_redirect : ¬ ∀ (calls : MigrationCalls) (project : MigratedProject)
    (ownerdir : Option (List ProjectEntry)) (redirects : Option (List String)),
    (changeStorageForProject calls project ownerdir redirects).2.asked = true →
      SwitchedRightly calls project ownerdir
        (changeStorageForProject calls project ownerdir redirects) := by
  intro claimed
  have rightly := claimed Sample.migrationCalls ⟨"user", "hello"⟩ (some Sample.sourcesOnly)
    (some []) (by decide)
  exact absurd rightly.returns (by decide)

end ChangeStorage

end Copr
