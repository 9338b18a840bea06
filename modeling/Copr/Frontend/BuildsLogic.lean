import Copr.Frontend.Models

/-!
# The build logic of the frontend

`BuildsLogic` of `coprs/logic/builds_logic.py`: what a report of the backend does to a build,
canceling, and the selection of the tasks handed to the backend. A function that may raise
returns an option; a request that raises leaves the rows as they are. Local source files,
callbacks and module actions are left out.
-/

namespace Copr

/-- The tags of one release in `architecture_specific_tags`; a missing tag is an empty list. -/
structure ArchTags where
  /-- `exclusivearch`. -/
  exclusivearch : List String := []
  /-- `excludearch`. -/
  excludearch : List String := []
  deriving DecidableEq, Repr

/-- The non-empty `results` of a report. -/
structure Results where
  /-- `packages`. -/
  packages : Option (List BuildChrootResult) := none
  /-- `architecture_specific_tags`, by release. -/
  architectureSpecificTags : Option (List (String × ArchTags)) := none
  deriving DecidableEq, Repr

/-- A report of the backend about a task. Every report carries a status. -/
structure UpdDict where
  /-- The text of `task_id`. -/
  taskId : String
  /-- `chroot`. -/
  chroot : Option String := none
  /-- `status`. -/
  status : StatusEnum
  /-- `pkg_name`. -/
  pkgName : Option String := none
  /-- `built_packages`. -/
  builtPackages : Option String := none
  /-- `srpm_url`. -/
  srpmUrl : Option String := none
  /-- `pkg_version`. -/
  pkgVersion : Option String := none
  /-- `result_dir`. -/
  resultDir : Option String := none
  /-- `started_on`, which may be there without a value. -/
  startedOn : Option (Option Int) := none
  /-- `ended_on`. -/
  endedOn : Option Int := none
  /-- `results`; missing and empty ones are the same. -/
  results : Option Results := none
  deriving DecidableEq, Repr

/-- What becomes of the package that a report names. -/
inductive PackageLookup
  /-- The project has the package or gets it. -/
  | present
  /-- Another request creates the package at the same time. -/
  | raced
  /-- The project owner may not create it. -/
  | refused
  deriving DecidableEq, Repr

/-- What a request reads outside of the tables of the model. -/
structure Surroundings where
  /-- `time.time()`. -/
  now : Int
  /-- The fate of the named package. -/
  packageLookup : PackageLookup
  /-- `build.package.chroots`. -/
  packageChroots : ChrootSet
  deriving DecidableEq, Repr

/-- The text that Python's `if value` lets pass. -/
def truthyText (value : Option String) : Option String :=
  value.filter fun text => decide (text ≠ "")

/-- `value or default` for a time. -/
def timeOr (value : Option Int) (default : Int) : Int :=
  match value with
  | none => default
  | some time => if time = 0 then default else time

namespace UpdDict

/-- The packages that `create_from_dict` records. -/
def packages (upd : UpdDict) : List BuildChrootResult :=
  (upd.results.bind Results.packages).getD []

/-- The results of a source build, which decide about excluded architectures. -/
def srpmResults (upd : UpdDict) : Option Results :=
  if upd.chroot = some "srpm-builds" then upd.results else none

end UpdDict

/-- `results["architecture_specific_tags"][name_release]`; `none` is the `KeyError`. -/
def Results.tagsOf (results : Results) (c : BuildChroot) : Option ArchTags :=
  results.architectureSpecificTags.bind (·.lookup c.mockChroot.nameRelease)

/-- The architecture is excluded by one of the tags. -/
def ArchTags.excludes (tags : ArchTags) (arch : String) : Bool :=
  (!tags.exclusivearch.isEmpty && !tags.exclusivearch.contains arch) ||
    tags.excludearch.contains arch

namespace BuildsLogic

variable (env : Surroundings)

/-- `assign_buildchroots_from_package` with a status: the new chroots. -/
def assignBuildchrootsFromPackage (b : Build) (status : StatusEnum) : List BuildChroot :=
  if b.package.isNone then []
  else env.packageChroots.chroots.map fun m => { mockChroot := m, status := status }

/-- The closure `finish` in `update_state_from_dict`. -/
def finish (upd : UpdDict) (c : BuildChroot) (status : StatusEnum) : BuildChroot :=
  let endedOn := timeOr upd.endedOn env.now
  { c with
    status := status
    endedOn := some endedOn
    startedOn := upd.startedOn.getD (some endedOn) }

/-- The status of the source build and the chroots before they are finished or skipped. -/
def startChroots (b : Build) (upd : UpdDict) : StatusEnum × List BuildChroot :=
  if upd.status = .succeeded then
    if b.buildChroots.isEmpty then
      match assignBuildchrootsFromPackage env b .waiting with
      | [] => (.failed, [])
      | chroots => (.importing, chroots)
    else (.importing, b.buildChroots.map fun c => { c with status := .waiting })
  else (upd.status, b.buildChroots)

/-- A failed or skipped source build finishes all chroots. -/
def finishChroots (upd : UpdDict) (status : StatusEnum) (chroots : List BuildChroot) :
    List BuildChroot :=
  if status = .failed ∨ status = .skipped then chroots.map fun c => finish env upd c status
  else chroots

/-- Skip a chroot whose architecture is excluded. -/
def skipExcluded (upd : UpdDict) (tags : ArchTags) (c : BuildChroot) : BuildChroot :=
  let exclusive :=
    if !tags.exclusivearch.isEmpty && !tags.exclusivearch.contains c.mockChroot.arch then
      finish env upd
        { c with statusReason := some "This chroot was skipped because of ExclusiveArch" } .skipped
    else c
  if tags.excludearch.contains c.mockChroot.arch then
    finish env upd
      { exclusive with statusReason := some "This chroot was skipped because of ExcludeArch" }
      .skipped
  else exclusive

/-- Skip excluded architectures; a chroot without tags is a `KeyError`. -/
def skipChroots (upd : UpdDict) (chroots : List BuildChroot) : Option (List BuildChroot) :=
  match upd.srpmResults with
  | none => some chroots
  | some results =>
    chroots.mapM fun c => (results.tagsOf c).map fun tags => skipExcluded env upd tags c

/-- The part of `update_state_from_dict` about the source build. -/
def updateSource (b : Build) (upd : UpdDict) : Option Build :=
  let (status, chroots) := startChroots env b upd
  (skipChroots env upd (finishChroots env upd status chroots)).map fun chroots =>
    { b with
      resultDir := upd.resultDir.getD ""
      sourceStatus := status
      failType := if status = .failed then .srpmBuildError else b.failType
      buildChroots := chroots }

/-- The part of `update_state_from_dict` about one chroot. -/
def updateChroot (upd : UpdDict) (c : BuildChroot) : BuildChroot :=
  if upd.chroot = some c.name then
    { c with
      resultDir := upd.resultDir.getD ""
      status := if c.status.Terminal then c.status else upd.status
      endedOn := if upd.status.Terminal then some (timeOr upd.endedOn env.now) else c.endedOn
      results := if upd.status.Terminal then c.results ++ upd.packages else c.results
      startedOn :=
        if upd.status = .starting then some (timeOr (upd.startedOn.getD none) env.now)
        else c.startedOn }
  else c

/-- The attributes that a report sets where it has a value. -/
def setAttributes (b : Build) (upd : UpdDict) : Build :=
  { b with
    builtPackages := (truthyText upd.builtPackages).or b.builtPackages
    srpmUrl := (truthyText upd.srpmUrl).or b.srpmUrl
    pkgVersion := (truthyText upd.pkgVersion).or b.pkgVersion }

/-- `update_state_from_dict` once the package is assigned. -/
def updateAssigned (b : Build) (upd : UpdDict) : Option Build :=
  if upd.taskId = b.taskId then updateSource env (setAttributes b upd) upd
  else
    some { setAttributes b upd with buildChroots := b.buildChroots.map (updateChroot env upd) }

/-- `update_state_from_dict`. -/
def updateStateFromDict (b : Build) (upd : UpdDict) : Option Build :=
  match b.package, truthyText upd.pkgName with
  | none, some name =>
    match env.packageLookup with
    | .present => updateAssigned env { b with package := some name } upd
    | .raced => some b
    | .refused => none
  | _, _ => updateAssigned env b upd

/-- `cancel_build` by a user who may; `none` is the `ConflictingRequest`. -/
def cancelBuild (b : Build) : Option Build :=
  if b.cancelable then some { b with canceled := true } else none

/-- The cancel requests that `cancel_build` adds. -/
def cancelBuildRequests (b : Build) : List String :=
  if b.cancelable && !b.canceled then b.taskId :: b.buildChroots.map b.chrootTaskId else []

/-- `cancel_build_chroots_by_mock` takes this chroot. -/
def canceledByMock (mockChroot : MockChroot) (c : BuildChroot) : Bool :=
  decide (c.name = mockChroot.name) && !decide c.status.Finished

/-- The default reason of `cancel_build_chroots_by_mock`. -/
def eolReason (mockChroot : MockChroot) : String :=
  "Chroot '" ++ mockChroot.name ++ "' has been EOLed"

/-- `cancel_build_chroots_by_mock` on the chroots of one build. -/
def cancelBuildChrootsByMock (mockChroot : MockChroot) (b : Build) : Build :=
  { b with
    buildChroots := b.buildChroots.map fun c =>
      if canceledByMock mockChroot c then
        { c with status := .canceled, statusReason := some (eolReason mockChroot) }
      else c }

/-- The cancel requests that `cancel_build_chroots_by_mock` adds. -/
def cancelByMockRequests (mockChroot : MockChroot) (b : Build) : List String :=
  (b.buildChroots.filter (canceledByMock mockChroot)).map b.chrootTaskId

/-- `mark_as_failed`. -/
def markAsFailed (b : Build) : Build :=
  { b with
    buildChroots := b.buildChroots.map fun c =>
      if c.status = .succeeded then c else { c with status := .failed }
    sourceStatus := if b.sourceStatus = .succeeded then b.sourceStatus else .failed }

/-- `get_pending_srpm_build_tasks` for the backend, in the order of the rows. -/
def getPendingSrpmBuildTasks (db : Database) : List Build :=
  db.builds.filter fun b => !b.canceled && decide b.sourceStatus.Todo

/-- `get_pending_build_tasks` for the backend, in the order of the rows. -/
def getPendingBuildTasks (db : Database) : List (Build × BuildChroot) :=
  (db.builds.filter fun b => !b.canceled).flatMap fun b =>
    (b.buildChroots.filter fun c => decide c.status.Todo).map fun c => (b, c)

end BuildsLogic

end Copr
