import Copr.Frontend.StartedTasks
import Copr.Frontend.StatusColumns

/-!
# Workers that may not start

`handle_task` of `background_worker_build.py` asks the frontend for permission and, when it is
refused, ends like every failed build: it reports the task as failed. Here is the conversation
with the frontend, with any other operations before and after the report, and which rows are the
same as without it.
-/

namespace Copr

open Runs

/-- `BuildJob`, as far as the frontend reads what a worker sends. -/
structure BuildJob where
  /-- `build_id`. -/
  buildId : Nat
  /-- `task_id`. -/
  taskId : String
  /-- `chroot`. -/
  chroot : String
  /-- `result_dir`. -/
  resultDir : String
  /-- `status`. -/
  status : Option StatusEnum := none
  /-- `started_on`. -/
  startedOn : Option Int := none
  /-- `ended_on`. -/
  endedOn : Option Int := none
  /-- `pkg_name`. -/
  pkgName : Option String := none
  /-- `built_packages`. -/
  builtPackages : String := ""
  /-- `srpm_url`. -/
  srpmUrl : Option String := none
  /-- `results`. -/
  results : Option Results := none
  deriving DecidableEq, Repr

namespace BuildJob

/-- `_get_build_job`: the job for a task of a build. -/
def obtain (now : Int) (resultDir : String) (b : Build) (task : BuildTask) : BuildJob where
  buildId := b.id
  taskId := b.taskIdOf task
  chroot := task.jobChroot
  resultDir := resultDir
  startedOn := some now

/-- `to_dict`. The status is set before the job is sent. -/
def toDict (job : BuildJob) : UpdDict where
  taskId := job.taskId
  chroot := some job.chroot
  status := job.status.getD .unknown
  pkgName := job.pkgName
  builtPackages := some job.builtPackages
  srpmUrl := job.srpmUrl
  resultDir := some job.resultDir
  startedOn := some job.startedOn
  endedOn := job.endedOn
  results := job.results

/-- `_mark_starting`, up to the request. -/
def markStarting (job : BuildJob) : BuildJob := { job with status := some .starting }

/-- `_mark_finished`, up to the report. -/
def markFinished (now : Int) (job : BuildJob) : BuildJob :=
  { job with
    endedOn := some now
    status :=
      if job.status = some .failed ∨ job.status = some .succeeded then job.status
      else some .failed }

/-- `handle_task` behind the answer to `_mark_starting`: the reports. `retry` stands for
`retry_the_build`, with the reports that it sends and the job as it leaves it. -/
def handleTask (now : Int) (retry : BuildJob → List UpdDict × BuildJob) (canStart : Option Bool)
    (job : BuildJob) : List UpdDict :=
  let (reports, left) :=
    if canStart = some true then retry job.markStarting else ([], job.markStarting)
  reports ++ [(left.markFinished now).toDict]

/-- A refused worker sends one report, which says that the task failed. -/
theorem handleTask_refused (now : Int) (retry : BuildJob → List UpdDict × BuildJob)
    (job : BuildJob) :
    job.handleTask now retry (some false) =
      [{ job.toDict with status := .failed, endedOn := some now }] := by
  unfold handleTask
  rfl

end BuildJob

/-! ## The report in the frontend -/

/-- What is seen of a build: the source status, the fail type and the chroot statuses. -/
structure BuildStatuses where
  /-- `id`. -/
  id : Nat
  /-- `source_status`. -/
  sourceStatus : StatusEnum
  /-- `fail_type`. -/
  failType : FailTypeEnum
  /-- The statuses of the chroots, by name. -/
  chroots : List (String × StatusEnum)
  deriving DecidableEq, Repr

namespace Build

open BuildsLogic

/-- What is seen of a build. -/
def statuses (b : Build) : BuildStatuses where
  id := b.id
  sourceStatus := b.sourceStatus
  failType := b.failType
  chroots := b.buildChroots.map fun c => (c.name, c.status)

/-- A chroot of this name fails unless its status is terminal. -/
def failNamed (name : String) (c : BuildChroot) : BuildChroot :=
  { c with status := if c.name = name ∧ ¬ c.status.Terminal then .failed else c.status }

/-- The row after a report that the task failed. -/
def failedBy (b : Build) : BuildTask → Build
  | .source =>
    { b with
      sourceStatus := .failed
      failType := .srpmBuildError
      buildChroots := b.buildChroots.map fun c => { c with status := .failed } }
  | .chroot name =>
    { b with buildChroots := b.buildChroots.map (failNamed name) }

/-- A report that the task failed finds the row as it would leave it. -/
def failedAlready (b : Build) : BuildTask → Bool
  | .source =>
    decide (b.sourceStatus = .failed ∧ b.failType = .srpmBuildError) &&
      b.buildChroots.all fun c => decide (c.status = .failed)
  | .chroot name =>
    b.buildChroots.all fun c => decide (c.name ≠ name) || decide c.status.Terminal

variable {b b' : Build} {env : Surroundings} {upd : UpdDict} {task : BuildTask}

/-- What is seen is decided by the deciding columns. -/
theorem statuses_congr (same : b.statusOnly = b'.statusOnly) : b.statuses = b'.statuses := by
  have seen : ∀ row : Build, row.statuses = row.statusOnly.statuses := by
    intro row
    unfold statuses statusOnly
    rw [List.map_map]
    rfl
  rw [seen b, same, ← seen b']

/-- A report that a task failed, without a package and results. -/
structure Fails (b : Build) (upd : UpdDict) (task : BuildTask) : Prop where
  /-- `task_id`. -/
  taskId : upd.taskId = b.taskIdOf task
  /-- `chroot`. -/
  chroot : upd.chroot = some task.jobChroot
  /-- `status`. -/
  status : upd.status = .failed
  /-- `pkg_name`. -/
  pkgName : upd.pkgName = none
  /-- `results`. -/
  results : upd.results = none

/-- What a report that a task failed does to the deciding columns. -/
theorem fails_statusOnly (env : Surroundings) (fails : b.Fails upd task) :
    ((updateStateFromDict env b upd).getD b).statusOnly = (b.failedBy task).statusOnly := by
  have package : withPackage b upd = b := by
    unfold withPackage truthyText
    rw [fails.pkgName]
    cases b.package <;> rfl
  have answer : packageAnswer env b upd = .present := by
    unfold packageAnswer truthyText
    rw [fails.pkgName]
    cases b.package <;> rfl
  rw [updateStateFromDict_eq, answer]
  dsimp only
  rw [package]
  unfold updateAssigned
  cases task with
  | source =>
    have plain : upd.srpmResults = none := by
      unfold UpdDict.srpmResults
      rw [fails.results]
      split <;> rfl
    have other : upd.status ≠ .succeeded := by
      rw [fails.status]
      decide
    have chroots : sourceChroots env (setAttributes b upd) upd = b.buildChroots := by
      rw [sourceChroots, if_neg fun both => other both.1]
      rfl
    have known : b.buildChroots.all (tagsKnown upd) = true := by
      rw [List.all_eq_true]
      intro c _
      simp [tagsKnown, plain]
    have becomes : sourceBecomes env (setAttributes b upd) upd = .failed := by
      rw [sourceBecomes, if_neg other, fails.status]
    rw [if_pos (show upd.taskId = b.taskId from fails.taskId), updateSource_eq, chroots,
      if_pos known, becomes, Option.getD_some]
    refine statusOnly_congr ⟨rfl, rfl⟩ ⟨rfl, rfl⟩ rfl rfl rfl ?_
    simp only [failedBy, List.map_map]
    refine List.map_congr_left fun c _ => ?_
    apply BuildChroot.statusOnly_eq
    · exact (sourceChroot_keeps env upd c).1
    · rw [sourceChroot_status, sourceGives, skips, plain, fails.status]
      rfl
  | chroot name =>
    have apart : upd.taskId ≠ b.taskId := by
      intro same
      have longer := congrArg String.length (fails.taskId.symm.trans same)
      have dash : "-".length = 1 := rfl
      simp only [taskIdOf, taskId, String.length_append] at longer
      omega
    rw [if_neg apart, Option.getD_some]
    refine statusOnly_congr ⟨rfl, rfl⟩ ⟨rfl, rfl⟩ rfl rfl rfl ?_
    simp only [failedBy, List.map_map]
    refine List.map_congr_left fun c _ => ?_
    have named : upd.chroot = some c.name ↔ c.name = name := by
      rw [fails.chroot]
      exact Option.some_inj.trans eq_comm
    apply BuildChroot.statusOnly_eq
    · exact updateChroot_mockChroot env upd c
    · rw [updateChroot_status, fails.status]
      simp only [named]
      rfl

/-- A row that a report finds as it would leave it keeps its deciding columns, and any other is
seen to change. -/
theorem failedBy_same (b : Build) (task : BuildTask) :
    ((b.failedBy task).statuses = b.statuses ↔ b.failedAlready task = true) ∧
      (b.failedAlready task = true → (b.failedBy task).statusOnly = b.statusOnly) := by
  cases task with
  | source =>
    simp only [failedBy, failedAlready, statuses, BuildStatuses.mk.injEq, true_and, List.map_map,
      List.map_inj_left, Bool.and_eq_true, decide_eq_true_eq, List.all_eq_true]
    constructor
    · rw [and_assoc, eq_comm, and_congr_right_iff]
      intro _
      rw [eq_comm, and_congr_right_iff]
      intro _
      refine forall₂_congr fun c _ => ?_
      simp only [Function.comp_apply, Prod.mk.injEq]
      exact ⟨fun same => same.2.symm, fun failed => ⟨rfl, failed.symm⟩⟩
    · rintro ⟨⟨status, failType⟩, chroots⟩
      refine statusOnly_congr ⟨rfl, rfl⟩ ⟨status.symm, failType.symm⟩ rfl rfl rfl ?_
      rw [List.map_map]
      refine List.map_congr_left fun c member => ?_
      exact BuildChroot.statusOnly_eq rfl (chroots c member).symm
  | chroot name =>
    have each : ∀ c : BuildChroot,
        (failNamed name c).status = c.status ↔ c.name ≠ name ∨ c.status.Terminal := by
      intro c
      have failed : StatusEnum.failed.Terminal := by decide
      show (if c.name = name ∧ ¬ c.status.Terminal then .failed else c.status) = c.status ↔ _
      by_cases named : c.name = name
      · by_cases terminal : c.status.Terminal
        · simp [named, terminal]
        · have other : StatusEnum.failed ≠ c.status := fun same => terminal (same ▸ failed)
          simp [named, terminal, other]
      · simp [named]
    simp only [failedBy, failedAlready, statuses, BuildStatuses.mk.injEq, true_and, List.map_map,
      List.map_inj_left, Bool.or_eq_true, decide_eq_true_eq, List.all_eq_true]
    constructor
    · refine forall₂_congr fun c _ => ?_
      rw [← each c]
      exact ⟨fun same => (Prod.mk.inj same).2, fun same => Prod.ext rfl same⟩
    · intro settled
      refine statusOnly_congr ⟨rfl, rfl⟩ ⟨rfl, rfl⟩ rfl rfl rfl ?_
      rw [List.map_map]
      refine List.map_congr_left fun c member => ?_
      exact BuildChroot.statusOnly_eq rfl ((each c).mpr (settled c member))

end Build

/-! ## The conversation -/

namespace Database

/-- `starting_build`: the answer `can_start`; `none` is an error response. -/
def canStart (db : Database) (env : Surroundings) (buildId : Nat) (upd : UpdDict) : Option Bool :=
  match db.builds.find? fun b => decide (b.id = buildId) with
  | none => some false
  | some b => (b.startingBuild env upd).map Prod.fst

/-- The reports of a worker arrive. -/
def reported (db : Database) (env : Surroundings) (buildId : Nat) (reports : List UpdDict) :
    Database :=
  reports.foldl (fun db upd => db.receive (.update env buildId upd)) db

/-- What is seen of all builds. -/
def statuses (db : Database) : List BuildStatuses := db.builds.map Build.statuses

variable {db db' : Database}

/-- Databases that agree in the deciding columns look the same. -/
theorem statuses_congr (agree : db.statusOnly = db'.statusOnly) : db.statuses = db'.statuses := by
  have seen : ∀ rows : Database, rows.statuses = rows.statusOnly.builds.map Build.statuses := by
    intro rows
    unfold statuses statusOnly
    rw [List.map_map]
    exact List.map_congr_left fun b _ => Build.statuses_congr b.statusOnly_twice.symm
  rw [seen db, agree, ← seen db']

/-- A report that a task failed leaves the statuses, then and after any further operations,
exactly if it finds the build as it would leave it. -/
theorem failedReport_same {env : Surroundings} {b₀ : Build} {upd : UpdDict} {task : BuildTask}
    (fails : b₀.Fails upd task) (ops : List Operation) :
    ((∀ b ∈ db.builds, b.id = b₀.id → b.failedAlready task = true) →
        ((db.receive (.update env b₀.id upd)).operateAll ops).statuses =
          (db.operateAll ops).statuses) ∧
      ((db.receive (.update env b₀.id upd)).statuses = db.statuses →
        ∀ b ∈ db.builds, b.id = b₀.id → b.failedAlready task = true) := by
  have own : ∀ b : Build, b.id = b₀.id →
      (b.receive (.update env b₀.id upd)).statusOnly = (b.failedBy task).statusOnly := by
    intro b same
    have taskId : b.taskIdOf task = b₀.taskIdOf task := by
      cases task with
      | source => exact congrArg toString same
      | chroot name => exact congrArg (fun id => toString id ++ "-" ++ name) same
    have addressed : b.addressed (.update env b₀.id upd) = true := decide_eq_true same
    unfold Build.receive
    rw [if_pos addressed]
    exact Build.fails_statusOnly env ⟨fails.taskId.trans taskId.symm, fails.chroot, fails.status,
      fails.pkgName, fails.results⟩
  have other : ∀ b : Build, b.id ≠ b₀.id → b.receive (.update env b₀.id upd) = b := by
    intro b apart
    unfold Build.receive
    rw [if_neg]
    simpa [Build.addressed] using apart
  constructor
  · intro already
    refine statuses_congr (operateAll_statusOnly ?_ ops)
    have builds : (db.receive (.update env b₀.id upd)).builds.map Build.statusOnly =
        db.builds.map Build.statusOnly := by
      show (db.builds.map _).map _ = _
      rw [List.map_map]
      refine List.map_congr_left fun b member => ?_
      rw [Function.comp_apply]
      by_cases same : b.id = b₀.id
      · rw [own b same]
        exact (b.failedBy_same task).2 (already b member same)
      · rw [other b same]
    have requests : (db.receive (.update env b₀.id upd)).cancelRequests = db.cancelRequests := by
      show db.cancelRequests ++ db.builds.flatMap (fun _ => []) = db.cancelRequests
      simp
    unfold statusOnly
    rw [builds, requests]
    rfl
  · intro look b member same
    have seen : (db.builds.map fun b => b.receive (.update env b₀.id upd)).map Build.statuses =
        db.builds.map Build.statuses := look
    rw [List.map_map, List.map_inj_left] at seen
    have unchanged := seen b member
    rw [Function.comp_apply, Build.statuses_congr (own b same)] at unchanged
    exact (b.failedBy_same task).1.mp unchanged

end Database

/-- A worker that was refused has no influence on source statuses, fail types and chroot statuses,
whatever comes before and after its report, exactly if the report finds the build as it would
leave it: the source build failed, with all chroots, or the chroot in a terminal status. -/
theorem refused_worker_has_no_influence (db : Database) (startEnv env : Surroundings)
    (obtained now : Int) (resultDir : String) (b : Build) (task : BuildTask)
    (retry : BuildJob → List UpdDict × BuildJob) (before : List Operation)
    (refused : db.canStart startEnv b.id
      (BuildJob.obtain obtained resultDir b task).markStarting.toDict = some false) :
    (∀ later, (((db.operateAll before).reported env b.id
        ((BuildJob.obtain obtained resultDir b task).handleTask now retry
          (db.canStart startEnv b.id
            (BuildJob.obtain obtained resultDir b task).markStarting.toDict))).operateAll
        later).statuses = ((db.operateAll before).operateAll later).statuses) ↔
      ∀ row ∈ (db.operateAll before).builds, row.id = b.id → row.failedAlready task = true := by
  rw [refused, BuildJob.handleTask_refused]
  have fails : b.Fails { (BuildJob.obtain obtained resultDir b task).toDict with
      status := .failed, endedOn := some now } task := ⟨rfl, rfl, rfl, rfl, rfl⟩
  constructor
  · intro always
    exact (Database.failedReport_same fails []).2 (always [])
  · intro already later
    exact (Database.failedReport_same fails later).1 already

namespace Sample

/-- Build 1 before anything has happened to it. -/
def waitingBuild : Build := Database.addedBuild 1 none submission

/-- What a worker asks for, which got its job for a task of build 1. -/
def startRequest (task : BuildTask) : UpdDict :=
  (BuildJob.obtain 900 "00000001" waitingBuild task).markStarting.toDict

/-- The reports of the worker after the answer. -/
def workerReports (task : BuildTask) (canStart : Option Bool) : List UpdDict :=
  (BuildJob.obtain 900 "00000001" waitingBuild task).handleTask 1000 (fun job => ([], job)) canStart

end Sample

/-- The worker of a chroot that was canceled at the end of its life is refused, because the build
was canceled as well. -/
theorem refused_worker_has_no_influence_canceled :
    ∃ db : Database, Run Database.operate anyEvent Database.empty db ∧
      ((∀ later, ((db.reported Sample.project 1 (Sample.workerReports (.chroot "fedora-39-x86_64")
          (db.canStart Sample.project 1
            (Sample.startRequest (.chroot "fedora-39-x86_64"))))).operateAll later).statuses =
          (db.operateAll later).statuses) ↔
        ∀ row ∈ db.builds, row.id = 1 → row.failedAlready (.chroot "fedora-39-x86_64") = true) := by
  obtain ⟨db, run, seen⟩ := exec_observe Database.operate (fun _ _ => true) Database.empty
    [Sample.submitted, .message (.cancelBuildChrootsByMock Sample.fedora),
      .message (.cancelBuild 1)]
    (fun db => db.canStart Sample.project 1 (Sample.startRequest (.chroot "fedora-39-x86_64")))
    (some false) (by decide)
  exact ⟨db, run_weaken (fun _ _ _ => trivial) run, refused_worker_has_no_influence db
    Sample.project Sample.project 900 1000 "00000001" Sample.waitingBuild
    (.chroot "fedora-39-x86_64") (fun job => ([], job)) [] seen⟩

/-- A build is canceled before its source build starts; the worker is refused and reports the
source build as failed, and all chroots with it. -/
theorem refused_worker_fails_the_build :
    ¬ ∀ db : Database, Run Database.operate anyEvent Database.empty db →
      ∀ task, db.canStart Sample.project 1 (Sample.startRequest task) = some false →
        ∀ later, ((db.reported Sample.project 1 (Sample.workerReports task
          (db.canStart Sample.project 1 (Sample.startRequest task)))).operateAll later).statuses =
            (db.operateAll later).statuses := by
  intro always
  have executed : ((exec Database.operate (fun _ _ => true) Database.empty
      [Sample.submitted, .message (.cancelBuild 1)]).map fun db =>
        decide (db.canStart Sample.project 1 (Sample.startRequest .source) = some false) &&
          decide ((db.reported Sample.project 1
            (Sample.workerReports .source (some false))).statuses ≠ db.statuses)) =
        some true := by decide
  obtain ⟨db, run, seen⟩ := exec_observe Database.operate (fun _ _ => true) Database.empty
    [Sample.submitted, .message (.cancelBuild 1)] _ true executed
  simp only [Bool.and_eq_true, decide_eq_true_eq] at seen
  have same := always db (run_weaken (fun _ _ _ => trivial) run) .source seen.1 []
  rw [seen.1] at same
  exact seen.2 same

end Copr
