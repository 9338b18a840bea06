import Copr.Frontend.BackendGeneral

/-!
# What a message does to the statuses

`update_state_from_dict` resets, finishes and skips chroots one after another. Here its effect
is stated once, as one function of each chroot, and so are the effects of the other messages
on the source status and the chroot statuses. The results about runs use only these facts.
-/

namespace Copr

namespace BuildsLogic

variable {env : Surroundings} {upd : UpdDict} {b : Build}

/-! ## Reports about a source build -/

/-- The report excludes the architecture of the chroot. -/
def skips (upd : UpdDict) (c : BuildChroot) : Bool :=
  match upd.srpmResults.bind fun results => results.tagsOf c with
  | none => false
  | some tags => tags.excludes c.mockChroot.arch

/-- The report has tags for the chroot, or none at all. -/
def tagsKnown (upd : UpdDict) (c : BuildChroot) : Bool :=
  match upd.srpmResults with
  | none => true
  | some results => (results.tagsOf c).isSome

/-- The status that a report about the source build gives to a chroot. -/
def sourceGives (upd : UpdDict) (c : BuildChroot) : StatusEnum :=
  if skips upd c then .skipped
  else
    match upd.status with
    | .succeeded => .waiting
    | .failed => .failed
    | .skipped => .skipped
    | _ => c.status

/-- The chroots that a report about the source build is about. -/
def sourceChroots (env : Surroundings) (b : Build) (upd : UpdDict) : List BuildChroot :=
  if upd.status = .succeeded ∧ b.buildChroots = [] then
    assignBuildchrootsFromPackage env b .waiting
  else b.buildChroots

/-- The source status after a report about the source build. -/
def sourceBecomes (env : Surroundings) (b : Build) (upd : UpdDict) : StatusEnum :=
  if upd.status = .succeeded then
    if sourceChroots env b upd = [] then .failed else .importing
  else upd.status

/-- The chroot before architectures are looked at. -/
def settledChroot (env : Surroundings) (upd : UpdDict) (c : BuildChroot) : BuildChroot :=
  if upd.status = .succeeded then { c with status := .waiting }
  else if upd.status = .failed ∨ upd.status = .skipped then finish env upd c upd.status
  else c

/-- What a report about the source build does to one chroot. -/
def sourceChroot (env : Surroundings) (upd : UpdDict) (c : BuildChroot) : BuildChroot :=
  match upd.srpmResults.bind fun results => results.tagsOf c with
  | none => settledChroot env upd c
  | some tags => skipExcluded env upd tags (settledChroot env upd c)

/-- Skipping changes neither the mock chroot nor the results of a chroot. -/
theorem skipExcluded_keeps (env : Surroundings) (upd : UpdDict) (tags : ArchTags)
    (c : BuildChroot) :
    (skipExcluded env upd tags c).mockChroot = c.mockChroot ∧
      (skipExcluded env upd tags c).results = c.results := by
  unfold skipExcluded
  dsimp only
  split <;> split <;> exact ⟨rfl, rfl⟩

/-- Skipping skips exactly the excluded architectures. -/
theorem skipExcluded_status (env : Surroundings) (upd : UpdDict) (tags : ArchTags)
    (c : BuildChroot) : (skipExcluded env upd tags c).status =
      if tags.excludes c.mockChroot.arch then .skipped else c.status := by
  unfold skipExcluded ArchTags.excludes
  dsimp only
  by_cases excluded : tags.excludearch.contains c.mockChroot.arch = true
  · rw [if_pos excluded, excluded, Bool.or_true, if_pos rfl]
    rfl
  · rw [if_neg excluded, eq_false_of_ne_true excluded, Bool.or_false]
    split <;> rfl

/-- Nothing but the status and the times is settled. -/
theorem settledChroot_keeps (env : Surroundings) (upd : UpdDict) (c : BuildChroot) :
    (settledChroot env upd c).mockChroot = c.mockChroot ∧
      (settledChroot env upd c).results = c.results := by
  unfold settledChroot
  split
  · exact ⟨rfl, rfl⟩
  · split <;> exact ⟨rfl, rfl⟩

/-- A report about the source build changes neither the mock chroot nor the results of a
chroot. -/
theorem sourceChroot_keeps (env : Surroundings) (upd : UpdDict) (c : BuildChroot) :
    (sourceChroot env upd c).mockChroot = c.mockChroot ∧
      (sourceChroot env upd c).results = c.results := by
  obtain ⟨mock, results⟩ := settledChroot_keeps env upd c
  unfold sourceChroot
  split
  · exact ⟨mock, results⟩
  · obtain ⟨mock', results'⟩ := skipExcluded_keeps env upd _ (settledChroot env upd c)
    exact ⟨mock'.trans mock, results'.trans results⟩

/-- The status of a chroot after a report about the source build. -/
theorem sourceChroot_status (env : Surroundings) (upd : UpdDict) (c : BuildChroot) :
    (sourceChroot env upd c).status = sourceGives upd c := by
  have settled : (settledChroot env upd c).status = match upd.status with
      | .succeeded => .waiting
      | .failed => .failed
      | .skipped => .skipped
      | _ => c.status := by
    unfold settledChroot
    cases upd.status <;> rfl
  unfold sourceChroot sourceGives skips
  split
  · exact settled
  · rw [skipExcluded_status, (settledChroot_keeps env upd c).1, settled]

/-- A report that settles the chroots leaves none to be built. -/
theorem sourceGives_settled {c : BuildChroot}
    (settles : upd.status = .succeeded ∨ upd.status = .failed ∨ upd.status = .skipped) :
    ¬ (sourceGives upd c).Todo := by
  unfold sourceGives
  split
  · decide
  · rcases settles with same | same | same <;> simp only [same] <;> decide

/-- A report that settles the chroots ends the source task. -/
theorem sourceBecomes_settled (env : Surroundings) (b : Build)
    (settles : upd.status = .succeeded ∨ upd.status = .failed ∨ upd.status = .skipped) :
    ¬ (sourceBecomes env b upd).Todo := by
  unfold sourceBecomes
  rcases settles with same | same | same
  · rw [if_pos same]
    split <;> decide
  · rw [if_neg (by simp [same]), same]
    decide
  · rw [if_neg (by simp [same]), same]
    decide

/-- Other reports about the source build only skip chroots. -/
theorem sourceGives_other {c : BuildChroot}
    (other : ¬ (upd.status = .succeeded ∨ upd.status = .failed ∨ upd.status = .skipped)) :
    sourceGives upd c = if skips upd c then .skipped else c.status := by
  unfold sourceGives
  cases reported : upd.status <;> simp_all

/-- Skipping the chroots of a report succeeds if all of them have tags. -/
theorem skipChroots_eq (env : Surroundings) (upd : UpdDict) (chroots : List BuildChroot) :
    skipChroots env upd chroots =
      if chroots.all (tagsKnown upd) then
        some (chroots.map fun c =>
          match upd.srpmResults.bind fun results => results.tagsOf c with
          | none => c
          | some tags => skipExcluded env upd tags c)
      else none := by
  unfold skipChroots tagsKnown
  cases upd.srpmResults with
  | none => simp
  | some results =>
    induction chroots with
    | nil => rfl
    | cons c rest ih =>
      simp only [List.mapM_cons, List.all_cons, List.map_cons, Option.bind_some] at ih ⊢
      rw [ih]
      cases results.tagsOf c with
      | none => rfl
      | some tags => by_cases known : (rest.all fun c => (results.tagsOf c).isSome) = true <;>
          simp [known]

/-- Whether a chroot has tags depends on its mock chroot only. -/
theorem tagsKnown_congr {c d : BuildChroot} (same : c.mockChroot = d.mockChroot) :
    tagsKnown upd c = tagsKnown upd d := by
  unfold tagsKnown Results.tagsOf
  rw [same]

/-- Before chroots are finished or skipped they wait for the import, or are as they were. -/
theorem startChroots_eq (env : Surroundings) (b : Build) (upd : UpdDict) :
    startChroots env b upd = (sourceBecomes env b upd, (sourceChroots env b upd).map fun c =>
      if upd.status = .succeeded then { c with status := .waiting } else c) := by
  unfold startChroots sourceBecomes sourceChroots
  by_cases succeeded : upd.status = .succeeded
  · by_cases empty : b.buildChroots = []
    · simp only [succeeded, empty, List.isEmpty_nil, and_self, if_true]
      have fresh : (assignBuildchrootsFromPackage env b .waiting).map (fun c =>
          { c with status := .waiting }) = assignBuildchrootsFromPackage env b .waiting := by
        unfold assignBuildchrootsFromPackage
        split
        · rfl
        · rw [List.map_map]
          rfl
      rw [fresh]
      split
      · rename_i none
        rw [none]
        rfl
      · rename_i some
        rw [if_neg some]
    · simp [succeeded, empty]
  · simp [succeeded]

/-- Chroots are finished one by one. -/
theorem finishChroots_eq (env : Surroundings) (b : Build) (upd : UpdDict) :
    finishChroots env upd (startChroots env b upd).1 (startChroots env b upd).2 =
      (sourceChroots env b upd).map (settledChroot env upd) := by
  rw [startChroots_eq]
  unfold finishChroots settledChroot sourceBecomes
  by_cases succeeded : upd.status = .succeeded
  · by_cases empty : sourceChroots env b upd = []
    · simp [empty]
    · simp [succeeded, empty]
  · simp only [if_neg succeeded, List.map_id']
    split
    · rfl
    · simp

/-- A report about the source build in one piece. -/
theorem updateSource_eq (env : Surroundings) (b : Build) (upd : UpdDict) :
    updateSource env b upd =
      if (sourceChroots env b upd).all (tagsKnown upd) then
        some { b with
          resultDir := upd.resultDir.getD ""
          sourceStatus := sourceBecomes env b upd
          failType := if sourceBecomes env b upd = .failed then .srpmBuildError else b.failType
          buildChroots := (sourceChroots env b upd).map (sourceChroot env upd) }
      else none := by
  have known : ((sourceChroots env b upd).map (settledChroot env upd)).all (tagsKnown upd) =
      (sourceChroots env b upd).all (tagsKnown upd) := by
    rw [List.all_map]
    congr 1
    funext c
    exact tagsKnown_congr (settledChroot_keeps env upd c).1
  have status : (startChroots env b upd).1 = sourceBecomes env b upd := by rw [startChroots_eq]
  have tags : ∀ c, (upd.srpmResults.bind fun results => results.tagsOf (settledChroot env upd c)) =
      upd.srpmResults.bind fun results => results.tagsOf c := by
    intro c
    unfold Results.tagsOf
    rw [(settledChroot_keeps env upd c).1]
  have finished := finishChroots_eq env b upd
  rw [status] at finished
  unfold updateSource
  simp only [status, finished, skipChroots_eq, known]
  by_cases all : (sourceChroots env b upd).all (tagsKnown upd) = true
  · simp only [if_pos all, Option.map_some, List.map_map]
    congr 3
    funext c
    simp only [Function.comp_apply, sourceChroot, tags]
  · simp only [if_neg all, Option.map_none]

/-! ## Reports in general -/

/-- The columns that a report leaves alone. -/
structure SameRow (b b' : Build) : Prop where
  /-- Primary key. -/
  id : b'.id = b.id
  /-- `canceled`. -/
  canceled : b'.canceled = b.canceled
  /-- `batch_id`. -/
  batchId : b'.batchId = b.batchId
  /-- `is_background`. -/
  isBackground : b'.isBackground = b.isBackground

/-- A build is the same row as itself. -/
theorem SameRow.refl (b : Build) : SameRow b b := ⟨rfl, rfl, rfl, rfl⟩

/-- The build with the package that the report names, should it have none. -/
def withPackage (b : Build) (upd : UpdDict) : Build :=
  match b.package, truthyText upd.pkgName with
  | none, some name => { b with package := some name }
  | _, _ => b

/-- The fate of the package that the report names, should the build have none. -/
def packageAnswer (env : Surroundings) (b : Build) (upd : UpdDict) : PackageLookup :=
  match b.package, truthyText upd.pkgName with
  | none, some _ => env.packageLookup
  | _, _ => .present

/-- The report takes effect: its package is there, and so are the tags of all chroots. -/
def taken (env : Surroundings) (b : Build) (upd : UpdDict) : Bool :=
  decide (packageAnswer env b upd = .present) &&
    (decide (upd.taskId ≠ b.taskId) ||
      (sourceChroots env (withPackage b upd) upd).all (tagsKnown upd))

/-- What a report does to a build. -/
inductive Reported (env : Surroundings) (b : Build) (upd : UpdDict) (b' : Build) : Prop
  /-- The report has no effect. -/
  | ignored (refused : taken env b upd = false) (same : b' = b)
  /-- The report is about the source build. -/
  | source (accepted : taken env b upd = true) (task : upd.taskId = b.taskId) (row : SameRow b b')
      (package : b'.package = (withPackage b upd).package)
      (status : b'.sourceStatus = sourceBecomes env (withPackage b upd) upd)
      (chroots : b'.buildChroots =
        (sourceChroots env (withPackage b upd) upd).map (sourceChroot env upd))
  /-- The report is about a chroot. -/
  | chroot (accepted : taken env b upd = true) (task : upd.taskId ≠ b.taskId) (row : SameRow b b')
      (package : b'.package = (withPackage b upd).package)
      (status : b'.sourceStatus = b.sourceStatus)
      (chroots : b'.buildChroots = b.buildChroots.map (updateChroot env upd))

/-- The package is all that changes before the report is looked at. -/
theorem withPackage_keeps (b : Build) (upd : UpdDict) :
    SameRow b (withPackage b upd) ∧ (withPackage b upd).sourceStatus = b.sourceStatus ∧
      (withPackage b upd).buildChroots = b.buildChroots := by
  unfold withPackage
  split <;> exact ⟨⟨rfl, rfl, rfl, rfl⟩, rfl, rfl⟩

/-- A report first asks for its package. -/
theorem updateStateFromDict_eq (env : Surroundings) (b : Build) (upd : UpdDict) :
    updateStateFromDict env b upd = match packageAnswer env b upd with
      | .present => updateAssigned env (withPackage b upd) upd
      | .raced => some b
      | .refused => none := by
  unfold updateStateFromDict packageAnswer withPackage
  cases b.package with
  | some package => rfl
  | none =>
    cases truthyText upd.pkgName with
    | none => rfl
    | some name => rfl

/-- Every report has one of these effects. -/
theorem updateStateFromDict_reported (env : Surroundings) (b : Build) (upd : UpdDict) :
    Reported env b upd ((updateStateFromDict env b upd).getD b) := by
  obtain ⟨row, status, chroots⟩ := withPackage_keeps b upd
  rw [updateStateFromDict_eq]
  cases answer : packageAnswer env b upd with
  | raced => exact .ignored (by simp [taken, answer]) rfl
  | refused => exact .ignored (by simp [taken, answer]) rfl
  | present =>
    have sameTask : (withPackage b upd).taskId = b.taskId := congrArg toString row.id
    have sameChroots : sourceChroots env (setAttributes (withPackage b upd) upd) upd =
        sourceChroots env (withPackage b upd) upd := rfl
    by_cases task : upd.taskId = b.taskId
    · simp only [updateAssigned, if_pos (task.trans sameTask.symm), updateSource_eq, sameChroots]
      by_cases known : (sourceChroots env (withPackage b upd) upd).all (tagsKnown upd) = true
      · rw [if_pos known]
        exact .source (by simp [taken, answer, known]) task ⟨row.id, row.canceled, row.batchId,
          row.isBackground⟩ rfl rfl rfl
      · rw [if_neg known]
        exact .ignored (by simp [taken, answer, task, known]) rfl
    · have other : upd.taskId ≠ (withPackage b upd).taskId := sameTask.symm ▸ task
      simp only [updateAssigned, if_neg other]
      refine .chroot (by simp [taken, answer, task]) task ⟨row.id, row.canceled, row.batchId,
          row.isBackground⟩ rfl status ?_
      rw [Option.getD_some, chroots]

/-- The status of a chroot after a report about a chroot. -/
theorem updateChroot_status (env : Surroundings) (upd : UpdDict) (c : BuildChroot) :
    (updateChroot env upd c).status =
      if upd.chroot = some c.name ∧ ¬ c.status.Terminal then upd.status else c.status := by
  unfold updateChroot
  by_cases named : upd.chroot = some c.name
  · by_cases terminal : c.status.Terminal <;> simp [named, terminal]
  · simp [named]

end BuildsLogic

/-! ## The unique constraint on chroots -/

namespace Build

open BuildsLogic

/-- Changing chroots one by one keeps their names. -/
theorem names_map {f : BuildChroot → BuildChroot} (keeps : ∀ c, (f c).mockChroot = c.mockChroot)
    (chroots : List BuildChroot) :
    (chroots.map f).map BuildChroot.name = chroots.map BuildChroot.name := by
  rw [List.map_map]
  exact List.map_congr_left fun c _ => congrArg MockChroot.name (keeps c)

/-- A build whose chroots are changed one by one keeps the constraint. -/
theorem Distinct.map {b b' : Build} {f : BuildChroot → BuildChroot} (distinct : b.Distinct)
    (keeps : ∀ c, (f c).mockChroot = c.mockChroot)
    (changed : b'.buildChroots = b.buildChroots.map f) : b'.Distinct := by
  unfold Distinct
  rw [changed, names_map keeps]
  exact distinct

/-- Under the constraint chroots of one name are the same chroot. -/
theorem Distinct.eq {b : Build} (distinct : b.Distinct) {c d : BuildChroot}
    (memberC : c ∈ b.buildChroots) (memberD : d ∈ b.buildChroots) (same : c.name = d.name) :
    c = d :=
  List.inj_on_of_nodup_map distinct memberC memberD same

/-- A report about a chroot keeps its mock chroot. -/
theorem updateChroot_mockChroot (env : Surroundings) (upd : UpdDict) (c : BuildChroot) :
    (updateChroot env upd c).mockChroot = c.mockChroot := by
  unfold updateChroot
  split <;> rfl

/-- The import keeps the mock chroot. -/
theorem importChroot_mockChroot (branchCommits : List (String × String)) (c : BuildChroot) :
    (importChroot branchCommits c).mockChroot = c.mockChroot := by
  unfold importChroot
  split
  · split <;> rfl
  · rfl

/-- A report keeps the constraint. -/
theorem report_distinct {env : Surroundings} {b : Build} {upd : UpdDict} (distinct : b.Distinct) :
    ((updateStateFromDict env b upd).getD b).Distinct := by
  cases updateStateFromDict_reported env b upd with
  | ignored _ same =>
    rw [same]
    exact distinct
  | source _ _ _ _ _ chroots =>
    have started : ((sourceChroots env (withPackage b upd) upd).map BuildChroot.name).Nodup := by
      unfold sourceChroots assignBuildchrootsFromPackage
      split
      · split
        · exact List.nodup_nil
        · rw [List.map_map]
          exact env.packageChroots.distinct
      · exact (withPackage_keeps b upd).2.2 ▸ distinct
    unfold Distinct
    rw [chroots, names_map fun c => (sourceChroot_keeps env upd c).1]
    exact started
  | chroot _ _ _ _ _ chroots => exact distinct.map (updateChroot_mockChroot env upd) chroots

/-- Starting a build is a report, unless the build is canceled. -/
theorem handle_startingBuild (b : Build) (env : Surroundings) (buildId : Nat) (upd : UpdDict) :
    (b.handle (.startingBuild env buildId upd)).getD b =
      if b.canceled then b else (updateStateFromDict env b upd).getD b := by
  simp only [handle, startingBuild]
  split
  · rfl
  · cases updateStateFromDict env b upd <;> rfl

/-- Rescheduling is nothing or a report of a pending task that was handed out. -/
theorem reschedule_cases (env : Surroundings) (b : Build) (taskId : String)
    (chroot : Option String) :
    (b.rescheduleBuildChroot env taskId chroot).getD b = b ∨
      (∃ upd : UpdDict, upd.status = .pending ∧ upd.srpmResults = none ∧ b.canceled = false ∧
        (b.rescheduleBuildChroot env taskId chroot) = updateStateFromDict env b upd ∧
        ((upd.taskId = b.taskId ∧ b.sourceStatus ∈ StatusEnum.runStatuses) ∨
          (upd.taskId ≠ b.taskId ∧ ∃ c ∈ b.buildChroots, upd.chroot = some c.name ∧
            c.status ∈ StatusEnum.runStatuses))) := by
  unfold rescheduleBuildChroot
  by_cases canceled : b.canceled = true
  · simp [canceled]
  · rw [if_neg canceled]
    have active : b.canceled = false := by simpa using canceled
    by_cases task : taskId = b.taskId
    · rw [if_pos task]
      by_cases running : b.sourceStatus ∈ StatusEnum.runStatuses
      · rw [if_pos running]
        exact .inr ⟨_, rfl, rfl, active, rfl, .inl ⟨task, running⟩⟩
      · rw [if_neg running]
        exact .inl rfl
    · rw [if_neg task]
      by_cases running : (b.buildChroots.any fun c =>
          decide (some c.name = chroot) && decide (c.status ∈ StatusEnum.runStatuses)) = true
      · rw [if_pos running]
        obtain ⟨c, member, found⟩ := List.any_eq_true.mp running
        simp only [Bool.and_eq_true, decide_eq_true_eq] at found
        refine .inr ⟨_, rfl, ?_, active, rfl, .inr ⟨task, c, member, found.1.symm, found.2⟩⟩
        unfold UpdDict.srpmResults
        split <;> rfl
      · rw [if_neg running]
        exact .inl rfl

/-- Every message keeps the constraint. -/
theorem receive_distinct {b : Build} (distinct : b.Distinct) (m : Message) :
    (b.receive m).Distinct := by
  unfold receive
  split
  · cases m with
    | update env buildId upd => exact report_distinct distinct
    | startingBuild env buildId upd =>
      rw [handle_startingBuild]
      split
      · exact distinct
      · exact report_distinct distinct
    | rescheduleBuildChroot env buildId taskId chroot =>
      rcases b.reschedule_cases env taskId chroot with same | ⟨upd, -, -, -, same, -⟩
      · simp only [handle, same]
        exact distinct
      · simp only [handle, same]
        exact report_distinct distinct
    | importCompleted buildId branchCommits =>
      have changed := fun c => importChroot_mockChroot branchCommits c
      simp only [handle, distGitUploadCompleted]
      split
      · split
        · exact distinct
        · exact distinct.map changed rfl
      · exact distinct.map changed rfl
    | buildTaskCanceled taskId =>
      simp only [handle, buildTaskCanceled, Option.getD_some]
      split
      · exact distinct.map (fun c => by split <;> rfl) rfl
      · split <;> exact distinct
    | cancelBuild buildId =>
      simp only [handle, BuildsLogic.cancelBuild]
      split <;> exact distinct
    | cancelBuildChrootsByMock mockChroot =>
      exact distinct.map (fun c => by split <;> rfl) rfl
  · exact distinct

/-! ## The columns that messages leave alone -/

/-- A report changes the statuses, the chroots and the package data only. -/
theorem report_row (env : Surroundings) (b : Build) (upd : UpdDict) :
    SameRow b ((updateStateFromDict env b upd).getD b) := by
  cases updateStateFromDict_reported env b upd with
  | ignored _ same =>
    rw [same]
    exact .refl b
  | source _ _ row _ _ _ => exact row
  | chroot _ _ row _ _ _ => exact row

/-- Canceling a build sets its flag and does nothing else; no other message touches it. -/
theorem receive_row (b : Build) (m : Message) :
    SameRow b (b.receive m) ∨
      ((∃ buildId, m = .cancelBuild buildId) ∧ b.receive m = { b with canceled := true }) := by
  unfold receive
  split
  · cases m with
    | update env buildId upd => exact .inl (report_row env b upd)
    | startingBuild env buildId upd =>
      rw [handle_startingBuild]
      split
      · exact .inl (.refl b)
      · exact .inl (report_row env b upd)
    | rescheduleBuildChroot env buildId taskId chroot =>
      rcases b.reschedule_cases env taskId chroot with same | ⟨upd, -, -, -, same, -⟩
      · simp only [handle, same]
        exact .inl (.refl b)
      · simp only [handle, same]
        exact .inl (report_row env b upd)
    | importCompleted buildId branchCommits =>
      simp only [handle, distGitUploadCompleted]
      split
      · split <;> exact .inl ⟨rfl, rfl, rfl, rfl⟩
      · exact .inl ⟨rfl, rfl, rfl, rfl⟩
    | buildTaskCanceled taskId =>
      simp only [handle, buildTaskCanceled, Option.getD_some]
      split
      · exact .inl ⟨rfl, rfl, rfl, rfl⟩
      · split <;> exact .inl ⟨rfl, rfl, rfl, rfl⟩
    | cancelBuild buildId =>
      simp only [handle, BuildsLogic.cancelBuild]
      split
      · exact .inr ⟨⟨buildId, rfl⟩, rfl⟩
      · exact .inl (.refl b)
    | cancelBuildChrootsByMock mockChroot => exact .inl ⟨rfl, rfl, rfl, rfl⟩
  · exact .inl (.refl b)

/-- Messages keep the id of a build. -/
@[simp] theorem receive_id (b : Build) (m : Message) : (b.receive m).id = b.id := by
  rcases b.receive_row m with row | ⟨-, same⟩
  · exact row.id
  · rw [same]

/-- A canceled build stays canceled. -/
theorem receive_canceled {b : Build} (canceled : b.canceled = true) (m : Message) :
    (b.receive m).canceled = true := by
  rcases b.receive_row m with row | ⟨-, same⟩
  · rw [row.canceled, canceled]
  · rw [same]

end Build

end Copr
