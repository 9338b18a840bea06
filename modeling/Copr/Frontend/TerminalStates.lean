import Copr.Frontend.Reports

/-!
# Finished chroots

Which messages keep a finished build chroot finished. The guard on terminal states in
`update_state_from_dict` and the one on skipped chroots in `dist_git_upload_completed` cover
some of the ways in which a message sets the status; the exact condition on a message and the
row it finds says what is left.
-/

namespace Copr

open Runs

namespace Build

open BuildsLogic

/-- Every finished chroot stays in its place and finished. -/
def FinishedStays (b b' : Build) : Prop :=
  ∀ (j : Nat) (c : BuildChroot), b.buildChroots[j]? = some c → c.status.Finished →
    ∃ c', b'.buildChroots[j]? = some c' ∧ c'.status.Finished

/-- A report about the source build as succeeded skips all finished chroots again, and a
report about a skipped or forked chroot has a finished status. -/
def reportSpares (env : Surroundings) (b : Build) (upd : UpdDict) : Bool :=
  !taken env b upd ||
    if upd.taskId = b.taskId then
      decide (upd.status ≠ .succeeded) ||
        b.buildChroots.all fun c => !decide c.status.Finished || skips upd c
    else
      decide upd.status.Finished ||
        b.buildChroots.all fun c => decide (upd.chroot ≠ some c.name) ||
          decide (c.status ≠ .skipped ∧ c.status ≠ .forked)

/-- All finished chroots on branches with a commit are skipped ones, unless the request fails
for want of a package. -/
def importSpares (branchCommits : List (String × String)) (b : Build) : Bool :=
  (b.package.isNone && b.buildChroots.all (collected branchCommits)) ||
    b.buildChroots.all fun c => !decide c.status.Finished || !collected branchCommits c ||
      decide (c.status = .skipped)

/-- The message finds the build in a state in which it unfinishes no chroot. -/
def sparesFinished (b : Build) : Message → Bool
  | .update env _ upd => reportSpares env b upd
  | .startingBuild env _ upd => b.canceled || reportSpares env b upd
  | .importCompleted _ branchCommits => importSpares branchCommits b
  | _ => true

/-- A build keeps its own finished chroots. -/
theorem FinishedStays.refl (b : Build) : b.FinishedStays b :=
  fun _ c found finished => ⟨c, found, finished⟩

/-- Finished chroots stay finished over two steps. -/
theorem FinishedStays.trans {a b c : Build} (first : a.FinishedStays b)
    (second : b.FinishedStays c) : a.FinishedStays c := by
  intro j x found finished
  obtain ⟨y, foundY, finishedY⟩ := first j x found finished
  exact second j y foundY finishedY

/-- Chroots changed one by one stay finished if the change keeps every finished one. -/
theorem finishedStays_map {b b' : Build} {f : BuildChroot → BuildChroot}
    (changed : b'.buildChroots = b.buildChroots.map f) :
    b.FinishedStays b' ↔ ∀ c ∈ b.buildChroots, c.status.Finished → (f c).status.Finished := by
  constructor
  · intro stays c member finished
    obtain ⟨j, found⟩ := List.mem_iff_getElem?.mp member
    obtain ⟨c', found', finished'⟩ := stays j c found finished
    rw [changed, List.getElem?_map, found] at found'
    exact Option.some.inj found' ▸ finished'
  · intro keeps j c found finished
    refine ⟨f c, ?_, keeps c (List.mem_of_getElem? found) finished⟩
    rw [changed, List.getElem?_map, found]
    rfl

/-- What a source report gives to a finished chroot is finished, unless the source succeeded and
the chroot is not skipped. -/
theorem sourceGives_finished {upd : UpdDict} {c : BuildChroot} (finished : c.status.Finished) :
    (sourceGives upd c).Finished ↔ upd.status ≠ .succeeded ∨ skips upd c = true := by
  unfold sourceGives
  by_cases skipped : skips upd c = true
  · rw [if_pos skipped]
    have finishedStatus : StatusEnum.skipped.Finished := by decide
    simp [skipped, finishedStatus]
  · rw [if_neg skipped]
    cases reported : upd.status <;> simp_all <;> decide

/-- A report about a chroot keeps a finished one unless it is skipped or forked. -/
theorem updateChroot_finished {env : Surroundings} {upd : UpdDict} {c : BuildChroot}
    (finished : c.status.Finished) : (updateChroot env upd c).status.Finished ↔
      upd.status.Finished ∨ upd.chroot ≠ some c.name ∨
        (c.status ≠ .skipped ∧ c.status ≠ .forked) := by
  unfold updateChroot
  split
  · rename_i named
    have kinds := (StatusEnum.finished_iff c.status).mp finished
    by_cases terminal : c.status.Terminal
    · have others : c.status ≠ .skipped ∧ c.status ≠ .forked := by
        constructor <;> (intro same; rw [same] at terminal; revert terminal; decide)
      simp only [if_pos terminal, finished, others, ne_eq, not_false_eq_true, and_self, or_true]
    · have others : ¬ (c.status ≠ .skipped ∧ c.status ≠ .forked) := by
        rcases kinds with known | same | same
        · exact absurd known terminal
        · simp [same]
        · simp [same]
      simp only [if_neg terminal, named, ne_eq, not_true_eq_false, others, or_false]
  · rename_i unnamed
    simp [finished, unnamed]

/-- A report keeps finished chroots exactly under its condition. -/
theorem report_finishedStays (env : Surroundings) (b : Build) (upd : UpdDict) :
    b.FinishedStays ((updateStateFromDict env b upd).getD b) ↔ reportSpares env b upd = true := by
  unfold reportSpares
  cases updateStateFromDict_reported env b upd with
  | ignored refused same =>
    rw [same, refused]
    simp [FinishedStays.refl]
  | source accepted task row _ status chroots =>
    rw [accepted, if_pos task]
    have sameChroots := (withPackage_keeps b upd).2.2
    by_cases empty : b.buildChroots = []
    · simp [FinishedStays, empty]
    · have same : sourceChroots env (withPackage b upd) upd = b.buildChroots := by
        rw [sourceChroots, sameChroots, if_neg (fun both => empty both.2)]
      rw [same] at chroots
      rw [finishedStays_map chroots]
      simp only [sourceChroot_status]
      have each : (∀ c ∈ b.buildChroots, c.status.Finished → (sourceGives upd c).Finished) ↔
          ∀ c ∈ b.buildChroots, c.status.Finished → upd.status ≠ .succeeded ∨ skips upd c = true :=
        forall₃_congr fun c _ finished => sourceGives_finished finished
      rw [each]
      by_cases succeeded : upd.status = .succeeded
      · simp [succeeded, Decidable.imp_iff_not_or]
      · simp [succeeded]
  | chroot accepted task row _ status chroots =>
    rw [accepted, if_neg task, finishedStays_map chroots]
    have each : (∀ c ∈ b.buildChroots, c.status.Finished →
        (updateChroot env upd c).status.Finished) ↔ ∀ c ∈ b.buildChroots, c.status.Finished →
        upd.status.Finished ∨ upd.chroot ≠ some c.name ∨
          (c.status ≠ .skipped ∧ c.status ≠ .forked) :=
      forall₃_congr fun c _ finished => updateChroot_finished finished
    rw [each]
    by_cases finished : upd.status.Finished
    · simp [finished]
    · simp only [finished, false_or, decide_false, Bool.not_true, Bool.false_or, List.all_eq_true,
        Bool.or_eq_true, decide_eq_true_eq]
      refine forall₂_congr fun c _ => ⟨fun keeps => ?_, fun kept _ => kept⟩
      by_cases unfinished : c.status.Finished
      · exact keeps unfinished
      · right
        rw [StatusEnum.finished_iff] at unfinished
        exact ⟨fun same => unfinished (.inr (.inl same)), fun same => unfinished (.inr (.inr same))⟩

/-- The import keeps finished chroots exactly under its condition. -/
theorem import_finishedStays (b : Build) (branchCommits : List (String × String)) :
    b.FinishedStays ((b.distGitUploadCompleted branchCommits).getD b) ↔
      importSpares branchCommits b = true := by
  have changed : ∀ b', b'.buildChroots = b.buildChroots.map (importChroot branchCommits) →
      (b.FinishedStays b' ↔ (b.buildChroots.all fun c => !decide c.status.Finished ||
        !collected branchCommits c || decide (c.status = .skipped)) = true) := by
    intro b' chroots
    rw [finishedStays_map chroots]
    simp only [List.all_eq_true, Bool.or_eq_true, Bool.not_eq_true', decide_eq_true_eq,
      decide_eq_false_iff_not]
    refine forall₂_congr fun c _ => ?_
    unfold importChroot collected
    cases branchCommits.lookup c.mockChroot.distgitBranchName with
    | none =>
      have finishedStatus : StatusEnum.failed.Finished := by decide
      simp [finishedStatus]
    | some gitHash =>
      have unfinished : ¬ StatusEnum.pending.Finished := by decide
      by_cases skipped : c.status = .skipped
      · simp [skipped]
      · simp [skipped, unfinished]
  unfold distGitUploadCompleted importSpares
  dsimp only
  by_cases all : b.buildChroots.all (collected branchCommits) = true
  · rw [if_pos all]
    by_cases fails : (b.package.isNone && !b.buildChroots.isEmpty) = true
    · rw [if_pos fails]
      simp_all [FinishedStays.refl]
    · rw [if_neg fails, Option.getD_some, changed _ rfl]
      by_cases packageless : b.package.isNone = true
      · have empty : b.buildChroots = [] := by simpa [packageless] using fails
        simp [empty]
      · simp [packageless]
  · rw [if_neg all, Option.getD_some, changed _ rfl]
    simp [all]

/-- Rescheduling concerns tasks that are not finished. -/
theorem reschedule_finishedStays {b : Build} (distinct : b.Distinct) (env : Surroundings)
    (taskId : String) (chroot : Option String) :
    b.FinishedStays ((b.rescheduleBuildChroot env taskId chroot).getD b) := by
  rcases b.reschedule_cases env taskId chroot with same | ⟨upd, pending, -, -, same, kind⟩
  · rw [same]
    exact .refl b
  · rw [same, report_finishedStays, reportSpares, pending]
    rcases kind with ⟨task, -⟩ | ⟨task, c, member, named, running⟩
    · simp [task]
    · rw [if_neg task]
      have others : ∀ d ∈ b.buildChroots, upd.chroot ≠ some d.name ∨
          (d.status ≠ .skipped ∧ d.status ≠ .forked) := by
        intro d memberD
        by_cases other : upd.chroot = some d.name
        · have equal : c = d :=
            distinct.eq member memberD (Option.some.inj (named.symm.trans other))
          subst equal
          right
          constructor <;> (intro status; rw [status] at running; revert running; decide)
        · exact .inl other
      simp only [Bool.or_eq_true, List.all_eq_true, decide_eq_true_eq]
      exact .inr (.inr others)

/-- A message keeps the finished chroots of a build exactly under its condition. -/
theorem receive_finishedStays {b : Build} (distinct : b.Distinct) (m : Message) :
    b.FinishedStays (b.receive m) ↔ (b.addressed m = true → b.sparesFinished m = true) := by
  unfold receive
  by_cases addressed : b.addressed m = true
  · rw [if_pos addressed]
    simp only [addressed, true_implies]
    cases m with
    | update env buildId upd => exact report_finishedStays env b upd
    | startingBuild env buildId upd =>
      rw [handle_startingBuild, sparesFinished]
      by_cases canceled : b.canceled = true
      · simp [canceled, FinishedStays.refl]
      · rw [if_neg canceled, report_finishedStays]
        simp [canceled]
    | rescheduleBuildChroot env buildId taskId chroot =>
      simp only [handle, sparesFinished, iff_true]
      exact reschedule_finishedStays distinct env taskId chroot
    | importCompleted buildId branchCommits => exact import_finishedStays b branchCommits
    | buildTaskCanceled taskId =>
      simp only [handle, sparesFinished, iff_true, Option.getD_some, buildTaskCanceled]
      split
      · rw [finishedStays_map rfl]
        intro c _ finished
        simp only [finished, not_true_eq_false, and_false, if_false]
      · split <;> exact .refl b
    | cancelBuild buildId =>
      simp only [handle, sparesFinished, iff_true, BuildsLogic.cancelBuild]
      split <;> exact .refl b
    | cancelBuildChrootsByMock mockChroot =>
      simp only [handle, sparesFinished, iff_true, Option.getD_some,
        BuildsLogic.cancelBuildChrootsByMock]
      rw [finishedStays_map rfl]
      intro c _ finished
      simp [canceledByMock, finished]
  · simp [addressed, FinishedStays.refl]

end Build

namespace Database

/-- Every finished chroot of every build stays finished. -/
def FinishedStays (db db' : Database) : Prop :=
  ∀ (i : Nat) (b : Build), db.builds[i]? = some b →
    ∃ b', db'.builds[i]? = some b' ∧ b.FinishedStays b'

/-- The status of a chroot of a build, by their places. -/
def chrootStatus (db : Database) (i j : Nat) : Option StatusEnum :=
  (db.builds[i]?.bind fun b => b.buildChroots[j]?).map BuildChroot.status

/-- The status at a place stays finished. -/
theorem FinishedStays.chrootStatus {db db' : Database} (stays : db.FinishedStays db') {i j : Nat}
    {s : StatusEnum} (before : db.chrootStatus i j = some s) (finished : s.Finished) :
    ∃ s', db'.chrootStatus i j = some s' ∧ s'.Finished := by
  unfold Database.chrootStatus at before ⊢
  obtain ⟨c, foundC, rfl⟩ := Option.map_eq_some_iff.mp before
  obtain ⟨b, foundB, place⟩ := Option.bind_eq_some_iff.mp foundC
  obtain ⟨b', foundB', kept⟩ := stays i b foundB
  obtain ⟨c', foundC', finished'⟩ := kept j c place finished
  exact ⟨c'.status, by simp [foundB', foundC'], finished'⟩

/-- Every build a message is about is in a state in which the message unfinishes nothing. -/
def sparesFinished (db : Database) (m : Message) : Bool :=
  db.builds.all fun b => !b.addressed m || b.sparesFinished m

/-- The unique constraint on chroots holds for all builds. -/
def Distinct (db : Database) : Prop := ∀ b ∈ db.builds, b.Distinct

/-- A message keeps the constraint. -/
theorem receive_distinct {db : Database} (distinct : db.Distinct) (m : Message) :
    (db.receive m).Distinct := by
  intro b member
  obtain ⟨old, inside, rfl⟩ := List.mem_map.mp member
  exact Build.receive_distinct (distinct old inside) m

/-- A message keeps all finished chroots exactly under its condition. -/
theorem receive_finishedStays {db : Database} (distinct : db.Distinct) (m : Message) :
    db.FinishedStays (db.receive m) ↔ db.sparesFinished m = true := by
  have each : ∀ b ∈ db.builds, b.FinishedStays (b.receive m) ↔
      (b.addressed m = true → b.sparesFinished m = true) :=
    fun b member => Build.receive_finishedStays (distinct b member) m
  unfold sparesFinished
  simp only [List.all_eq_true, Bool.or_eq_true, Bool.not_eq_true']
  constructor
  · intro stays b member
    obtain ⟨i, found⟩ := List.mem_iff_getElem?.mp member
    obtain ⟨b', found', kept⟩ := stays i b found
    have same : b' = b.receive m := by
      simp only [receive, List.getElem?_map, found, Option.map_some, Option.some.injEq] at found'
      exact found'.symm
    subst same
    have spared := (each b member).mp kept
    by_cases addressed : b.addressed m = true
    · exact .inr (spared addressed)
    · exact .inl (by simpa using addressed)
  · intro spared i b found
    have member := List.mem_of_getElem? found
    refine ⟨b.receive m, by simp [receive, found], (each b member).mpr fun addressed => ?_⟩
    rcases spared b member with not | yes
    · rw [addressed] at not
      contradiction
    · exact yes

/-- In every run of messages that each find the rows they are about in a state in which they
unfinish nothing, finished chroots stay finished; and in the state reached a message keeps
them finished exactly if it does so as well. -/
theorem finished_chroots_stay_finished {db db' : Database} (distinct : db.Distinct)
    (run : Run deliver (fun db m => db.sparesFinished m = true) db db') :
    db.FinishedStays db' ∧
      ∀ m, db'.FinishedStays (db'.receive m) ↔ db'.sparesFinished m = true := by
  have both : db'.Distinct ∧ db.FinishedStays db' := by
    refine run_invariant (fun t => t.Distinct ∧ db.FinishedStays t) ?_ run
      ⟨distinct, fun _ b found => ⟨b, found, .refl b⟩⟩
    rintro t m u ⟨unique, stays⟩ spared delivered
    obtain rfl := Option.some.inj delivered
    refine ⟨receive_distinct unique m, ?_⟩
    intro i b found
    obtain ⟨b', found', kept⟩ := stays i b found
    obtain ⟨b'', found'', kept'⟩ := (receive_finishedStays unique m).mpr spared i b' found'
    exact ⟨b'', found'', kept.trans kept'⟩
  exact ⟨both.2, fun m => receive_finishedStays both.1 m⟩

/-- A build of two chroots is built, imported and finished in one of them, which is reported
once more. -/
theorem finished_chroots_stay_finished_report :
    ∃ db db' : Database, db.builds.map (fun b => b.buildChroots.map BuildChroot.status) =
      [[.succeeded, .pending]] ∧ db.FinishedStays db' := by
  obtain ⟨db, -, seen⟩ := exec_observe operate (fun _ _ => true) empty
    [Sample.submitted, .message (Sample.sourceReport .succeeded), .message Sample.imported,
      .message (Sample.chrootReport .succeeded)]
    (fun db => (db.builds.map fun b => b.buildChroots.map BuildChroot.status,
      (exec deliver sparesFinished db [Sample.chrootReport .running,
        Sample.chrootReport .failed]).isSome,
      decide (∀ b ∈ db.builds, (b.buildChroots.map BuildChroot.name).Nodup)))
    ([[.succeeded, .pending]], true, true) rfl
  simp only [Prod.mk.injEq, decide_eq_true_eq] at seen
  obtain ⟨statuses, executed, distinct⟩ := seen
  obtain ⟨db', done⟩ := Option.isSome_iff_exists.mp executed
  exact ⟨db, db', statuses, (finished_chroots_stay_finished distinct (exec_run _ done)).1⟩

/-- A chroot that the end of its life cancels during the source build waits for the import
again when the source build succeeds, and is then handed to the backend. -/
theorem canceled_chroot_built_again : ¬ ∀ db db' : Database,
    Run operate anyEvent empty db → Run deliver anyEvent db db' → db.FinishedStays db' := by
  intro claimed
  obtain ⟨db, reached, seen⟩ := exec_observe operate (fun _ _ => true) empty
    [Sample.submitted, .message (.cancelBuildChrootsByMock Sample.fedora)]
    (fun db => (db.chrootStatus 0 0,
      (exec deliver (fun _ _ => true) db [Sample.sourceReport .succeeded, Sample.imported]).map
        fun db => (db.chrootStatus 0 0, (db.pendingJobs fun _ => false).map JobRecord.taskId)))
    (some .canceled, some (some .pending, ["1-fedora-39-x86_64", "1-epel-9-x86_64"])) rfl
  simp only [Prod.mk.injEq] at seen
  obtain ⟨before, after⟩ := seen
  obtain ⟨db', done, final⟩ := Option.map_eq_some_iff.mp after
  simp only [Prod.mk.injEq] at final
  have stays := claimed db db' (run_weaken (fun _ _ _ => trivial) reached) (exec_run_any _ done)
  obtain ⟨s, now, finished⟩ := stays.chrootStatus before (by decide)
  rw [final.1] at now
  cases now
  revert finished
  decide

end Database

end Copr
