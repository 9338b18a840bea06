import Copr.Frontend.Operations

/-!
# Reports that are delivered again

`SafeRequest` sends a report again when the answer is lost. Here is what a report must find for
its delivery to leave the source status, the chroot statuses and the rows of built packages as
they are, and what follows for a report that is delivered twice in a row.
-/

namespace Copr

open Runs

namespace Build

open BuildsLogic

/-- The same chroot with the same status and the same built packages. -/
structure SameChroot (c c' : BuildChroot) : Prop where
  /-- `mock_chroot`. -/
  mockChroot : c'.mockChroot = c.mockChroot
  /-- `status`. -/
  status : c'.status = c.status
  /-- `results`, in any order. -/
  results : c'.results.Perm c.results

/-- The same source status, and the same chroots with the same statuses and built packages. -/
structure SameOutcome (b b' : Build) : Prop where
  /-- `source_status`. -/
  sourceStatus : b'.sourceStatus = b.sourceStatus
  /-- `build_chroots`. -/
  chroots : List.Forall₂ SameChroot b.buildChroots b'.buildChroots

/-- The source build is where a report puts it: importing, or failed for want of chroots, when
it succeeded, and at the reported status otherwise. -/
def sourceSettled (env : Surroundings) (b : Build) (status : StatusEnum) : Bool :=
  if status = .succeeded then
    if b.buildChroots.isEmpty then
      decide (b.sourceStatus = .failed) && (assignBuildchrootsFromPackage env b .waiting).isEmpty
    else decide (b.sourceStatus = .importing)
  else decide (b.sourceStatus = status)

/-- A chroot is where a report about the source build puts it: skipped when its architecture is
excluded, waiting when the source build succeeded, and failed or skipped when it is. -/
def chrootFollows (upd : UpdDict) (c : BuildChroot) : Bool :=
  if skips upd c then decide (c.status = .skipped)
  else
    match upd.status with
    | .succeeded => decide (c.status = .waiting)
    | .failed => decide (c.status = .failed)
    | .skipped => decide (c.status = .skipped)
    | _ => true

/-- A report about a chroot finds it terminal or at the reported status, and records no package
anew. -/
def chrootSettled (upd : UpdDict) (c : BuildChroot) : Bool :=
  decide (upd.chroot ≠ some c.name) ||
    (decide (c.status.Terminal ∨ c.status = upd.status) &&
      (decide (¬ upd.status.Terminal) || upd.packages.isEmpty))

/-- The report takes no effect, or finds the build where it puts it. -/
def reportSettled (env : Surroundings) (b : Build) (upd : UpdDict) : Bool :=
  !taken env b upd ||
    if upd.taskId = b.taskId then
      sourceSettled env (withPackage b upd) upd.status && b.buildChroots.all (chrootFollows upd)
    else b.buildChroots.all (chrootSettled upd)

/-- A build has its own outcome. -/
theorem SameOutcome.refl (b : Build) : b.SameOutcome b :=
  ⟨rfl, List.forall₂_same.mpr fun _ _ => ⟨rfl, rfl, .refl _⟩⟩

/-- The outcome of a build whose chroots are changed one by one. -/
theorem sameOutcome_map {b b' : Build} {f : BuildChroot → BuildChroot}
    (changed : b'.buildChroots = b.buildChroots.map f) :
    b.SameOutcome b' ↔
      b'.sourceStatus = b.sourceStatus ∧ ∀ c ∈ b.buildChroots, SameChroot c (f c) := by
  have pairs : List.Forall₂ SameChroot b.buildChroots b'.buildChroots ↔
      ∀ c ∈ b.buildChroots, SameChroot c (f c) := by
    rw [changed, List.forall₂_map_right_iff, List.forall₂_same]
  exact ⟨fun same => ⟨same.sourceStatus, pairs.mp same.chroots⟩,
    fun same => ⟨same.1, pairs.mpr same.2⟩⟩

/-- A report about the source build leaves a chroot exactly if the chroot follows it. -/
theorem sourceChroot_same (env : Surroundings) (upd : UpdDict) (c : BuildChroot) :
    SameChroot c (sourceChroot env upd c) ↔ chrootFollows upd c = true := by
  obtain ⟨mock, results⟩ := sourceChroot_keeps env upd c
  have only : SameChroot c (sourceChroot env upd c) ↔ sourceGives upd c = c.status := by
    rw [← sourceChroot_status env]
    exact ⟨SameChroot.status, fun status => ⟨mock, status, results ▸ .refl _⟩⟩
  rw [only]
  unfold sourceGives chrootFollows
  split
  · simp [eq_comm]
  · cases upd.status <;> simp [eq_comm]

/-- A report about a chroot leaves a chroot exactly if it finds it settled. -/
theorem updateChroot_same (env : Surroundings) (upd : UpdDict) (c : BuildChroot) :
    SameChroot c (updateChroot env upd c) ↔ chrootSettled upd c = true := by
  unfold updateChroot chrootSettled
  by_cases named : upd.chroot = some c.name
  · rw [if_pos named]
    simp only [named, ne_eq, not_true_eq_false, decide_false, Bool.false_or, Bool.and_eq_true,
      Bool.or_eq_true, decide_eq_true_eq, List.isEmpty_iff]
    have status : (if c.status.Terminal then c.status else upd.status) = c.status ↔
        c.status.Terminal ∨ c.status = upd.status := by
      by_cases terminal : c.status.Terminal <;> simp [terminal, eq_comm]
    have results : (if upd.status.Terminal then c.results ++ upd.packages else c.results).Perm
        c.results ↔ ¬ upd.status.Terminal ∨ upd.packages = [] := by
      by_cases terminal : upd.status.Terminal
      · have lengths : (c.results ++ upd.packages).Perm c.results → upd.packages = [] := by
          intro same
          have equal := same.length_eq
          rw [List.length_append] at equal
          exact List.length_eq_zero_iff.mp (by omega)
        rw [if_pos terminal]
        simp only [terminal, not_true_eq_false, false_or]
        refine ⟨lengths, fun none => ?_⟩
        rw [none, List.append_nil]
      · simp [terminal]
    rw [← status, ← results]
    exact ⟨fun same => ⟨same.status, same.results⟩, fun both => ⟨rfl, both.1, both.2⟩⟩
  · rw [if_neg named]
    simp only [named, ne_eq, not_false_eq_true, decide_true, Bool.true_or, iff_true]
    exact ⟨rfl, rfl, .refl _⟩

/-- A source build that succeeded without chroots stays where it is exactly if it has failed
before and there is nothing to allocate. -/
theorem allocation_sameOutcome {env : Surroundings} {b b' : Build} {upd : UpdDict}
    (succeeded : upd.status = .succeeded) (empty : b.buildChroots = [])
    (status : b'.sourceStatus = sourceBecomes env (withPackage b upd) upd)
    (chroots : b'.buildChroots =
      (sourceChroots env (withPackage b upd) upd).map (sourceChroot env upd)) :
    b.SameOutcome b' ↔ b.sourceStatus = .failed ∧
      assignBuildchrootsFromPackage env (withPackage b upd) .waiting = [] := by
  have allocated : sourceChroots env (withPackage b upd) upd =
      assignBuildchrootsFromPackage env (withPackage b upd) .waiting := by
    rw [sourceChroots, (withPackage_keeps b upd).2.2, if_pos ⟨succeeded, empty⟩]
  rw [sourceBecomes, if_pos succeeded, allocated] at status
  rw [allocated] at chroots
  constructor
  · rintro ⟨same, pairs⟩
    rw [empty, chroots, List.forall₂_nil_left_iff, List.map_eq_nil_iff] at pairs
    rw [if_pos pairs] at status
    exact ⟨same ▸ status, pairs⟩
  · rintro ⟨failed, none⟩
    rw [if_pos none] at status
    rw [none, List.map_nil] at chroots
    exact ⟨status.trans failed.symm, by rw [chroots, empty]; exact .nil⟩

/-- A report leaves the outcome of a build exactly under its condition. -/
theorem report_sameOutcome (env : Surroundings) (b : Build) (upd : UpdDict) :
    b.SameOutcome ((updateStateFromDict env b upd).getD b) ↔ reportSettled env b upd = true := by
  unfold reportSettled
  cases updateStateFromDict_reported env b upd with
  | ignored refused same =>
    rw [same, refused]
    simp [SameOutcome.refl]
  | source accepted task row _ status chroots =>
    obtain ⟨-, sameStatus, sameChroots⟩ := withPackage_keeps b upd
    rw [accepted, if_pos task]
    simp only [Bool.not_true, Bool.false_or, Bool.and_eq_true, sourceSettled, sameChroots,
      sameStatus]
    by_cases allocates : upd.status = .succeeded ∧ b.buildChroots = []
    · obtain ⟨succeeded, empty⟩ := allocates
      rw [allocation_sameOutcome succeeded empty status chroots]
      simp [succeeded, empty]
    · have old : sourceChroots env (withPackage b upd) upd = b.buildChroots := by
        rw [sourceChroots, sameChroots, if_neg allocates]
      rw [old] at chroots
      rw [sameOutcome_map chroots, status, sourceBecomes, old]
      simp only [sourceChroot_same, List.all_eq_true]
      refine and_congr_left fun _ => ?_
      by_cases succeeded : upd.status = .succeeded
      · have nonempty : ¬ b.buildChroots.isEmpty = true := by
          rw [List.isEmpty_iff]
          exact fun empty => allocates ⟨succeeded, empty⟩
        rw [if_pos succeeded, if_pos succeeded, if_neg nonempty, decide_eq_true_eq,
          if_neg fun empty => nonempty (List.isEmpty_iff.mpr empty)]
        exact eq_comm
      · rw [if_neg succeeded, if_neg succeeded, decide_eq_true_eq]
        exact eq_comm
  | chroot accepted task row _ status chroots =>
    rw [accepted, if_neg task, sameOutcome_map chroots]
    simp [updateChroot_same, status]

/-! ## Twice in a row -/

/-- A report names a package once and for all. -/
theorem withPackage_package (b : Build) (upd : UpdDict) :
    (withPackage b upd).package = b.package.or (truthyText upd.pkgName) := by
  unfold withPackage
  cases package : b.package with
  | some _ => simp [package]
  | none => cases truthyText upd.pkgName <;> simp [package]

/-- Naming the package again changes nothing. -/
theorem withPackage_again {b b' : Build} {upd : UpdDict}
    (package : b'.package = (withPackage b upd).package) :
    (withPackage b' upd).package = (withPackage b upd).package := by
  rw [withPackage_package, package, withPackage_package, Option.or_assoc, Option.or_self]

/-- A report that named the package finds it. -/
theorem packageAnswer_again {env : Surroundings} {b b' : Build} {upd : UpdDict}
    (package : b'.package = (withPackage b upd).package) : packageAnswer env b' upd = .present := by
  rw [withPackage_package] at package
  unfold packageAnswer
  rw [package]
  cases truthyText upd.pkgName <;> cases b.package <;> rfl

/-- A chroot follows the report that it has followed. -/
theorem chrootFollows_again (env : Surroundings) (upd : UpdDict) (c : BuildChroot) :
    chrootFollows upd (sourceChroot env upd c) = true := by
  have skipsAgain : skips upd (sourceChroot env upd c) = skips upd c := by
    unfold skips Results.tagsOf
    rw [(sourceChroot_keeps env upd c).1]
  have status := sourceChroot_status env upd c
  unfold sourceGives at status
  unfold chrootFollows
  rw [skipsAgain]
  by_cases skipped : skips upd c = true
  · rw [if_pos skipped] at status ⊢
    exact decide_eq_true status
  · rw [if_neg skipped] at status ⊢
    cases reported : upd.status <;> simp_all

/-- The source build is where the report has put it. -/
theorem sourceSettled_again {env : Surroundings} {b b' : Build} {upd : UpdDict}
    (package : b'.package = (withPackage b upd).package)
    (status : b'.sourceStatus = sourceBecomes env (withPackage b upd) upd)
    (chroots : b'.buildChroots =
      (sourceChroots env (withPackage b upd) upd).map (sourceChroot env upd)) :
    sourceSettled env (withPackage b' upd) upd.status = true := by
  obtain ⟨-, sameStatus, sameChroots⟩ := withPackage_keeps b' upd
  unfold sourceSettled
  rw [sameStatus, sameChroots, status, chroots]
  unfold sourceBecomes
  by_cases succeeded : upd.status = .succeeded
  · rw [if_pos succeeded, if_pos succeeded]
    by_cases empty : sourceChroots env (withPackage b upd) upd = []
    · have none : assignBuildchrootsFromPackage env (withPackage b' upd) .waiting = [] := by
        rw [sourceChroots] at empty
        split at empty
        · unfold assignBuildchrootsFromPackage at empty ⊢
          rwa [withPackage_again package]
        · rename_i kept
          exact absurd ⟨succeeded, empty⟩ kept
      simp [empty, none]
    · simp [empty]
  · simp [succeeded]

/-- Right after a report took effect it takes effect again. -/
theorem taken_again {env : Surroundings} {b b' : Build} {upd : UpdDict}
    (package : b'.package = (withPackage b upd).package) (task : upd.taskId ≠ b'.taskId) :
    taken env b' upd = true := by
  simp [taken, packageAnswer_again package, task]

/-- A chroot is where a report about it has put it, but the packages are recorded anew. -/
theorem chrootSettled_again (env : Surroundings) (upd : UpdDict) (c : BuildChroot) :
    chrootSettled upd (updateChroot env upd c) = true ↔
      upd.chroot ≠ some c.name ∨ ¬ upd.status.Terminal ∨ upd.packages = [] := by
  have name : (updateChroot env upd c).name = c.name :=
    congrArg MockChroot.name (updateChroot_mockChroot env upd c)
  unfold chrootSettled
  rw [name]
  by_cases named : upd.chroot = some c.name
  · have settled : (updateChroot env upd c).status.Terminal ∨
        (updateChroot env upd c).status = upd.status := by
      unfold updateChroot
      rw [if_pos named]
      by_cases terminal : c.status.Terminal <;> simp [terminal]
    simp [named, settled]
  · simp [named]

/-- A report right after the same report leaves the outcome as it is, unless it is one about the
end of a chroot of the build that comes with packages. -/
theorem report_twice (env : Surroundings) (b : Build) (upd : UpdDict) :
    reportSettled env ((updateStateFromDict env b upd).getD b) upd = true ↔
      taken env b upd = false ∨ upd.taskId = b.taskId ∨ ¬ upd.status.Terminal ∨
        upd.packages = [] ∨ ∀ c ∈ b.buildChroots, upd.chroot ≠ some c.name := by
  cases updateStateFromDict_reported env b upd with
  | ignored refused same =>
    rw [same, reportSettled, refused]
    simp
  | source accepted task row package status chroots =>
    refine iff_of_true ?_ (.inr (.inl task))
    have sameTask : ((updateStateFromDict env b upd).getD b).taskId = b.taskId :=
      congrArg toString row.id
    rw [reportSettled, if_pos (task.trans sameTask.symm),
      sourceSettled_again package status chroots, chroots]
    simp [chrootFollows_again]
  | chroot accepted task row package status chroots =>
    have other : upd.taskId ≠ ((updateStateFromDict env b upd).getD b).taskId := fun same =>
      task (same.trans (congrArg toString row.id))
    rw [reportSettled, taken_again package other, if_neg other, chroots]
    simp only [Bool.not_true, Bool.false_or, List.all_map, List.all_eq_true, Function.comp_apply,
      chrootSettled_again, accepted, task, Bool.true_eq_false, false_or]
    by_cases terminal : upd.status.Terminal
    · by_cases none : upd.packages = []
      · simp [none]
      · simp [terminal, none]
    · simp [terminal]

end Build

namespace Database

/-- All builds have the same outcome. -/
def SameOutcome (db db' : Database) : Prop := List.Forall₂ Build.SameOutcome db.builds db'.builds

/-- A message leaves all outcomes exactly if it leaves those of the builds it is about. -/
theorem receive_sameOutcome (db : Database) (m : Message) :
    db.SameOutcome (db.receive m) ↔
      ∀ b ∈ db.builds, b.addressed m = true → b.SameOutcome ((b.handle m).getD b) := by
  unfold SameOutcome receive
  rw [List.forall₂_map_right_iff, List.forall₂_same]
  refine forall₂_congr fun b _ => ?_
  unfold Build.receive
  by_cases addressed : b.addressed m = true
  · simp [addressed]
  · simp [addressed, Build.SameOutcome.refl]

/-- In every state, after whatever messages and whether or not the same report has been there
before, the delivery of a report by `update` or `starting_build` changes no outcome exactly if
it takes no effect or finds the build where it puts it, with no package to record. -/
theorem report_again_harmless (db : Database) (env : Surroundings) (buildId : Nat)
    (upd : UpdDict) :
    (db.SameOutcome (db.receive (.update env buildId upd)) ↔
      ∀ b ∈ db.builds, b.id = buildId → Build.reportSettled env b upd = true) ∧
    (db.SameOutcome (db.receive (.startingBuild env buildId upd)) ↔
      ∀ b ∈ db.builds, b.id = buildId →
        b.canceled = true ∨ Build.reportSettled env b upd = true) := by
  simp only [receive_sameOutcome, Build.addressed, decide_eq_true_eq]
  constructor
  · refine forall₃_congr fun b _ _ => ?_
    exact Build.report_sameOutcome env b upd
  · refine forall₃_congr fun b _ _ => ?_
    rw [Build.handle_startingBuild]
    by_cases canceled : b.canceled = true
    · simp [canceled, Build.SameOutcome.refl]
    · rw [if_neg canceled, Build.report_sameOutcome]
      simp [canceled]

/-- Delivered twice in a row, a report about the source build and a report that is not about the
end of a chroot change no outcome the second time. -/
theorem report_twice_harmless (db : Database) (env : Surroundings) (buildId : Nat)
    (upd : UpdDict) (plain : upd.taskId = toString buildId ∨ ¬ upd.status.Terminal) :
    (db.receive (.update env buildId upd)).SameOutcome
      ((db.receive (.update env buildId upd)).receive (.update env buildId upd)) := by
  rw [receive_sameOutcome]
  intro b member addressed
  obtain ⟨old, inside, rfl⟩ := List.mem_map.mp member
  simp only [Build.addressed, Build.receive_id, decide_eq_true_eq] at addressed
  have received : old.receive (.update env buildId upd) =
      (BuildsLogic.updateStateFromDict env old upd).getD old := by
    simp [Build.receive, Build.addressed, Build.handle, addressed]
  rw [received]
  refine (Build.report_sameOutcome env _ upd).mpr ((Build.report_twice env old upd).mpr ?_)
  rcases plain with source | other
  · exact .inr (.inl (source.trans (congrArg toString addressed.symm)))
  · exact .inr (.inr (.inl other))

/-- The report about the end of a chroot that is delivered a second time records its package a
second time. -/
theorem built_packages_doubled : ¬ ∀ (db db' : Database) (env env' : Surroundings)
    (buildId : Nat) (upd : UpdDict), Run operate anyEvent empty db →
    Run deliver anyEvent (db.receive (.update env buildId upd)) db' →
    db'.SameOutcome (db'.receive (.update env' buildId upd)) := by
  intro claimed
  obtain ⟨db, run, unsettled⟩ := exec_observe operate (fun _ _ => true) empty
    [Sample.submitted, .message (Sample.sourceReport .succeeded), .message Sample.imported]
    (fun db => (db.receive (Sample.chrootReport .succeeded)).builds.all fun b =>
      !decide (b.id = 1) || Build.reportSettled Sample.project b (Sample.chrootUpd .succeeded))
    false rfl
  have harmless := claimed db _ Sample.project Sample.project 1 (Sample.chrootUpd .succeeded)
    (run_weaken (fun _ _ _ => trivial) run) .refl
  rw [receive_sameOutcome] at harmless
  obtain ⟨b, member, unsettled⟩ := List.all_eq_false.mp unsettled
  simp only [Bool.or_eq_true, Bool.not_eq_true', decide_eq_false_iff_not, not_or, not_not]
    at unsettled
  refine unsettled.2 ((Build.report_sameOutcome _ b _).mp ?_)
  exact harmless b member (decide_eq_true unsettled.1)

end Database

end Copr
