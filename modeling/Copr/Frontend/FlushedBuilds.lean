import Copr.Frontend.ConcurrentUpdates

/-!
# Builds that sessions write back

A session loads the row of a build, changes it as a message says, and writes the columns that it
has changed. A column of a build is what it was, or what the session has; so what was read of
a column, or was written to it, is held from then on until another message changes it. In the
end a message that was committed has been applied, in the columns that the session has
written and in those that it found as the message has them.
-/

namespace Copr

open Histories Runs Tables History

/-! ## Columns -/

/-- A commit leaves a column as it is, or as the session has it. -/
theorem flushed_eq {α : Type} [DecidableEq α] (loaded updated current : α) :
    (updated = loaded ∧ flushed loaded updated current = current) ∨
      (updated ≠ loaded ∧ flushed loaded updated current = updated) := by
  unfold flushed
  by_cases same : updated = loaded
  · exact Or.inl ⟨same, if_pos same⟩
  · exact Or.inr ⟨same, if_neg same⟩

namespace BuildChroot

/-- A commit leaves a part of the row as it is, or as the session has it. -/
def Field {α : Type} (read : BuildChroot → α) : Prop :=
  ∀ loaded updated current : BuildChroot,
    (read updated = read loaded ∧ read (loaded.flush updated current) = read current) ∨
      (read updated ≠ read loaded ∧ read (loaded.flush updated current) = read updated)

/-- The status is such a part. -/
theorem field_status : Field status := fun loaded updated current =>
  flushed_eq loaded.status updated.status current.status

/-- `result_dir` is such a part. -/
theorem field_resultDir : Field resultDir := fun loaded updated current =>
  flushed_eq loaded.resultDir updated.resultDir current.resultDir

end BuildChroot

namespace Build

/-- What is found is a chroot of that name. -/
theorem name_of_chrootNamed {b : Build} {name : String} {c : BuildChroot}
    (found : b.chrootNamed name = some c) : c.name = name := by
  simpa using List.find?_some found

/-- A column of a chroot. -/
def chrootColumn {α : Type} (name : String) (read : BuildChroot → α) (b : Build) : Option α :=
  (b.chrootNamed name).map read

end Build

namespace PendingWrite

variable {write : PendingWrite}

/-- The package of the build is built in some chroots. -/
def allowsChroots (write : PendingWrite) : Bool :=
  write.updated.package.isSome && !write.env.packageChroots.chroots.isEmpty

/-- The session has changed a column. -/
def Changes {α : Type} (column : Build → α) (write : PendingWrite) : Prop :=
  column write.updated ≠ column write.loaded

/-- A property is only ended by changes of a kind. -/
def Lasting (P : Build → Prop) (changes : PendingWrite → Prop) : Prop :=
  ∀ (write : PendingWrite) b, P b → P (write.flush b) ∨ changes write

/-- Commits leave a column alone that the session has not changed. -/
def Column {α : Type} (column : Build → α) : Prop :=
  ∀ (write : PendingWrite) b, column (write.flush b) = column b ∨ write.Changes column

/-- What holds of a column lasts until a session has changed the column. -/
theorem Column.lasting {α : Type} {column : Build → α} (isColumn : Column column)
    (Q : α → Prop) : Lasting (fun b => Q (column b)) (Changes column) := by
  intro write b holds
  cases isColumn write b with
  | inl same =>
    left
    show Q (column (write.flush b))
    rw [same]
    exact holds
  | inr changed => exact Or.inr changed

/-- `source_status` is a column. -/
theorem column_sourceStatus : Column Build.sourceStatus := by
  intro write b
  have either := flushed_eq write.loaded.sourceStatus write.updated.sourceStatus b.sourceStatus
  exact either.imp And.right And.left

/-- `result_dir` is a column. -/
theorem column_resultDir : Column Build.resultDir := by
  intro write b
  have either := flushed_eq write.loaded.resultDir write.updated.resultDir b.resultDir
  exact either.imp And.right And.left

/-- A chroot keeps its name in a commit. -/
@[simp] theorem flushChroot_name (c : BuildChroot) : (write.flushChroot c).name = c.name := by
  unfold flushChroot
  split <;> rfl

/-- The chroots that a write adds are those which the loaded row did not have. -/
theorem find_addedChroots (name : String) :
    write.addedChroots.find? (fun c => decide (c.name = name)) =
      if (write.loaded.chrootNamed name).isNone then write.updated.chrootNamed name else none := by
  rw [addedChroots, List.find?_filter]
  cases fresh : (write.loaded.chrootNamed name).isNone with
  | true =>
    rw [if_pos rfl, Build.chrootNamed]
    congr 1
    funext c
    by_cases same : c.name = name
    · simp [same, fresh]
    · simp [same]
  | false =>
    rw [if_neg (by decide)]
    refine List.find?_eq_none.mpr fun c _ => ?_
    by_cases same : c.name = name
    · simp [same, fresh]
    · simp [same]

/-- The chroot with a name after a commit. -/
theorem chrootNamed_flush (b : Build) (name : String) :
    (write.flush b).chrootNamed name =
      ((b.chrootNamed name).map write.flushChroot).or
        (if (write.loaded.chrootNamed name).isNone then write.updated.chrootNamed name
          else none) := by
  show (b.buildChroots.map write.flushChroot ++ write.addedChroots).find? _ = _
  rw [List.find?_append, List.find?_map, find_addedChroots]
  simp only [Function.comp_def, flushChroot_name]
  rfl

/-- A chroot that the session has loaded and changed, after the commit. -/
theorem chrootNamed_flush_loaded {b : Build} {name : String} {loaded updated c : BuildChroot}
    (before : write.loaded.chrootNamed name = some loaded)
    (changed : write.updated.chrootNamed name = some updated)
    (here : b.chrootNamed name = some c) :
    (write.flush b).chrootNamed name = some (loaded.flush updated c) := by
  rw [chrootNamed_flush, here, before]
  simp [flushChroot, Build.name_of_chrootNamed here, before, changed]

/-- A column of a chroot is a column. -/
theorem column_chroot {α : Type} {read : BuildChroot → α} (name : String)
    (field : BuildChroot.Field read) :
    Column (Build.chrootColumn name read) := by
  intro write b
  by_cases unchanged :
      Build.chrootColumn name read write.updated = Build.chrootColumn name read write.loaded
  · left
    unfold Build.chrootColumn at unchanged ⊢
    rw [chrootNamed_flush]
    cases before : write.loaded.chrootNamed name with
    | none =>
      rw [before, Option.map_none, Option.map_eq_none_iff] at unchanged
      rw [unchanged, ite_self, Option.or_none]
      cases here : b.chrootNamed name with
      | none => rfl
      | some c => simp [flushChroot, Build.name_of_chrootNamed here, before]
    | some loaded =>
      rw [before] at unchanged
      obtain ⟨updated, changed, same⟩ := Option.map_eq_some_iff.mp unchanged
      cases here : b.chrootNamed name with
      | none => rfl
      | some c =>
        have kept := ((field loaded updated c).resolve_right fun both => both.1 same).2
        simp [flushChroot, Build.name_of_chrootNamed here, before, changed, kept]
  · exact Or.inr unchanged

/-- The status of a chroot is a column. -/
theorem column_status (name : String) :
    Column (Build.chrootColumn name BuildChroot.status) :=
  column_chroot name BuildChroot.field_status

/-- The `result_dir` of a chroot is a column. -/
theorem column_chrootDir (name : String) :
    Column (Build.chrootColumn name BuildChroot.resultDir) :=
  column_chroot name BuildChroot.field_resultDir

/-- Whether there is a chroot with a name is a column. -/
theorem column_exists (name : String) : Column (Build.chrootColumn name fun _ => ()) :=
  column_chroot name fun _ _ _ => Or.inl ⟨rfl, rfl⟩

/-- Commits keep the chroots. -/
theorem chroot_stays {b : Build} {name : String} (here : (b.chrootNamed name).isSome) :
    ((write.flush b).chrootNamed name).isSome := by
  rw [chrootNamed_flush, Option.isSome_or, Option.isSome_map, here, Bool.true_or]

/-- Results of a chroot stay, unless the chroot is new. -/
theorem lasting_results (name : String) (packages : List BuildChrootResult) :
    Lasting (fun b => ∀ c, b.chrootNamed name = some c → packages ⊆ c.results)
      (Changes (Build.chrootColumn name fun _ => ())) := by
  intro write b recorded
  cases here : b.chrootNamed name with
  | none =>
    refine (column_exists name write b).imp (fun same c found => ?_) id
    simp [Build.chrootColumn, here, found] at same
  | some c =>
    left
    intro d found
    rw [chrootNamed_flush, here] at found
    have flushed : write.flushChroot c = d := by simpa using found
    have grown : c.results ⊆ (write.flushChroot c).results := by
      unfold flushChroot
      split
      · exact List.subset_append_left _ _
      · exact List.Subset.refl _
    rw [← flushed]
    exact List.Subset.trans (recorded c here) grown

end PendingWrite

/-! ## What is held of a build -/

namespace BuildTables

open PendingWrite

/-- The commits of the sessions. -/
abbrev CommitHistory := History BuildTables (List PendingWrite)

/-- A property of a build was true after at least `since` commits, and it is true now unless a
message has changed the build in a certain way afterwards. -/
def Held (history : CommitHistory) (since buildId : Nat) (P : Build → Prop)
    (changes : PendingWrite → Prop) : Prop :=
  history.HeldSince since (fun tables => ∃ b, tables.builds.find buildId = some b ∧ P b)
    fun writes => ∃ write ∈ writes, write.loaded.id = buildId ∧ changes write

/-- The builds after the changes of a session. -/
def Flushes (tables : BuildTables) (writes : List PendingWrite) (next : BuildTables) : Prop :=
  ∀ buildId, next.builds.find buildId = (tables.builds.find buildId).map (flushRow writes)

variable {history : CommitHistory} {since buildId : Nat} {P : Build → Prop}
  {changes : PendingWrite → Prop} {writes : List PendingWrite} {next : BuildTables} {b : Build}

/-- A commit that no constraint refuses. -/
theorem flushes_of_flush {tables : BuildTables} (done : tables.flush writes = some next) :
    Flushes tables writes next := by
  intro buildId
  unfold flush at done
  split at done
  · contradiction
  · obtain rfl := Option.some.inj done
    simp

/-- A package in the same commit makes no difference. -/
theorem Flushes.insertPackage {tables : BuildTables} (flushed : Flushes tables writes next)
    (buildId : Nat) (name : String) : Flushes tables writes (next.insertPackage buildId name) :=
  flushed

/-- What is true of the row now is held. -/
theorem held_now (begun : since ≤ history.length)
    (here : history.now.builds.find buildId = some b) (holds : P b) :
    Held history since buildId P changes :=
  heldSince_now begun ⟨b, here, holds⟩

/-- What is held of a build stays so in a commit. -/
theorem Held.commit (held : Held history since buildId P changes) (lasting : Lasting P changes)
    (flushed : Flushes history.now writes next) :
    Held (history.commit writes next) since buildId P changes := by
  apply HeldSince.commit held
  rintro ⟨b, here, holds⟩
  have after := flushed buildId
  rw [here, Option.map_some] at after
  unfold flushRow at after
  split at after
  · rename_i write found
    have sameRow : write.loaded.id = b.id := by simpa using List.find?_some found
    have own : b.id = buildId := (Table.find_eq_some.mp here).2
    apply (lasting write b holds).imp
    · intro kept
      exact ⟨write.flush b, after, kept⟩
    · intro changed
      exact ⟨write, List.mem_of_find?_eq_some found, sameRow.trans own, changed⟩
  · exact Or.inl ⟨b, after, holds⟩

/-- A weaker property is held. -/
theorem Held.imp {Q : Build → Prop} (weaker : ∀ b, P b → Q b)
    (held : Held history since buildId P changes) : Held history since buildId Q changes := by
  apply HeldSince.imp _ held
  rintro tables ⟨b, here, holds⟩
  exact ⟨b, here, weaker b holds⟩

/-! ### Rows in a session -/

/-- A property does not depend on the chroots. -/
def RowOnly (P : Build → Prop) : Prop :=
  ∀ b chroots, P { b with buildChroots := chroots } ↔ P b

/-- A property depends on the chroots only. -/
def ChrootsOnly (P : Build → Prop) : Prop :=
  ∀ b c : Build, b.buildChroots = c.buildChroots → (P b ↔ P c)

/-- What is known from the chroot of a name depends on the chroots only. -/
theorem chrootsOnly_chrootNamed (name : String) (Q : Option BuildChroot → Prop) :
    ChrootsOnly fun b => Q (b.chrootNamed name) := by
  intro b c same
  have equal : b.chrootNamed name = c.chrootNamed name := by
    rw [Build.chrootNamed, Build.chrootNamed, same]
  show Q (b.chrootNamed name) ↔ Q (c.chrootNamed name)
  rw [equal]

/-- The row of a build was read, without its chroots. -/
def RowRead (history : CommitHistory) (since : Nat) (b : Build) : Prop :=
  ∀ P changes, RowOnly P → Lasting P changes → P b → Held history since b.id P changes

/-- A session has changed a build as its message says. -/
structure Pending (history : CommitHistory) (since : Nat) (write : PendingWrite) : Prop where
  /-- The row was read. -/
  row : RowRead history since write.loaded
  /-- The chroots were read. -/
  chroots : ∀ P changes, ChrootsOnly P → Lasting P changes → P write.loaded →
    Held history since write.loaded.id P changes
  /-- The build is there with its chroots. -/
  present : ∃ b, history.now.builds.find write.loaded.id = some b ∧
    ∀ name, (write.loaded.chrootNamed name).isSome → (b.chrootNamed name).isSome
  /-- The session has done what `update_state_from_dict` does. -/
  computed : ∃ package, BuildsLogic.updateAssigned write.env
    { write.loaded with package := package } write.upd = some write.updated

/-- A row that is read now is a row of the history since any earlier time. -/
theorem rowRead_now (begun : since ≤ history.length)
    (here : history.now.builds.find b.id = some b) : RowRead history since b :=
  fun _ _ _ _ holds => held_now begun here holds

/-- A row that was read stays so in a commit. -/
theorem RowRead.commit (read : RowRead history since b)
    (flushed : Flushes history.now writes next) :
    RowRead (history.commit writes next) since b :=
  fun P changes rowOnly lasting holds =>
    (read P changes rowOnly lasting holds).commit lasting flushed

/-- A pending change stays one in the commit of another session. -/
theorem Pending.commit {write : PendingWrite} (pending : Pending history since write)
    (flushed : Flushes history.now writes next) :
    Pending (history.commit writes next) since write where
  row := pending.row.commit flushed
  chroots P changes only lasting holds :=
    (pending.chroots P changes only lasting holds).commit lasting flushed
  present := by
    obtain ⟨b, here, chroots⟩ := pending.present
    have after := flushed write.loaded.id
    rw [here, Option.map_some] at after
    refine ⟨flushRow writes b, after, fun name loaded => ?_⟩
    have stays := chroots name loaded
    unfold flushRow
    split
    · exact chroot_stays stays
    · exact stays
  computed := pending.computed

/-! ### What a message reports -/

/-- The source status that a message asks for. Sources that have succeeded are imported next; only
a build without chroots fails, when its package is built in none either. -/
def sourceStatusAfter (upd : UpdDict) (bare allows : Bool) : StatusEnum :=
  if upd.status = .succeeded then if bare && !allows then .failed else .importing
  else upd.status

/-- The chroot status that a message asks for. A terminal status stays. -/
def chrootStatusAfter (upd : UpdDict) (before : StatusEnum) : StatusEnum :=
  if before.Terminal then before else upd.status

/-- A commit since then has written the message back, and the row was read in a state before
it. -/
def WrittenBack (history : CommitHistory) (since buildId : Nat) (upd : UpdDict)
    (P : PendingWrite → Build → Prop) : Prop :=
  ∃ later own state between earlier,
    history.commits = later ++ (own, state) :: (between ++ earlier) ∧ since ≤ earlier.length ∧
      ∃ write ∈ own, write.loaded.id = buildId ∧ write.upd = upd ∧
        ∃ b, (after history.start earlier).builds.find buildId = some b ∧ P write b

/-- A message has been applied to a build: its columns have become what the message makes of the
row that was read before, and they have only been changed by messages that were applied later. -/
structure Applied (history : CommitHistory) (since buildId : Nat) (upd : UpdDict) : Prop where
  /-- The `result_dir` of the source build. -/
  sourceDir : upd.taskId = toString buildId →
    Held history since buildId (fun b => b.resultDir = upd.resultDir.getD "")
      (Changes Build.resultDir)
  /-- The source status. -/
  sourceStatus : upd.taskId = toString buildId → ∃ status,
    WrittenBack history since buildId upd (fun write b =>
      status = sourceStatusAfter upd b.buildChroots.isEmpty write.allowsChroots) ∧
    Held history since buildId (fun b => b.sourceStatus = status) (Changes Build.sourceStatus)
  /-- The `result_dir` of the chroot. -/
  chrootDir : upd.taskId ≠ toString buildId → ∀ name, upd.chroot = some name →
    Held history since buildId
      (fun b => ∀ dir ∈ b.chrootColumn name BuildChroot.resultDir, dir = upd.resultDir.getD "")
      (Changes (Build.chrootColumn name BuildChroot.resultDir))
  /-- The status of the chroot. -/
  chrootStatus : upd.taskId ≠ toString buildId → ∀ name, upd.chroot = some name → ∃ status,
    WrittenBack history since buildId upd (fun _ b =>
      status = (b.chrootColumn name BuildChroot.status).map (chrootStatusAfter upd)) ∧
    Held history since buildId (fun b => b.chrootColumn name BuildChroot.status = status)
      (Changes (Build.chrootColumn name BuildChroot.status))
  /-- The results of the chroot, which nothing but a new chroot changes. -/
  results : upd.taskId ≠ toString buildId → upd.status.Terminal →
    ∀ name, upd.chroot = some name →
    Held history since buildId
      (fun b => ∀ c, b.chrootNamed name = some c → upd.packages ⊆ c.results)
      (Changes (Build.chrootColumn name fun _ => ()))

/-- A commit that has written a message back stays in the history. -/
theorem WrittenBack.commit {upd : UpdDict} {P : PendingWrite → Build → Prop}
    (written : WrittenBack history since buildId upd P) :
    WrittenBack (history.commit writes next) since buildId upd P := by
  obtain ⟨later, own, state, between, earlier, split_, since_, read⟩ := written
  exact ⟨(writes, next) :: later, own, state, between, earlier,
    congrArg (List.cons (writes, next)) split_, since_, read⟩

/-- A commit writes back what was held of the row before. -/
theorem Held.writtenBack {write : PendingWrite} {Q : PendingWrite → Build → Prop}
    (held : Held history since write.loaded.id P changes) (member : write ∈ writes)
    (read : ∀ b, P b → Q write b) :
    WrittenBack (history.commit writes next) since write.loaded.id write.upd Q := by
  obtain ⟨later, earlier, split_, since_, ⟨b, here, holds⟩, -⟩ := held
  exact ⟨[], writes, next, later, earlier, congrArg (List.cons (writes, next)) split_, since_,
    write, member, rfl, rfl, b, here, read b holds⟩

/-- What was applied stays applied. -/
theorem Applied.commit {upd : UpdDict} (applied : Applied history since buildId upd)
    (flushed : Flushes history.now writes next) :
    Applied (history.commit writes next) since buildId upd where
  sourceDir task :=
    (applied.sourceDir task).commit (column_resultDir.lasting fun dir => dir = _) flushed
  sourceStatus task := by
    obtain ⟨status, written, held⟩ := applied.sourceStatus task
    exact ⟨status, written.commit,
      held.commit (column_sourceStatus.lasting fun found => found = status) flushed⟩
  chrootDir task name named :=
    (applied.chrootDir task name named).commit
      ((column_chrootDir name).lasting fun dirs => ∀ dir ∈ dirs, dir = _) flushed
  chrootStatus task name named := by
    obtain ⟨status, written, held⟩ := applied.chrootStatus task name named
    exact ⟨status, written.commit,
      held.commit ((column_status name).lasting fun found => found = status) flushed⟩
  results task terminal name named :=
    (applied.results task terminal name named).commit (lasting_results name upd.packages) flushed

/-- The status of the source build after a message. -/
theorem startChroots_status (env : Surroundings) (b : Build) (upd : UpdDict) :
    (BuildsLogic.startChroots env b upd).1 = sourceStatusAfter upd b.buildChroots.isEmpty
      (b.package.isSome && !env.packageChroots.chroots.isEmpty) := by
  unfold sourceStatusAfter BuildsLogic.startChroots
  by_cases succeeded : upd.status = .succeeded
  · rw [if_pos succeeded, if_pos succeeded]
    cases bare : b.buildChroots.isEmpty with
    | false => rfl
    | true =>
      rw [if_pos rfl, BuildsLogic.assignBuildchrootsFromPackage]
      cases b.package with
      | none => rfl
      | some name => cases env.packageChroots.chroots <;> rfl
  · rw [if_neg succeeded, if_neg succeeded]

/-- A message about the source build. -/
theorem updateAssigned_source {env : Surroundings} {loaded updated : Build} {upd : UpdDict}
    {package : Option String} (task : upd.taskId = toString loaded.id)
    (computed : BuildsLogic.updateAssigned env { loaded with package := package } upd =
      some updated) :
    updated.resultDir = upd.resultDir.getD "" ∧
      updated.sourceStatus = sourceStatusAfter upd loaded.buildChroots.isEmpty
        (updated.package.isSome && !env.packageChroots.chroots.isEmpty) := by
  have source : upd.taskId = ({ loaded with package := package } : Build).taskId := task
  rw [BuildsLogic.updateAssigned, if_pos source, BuildsLogic.updateSource] at computed
  obtain ⟨chroots, -, rfl⟩ := Option.map_eq_some_iff.mp computed
  exact ⟨rfl, startChroots_status env _ upd⟩

/-- A chroot keeps its name when a message is applied. -/
theorem updateChroot_name (env : Surroundings) (upd : UpdDict) (c : BuildChroot) :
    (BuildsLogic.updateChroot env upd c).name = c.name := by
  unfold BuildsLogic.updateChroot
  split <;> rfl

/-- A message about a chroot. -/
theorem updateAssigned_chroot {env : Surroundings} {loaded updated : Build} {upd : UpdDict}
    {package : Option String} (task : upd.taskId ≠ toString loaded.id)
    (computed : BuildsLogic.updateAssigned env { loaded with package := package } upd =
      some updated) (name : String) :
    updated.chrootNamed name =
      (loaded.chrootNamed name).map (BuildsLogic.updateChroot env upd) := by
  have other : upd.taskId ≠ ({ loaded with package := package } : Build).taskId := task
  rw [BuildsLogic.updateAssigned, if_neg other] at computed
  obtain rfl := Option.some.inj computed
  show (loaded.buildChroots.map (BuildsLogic.updateChroot env upd)).find? _ = _
  rw [List.find?_map]
  simp only [Function.comp_def, updateChroot_name]
  rfl

/-- What a message does to the chroot that it names. -/
theorem updateChroot_named (env : Surroundings) {upd : UpdDict} {c : BuildChroot}
    (named : upd.chroot = some c.name) :
    (BuildsLogic.updateChroot env upd c).resultDir = upd.resultDir.getD "" ∧
      (BuildsLogic.updateChroot env upd c).status = chrootStatusAfter upd c.status ∧
      (upd.status.Terminal → (BuildsLogic.updateChroot env upd c).results =
        c.results ++ upd.packages) := by
  rw [BuildsLogic.updateChroot, if_pos named]
  exact ⟨rfl, rfl, fun terminal => if_pos terminal⟩

/-! ### The commit of the session itself -/

variable {write : PendingWrite}

/-- The row of a build that the session has changed, after its commit. -/
theorem own_flush (flushed : Flushes history.now writes next)
    (own : (writes.find? fun other => decide (other.loaded.id = write.loaded.id)) = some write)
    (here : history.now.builds.find write.loaded.id = some b) :
    next.builds.find write.loaded.id = some (write.flush b) := by
  have sameRow : b.id = write.loaded.id := (Table.find_eq_some.mp here).2
  rw [flushed, here, Option.map_some, flushRow, sameRow, own]

/-- A column of the build is held when the session commits: as it was read, or as the session
has changed it. -/
theorem held_own {α : Type} {column : Build → α} {Q : α → Prop} (isColumn : Column column)
    (begun : since ≤ history.length) (flushed : Flushes history.now writes next)
    (own : (writes.find? fun other => decide (other.loaded.id = write.loaded.id)) = some write)
    (read : Q (column write.loaded) →
      Held history since write.loaded.id (fun b => Q (column b)) (Changes column))
    (here : history.now.builds.find write.loaded.id = some b)
    (taken : write.Changes column → column (write.flush b) = column write.updated)
    (follows : Q (column write.updated)) :
    Held (history.commit writes next) since write.loaded.id (fun b => Q (column b))
      (Changes column) := by
  by_cases changed : write.Changes column
  · have after := own_flush flushed own here
    have later : since ≤ (history.commit writes next).length := Nat.le_succ_of_le begun
    apply held_now later after
    rw [taken changed]
    exact follows
  · have same : column write.updated = column write.loaded := not_not.mp changed
    rw [same] at follows
    exact (read follows).commit (isColumn.lasting Q) flushed

/-- A column of a chroot that the session has loaded is held when the session commits. -/
theorem held_own_chroot {α : Type} {name : String} {read : BuildChroot → α} {Q : Option α → Prop}
    (field : BuildChroot.Field read) (begun : since ≤ history.length)
    (pending : Pending history since write) (flushed : Flushes history.now writes next)
    (own : (writes.find? fun other => decide (other.loaded.id = write.loaded.id)) = some write)
    (names : (write.updated.chrootNamed name).isSome = (write.loaded.chrootNamed name).isSome)
    (follows : Q (write.updated.chrootColumn name read)) :
    Held (history.commit writes next) since write.loaded.id
      (fun b => Q (b.chrootColumn name read)) (Changes (Build.chrootColumn name read)) := by
  obtain ⟨b, here, chroots⟩ := pending.present
  have isColumn := column_chroot name field
  have only : ChrootsOnly fun b => Q (b.chrootColumn name read) :=
    chrootsOnly_chrootNamed name fun found => Q (found.map read)
  apply held_own isColumn begun flushed own
    (pending.chroots _ _ only (isColumn.lasting Q)) here _ follows
  intro changed
  unfold Changes Build.chrootColumn at changed
  unfold Build.chrootColumn
  cases before : write.loaded.chrootNamed name with
  | none =>
    rw [before, Option.isSome_none, Option.isSome_eq_false_iff, Option.isNone_iff_eq_none]
      at names
    rw [before, names] at changed
    exact absurd rfl changed
  | some loaded =>
    rw [before, Option.isSome_some] at names
    obtain ⟨updated, after⟩ := Option.isSome_iff_exists.mp names
    obtain ⟨c, found⟩ := Option.isSome_iff_exists.mp (chroots name (by rw [before]; rfl))
    rw [before, after, Option.map_some, Option.map_some, ne_eq, Option.some.injEq] at changed
    have written := ((field loaded updated c).resolve_left fun both => changed both.1).2
    rw [chrootNamed_flush_loaded before after found, after, Option.map_some, Option.map_some,
      written]

/-- The results of a chroot that the session has loaded are held when the session commits. -/
theorem held_own_results {name : String} {packages : List BuildChrootResult}
    (begun : since ≤ history.length) (pending : Pending history since write)
    (flushed : Flushes history.now writes next)
    (own : (writes.find? fun other => decide (other.loaded.id = write.loaded.id)) = some write)
    (names : (write.updated.chrootNamed name).isSome = (write.loaded.chrootNamed name).isSome)
    (grown : ∀ loaded updated, write.loaded.chrootNamed name = some loaded →
      write.updated.chrootNamed name = some updated →
      updated.results = loaded.results ++ packages) :
    Held (history.commit writes next) since write.loaded.id
      (fun b => ∀ c, b.chrootNamed name = some c → packages ⊆ c.results)
      (Changes (Build.chrootColumn name fun _ => ())) := by
  obtain ⟨b, here, chroots⟩ := pending.present
  cases before : write.loaded.chrootNamed name with
  | none =>
    have only := chrootsOnly_chrootNamed name fun found =>
      ∀ c, found = some c → packages ⊆ c.results
    have lasting := lasting_results name packages
    apply Held.commit _ lasting flushed
    apply pending.chroots _ _ only lasting
    intro c found
    rw [before] at found
    contradiction
  | some loaded =>
    rw [before, Option.isSome_some] at names
    obtain ⟨updated, after⟩ := Option.isSome_iff_exists.mp names
    obtain ⟨c, found⟩ := Option.isSome_iff_exists.mp (chroots name (by rw [before]; rfl))
    have later : since ≤ (history.commit writes next).length := Nat.le_succ_of_le begun
    apply held_now later (own_flush flushed own here)
    intro d flushedChroot
    rw [chrootNamed_flush_loaded before after found, Option.some.injEq] at flushedChroot
    rw [← flushedChroot]
    show packages ⊆ c.results ++ updated.results.drop loaded.results.length
    rw [grown loaded updated before after, List.drop_left]
    exact List.subset_append_right _ _

/-- A message that a session commits has been applied. -/
theorem Pending.applied (begun : since ≤ history.length) (pending : Pending history since write)
    (flushed : Flushes history.now writes next)
    (own : (writes.find? fun other => decide (other.loaded.id = write.loaded.id)) = some write) :
    Applied (history.commit writes next) since write.loaded.id write.upd := by
  obtain ⟨b, here, -⟩ := pending.present
  obtain ⟨package, computed⟩ := pending.computed
  have member := List.mem_of_find?_eq_some own
  have chrootFacts (task : write.upd.taskId ≠ toString write.loaded.id) (name : String) :
      write.updated.chrootNamed name =
        (write.loaded.chrootNamed name).map (BuildsLogic.updateChroot write.env write.upd) :=
    updateAssigned_chroot task computed name
  have names (task : write.upd.taskId ≠ toString write.loaded.id) (name : String) :
      (write.updated.chrootNamed name).isSome = (write.loaded.chrootNamed name).isSome := by
    rw [chrootFacts task name, Option.isSome_map]
  have named (task : write.upd.taskId ≠ toString write.loaded.id) {name : String}
      (chroot : write.upd.chroot = some name) {updated : BuildChroot}
      (found : write.updated.chrootNamed name = some updated) :
      ∃ loaded, write.loaded.chrootNamed name = some loaded ∧
        write.upd.chroot = some loaded.name ∧
        BuildsLogic.updateChroot write.env write.upd loaded = updated := by
    rw [chrootFacts task name] at found
    obtain ⟨loaded, before, becomes⟩ := Option.map_eq_some_iff.mp found
    have ownName := Build.name_of_chrootNamed before
    exact ⟨loaded, before, ownName ▸ chroot, becomes⟩
  constructor
  · intro task
    have follows := (updateAssigned_source task computed).1
    exact held_own (Q := fun dir => dir = write.upd.resultDir.getD "") column_resultDir begun
      flushed own
      (pending.row _ _ (fun _ _ => Iff.rfl) (column_resultDir.lasting fun dir => dir = _)) here
      (fun changed => if_neg changed) follows
  · intro task
    have follows := (updateAssigned_source task computed).2
    let Bare (b : Build) : Prop := b.buildChroots.isEmpty = write.loaded.buildChroots.isEmpty
    have chrootsOnly : ChrootsOnly Bare := fun b c same => by simp only [Bare, same]
    have read := pending.chroots Bare (fun _ => True) chrootsOnly (fun _ _ _ => Or.inr trivial) rfl
    refine ⟨_, read.writtenBack member fun b bare => ?_,
      held_own (Q := fun status => status = write.updated.sourceStatus) column_sourceStatus begun
        flushed own (pending.row _ _ (fun _ _ => Iff.rfl)
          (column_sourceStatus.lasting fun status => status = _)) here
        (fun changed => if_neg changed) rfl⟩
    rw [follows, bare]
    rfl
  · intro task name chroot
    apply held_own_chroot (Q := fun dirs => ∀ dir ∈ dirs, dir = write.upd.resultDir.getD "")
      BuildChroot.field_resultDir begun pending flushed own (names task name)
    intro dir listed
    obtain ⟨updated, found, rfl⟩ := Option.map_eq_some_iff.mp listed
    obtain ⟨loaded, -, same, rfl⟩ := named task chroot found
    exact (updateChroot_named write.env same).1
  · intro task name chroot
    have isColumn := column_status name
    let Read (b : Build) : Prop := b.chrootColumn name BuildChroot.status =
      write.loaded.chrootColumn name BuildChroot.status
    have chrootsOnly : ChrootsOnly Read := chrootsOnly_chrootNamed name fun found =>
      found.map BuildChroot.status = write.loaded.chrootColumn name BuildChroot.status
    have read := pending.chroots Read (fun _ => True) chrootsOnly (fun _ _ _ => Or.inr trivial) rfl
    have follows : write.updated.chrootColumn name BuildChroot.status =
        (write.loaded.chrootColumn name BuildChroot.status).map (chrootStatusAfter write.upd) := by
      rw [Build.chrootColumn, Build.chrootColumn, chrootFacts task name]
      cases found : write.loaded.chrootNamed name with
      | none => rfl
      | some loaded =>
        have same : write.upd.chroot = some loaded.name :=
          chroot.trans (congrArg some (Build.name_of_chrootNamed found).symm)
        exact congrArg some (updateChroot_named write.env same).2.1
    refine ⟨_, read.writtenBack member fun b before => ?_,
      held_own_chroot (Q := fun found => found = write.updated.chrootColumn name _)
        BuildChroot.field_status begun pending flushed own (names task name) rfl⟩
    rw [before, follows]
  · intro task terminal name chroot
    apply held_own_results begun pending flushed own (names task name)
    intro loaded updated before found
    obtain ⟨first, there, same, rfl⟩ := named task chroot found
    rw [before, Option.some.injEq] at there
    rw [there]
    exact (updateChroot_named write.env same).2.2 terminal

end BuildTables

end Copr
