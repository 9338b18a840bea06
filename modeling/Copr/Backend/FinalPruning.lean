import Copr.Backend.Pruner
import Mathlib.Data.List.ReduceOption

/-!
# What is known of a chroot when it is reported

The report `final-prunerepo-done` is made from the table of chroots that the run has started with.
It is proved for which directories and failures a chroot that is reported has really been pruned
in that run.
-/

namespace Copr

open Tables

/-- A directory that is named like a chroot, in the directory of a project. -/
structure PrunePlace where
  /-- The name of the directory of the owner. -/
  owner : String
  /-- The name of the directory of the project. -/
  projectdir : String
  /-- The directory. -/
  entry : ChrootDir

namespace Pruner

/-- The directories in the directories of projects. -/
def places (tree : ResultTree) : List PrunePlace :=
  tree.toList.flatMap fun owners =>
    (owners.rows.filter OwnerDir.isDir).flatMap fun owner =>
      owner.projects.toList.flatMap fun projects =>
        (projects.rows.filter ProjectDir.isDir).flatMap fun dir =>
          dir.entries.toList.flatMap fun entries =>
            (entries.rows.filter ChrootDir.isDir).map fun entry => ⟨owner.name, dir.name, entry⟩

variable {opts : PrunerOptions} {chroots : ChrootTable}
  {project : String → String → QueriedProject} {tree : ResultTree} {r : PrunerRun}
  {place other : PrunePlace} {task : PruneTask}

/-- The directories on the way to a place. -/
structure Leads (tree : ResultTree) (place : PrunePlace) (owners : Table OwnerDir.name)
    (owner : OwnerDir) (projects : Table ProjectDir.name) (dir : ProjectDir)
    (entries : Table ChrootDir.name) : Prop where
  /-- The directory of results. -/
  treeRead : tree = some owners
  /-- The directory of the owner. -/
  ownerListed : owner ∈ owners.rows ∧ owner.isDir = true
  /-- Its entries. -/
  projectsRead : owner.projects = some projects
  /-- The directory of the project. -/
  dirListed : dir ∈ projects.rows ∧ dir.isDir = true
  /-- Its entries. -/
  entriesRead : dir.entries = some entries
  /-- The directory itself. -/
  entryListed : place.entry ∈ entries.rows ∧ place.entry.isDir = true
  /-- The names of the directories. -/
  names : place.owner = owner.name ∧ place.projectdir = dir.name

/-- Every place is reached through directories. -/
theorem mem_places : place ∈ places tree ↔
    ∃ owners owner projects dir entries, Leads tree place owners owner projects dir entries := by
  simp only [places, List.mem_flatMap, Option.mem_toList, List.mem_map, List.mem_filter]
  constructor
  · rintro ⟨owners, found, owner, inOwners, projects, listed, dir, inProjects, entries, read,
      entry, inEntries, rfl⟩
    exact ⟨owners, owner, projects, dir, entries, found, inOwners, listed, inProjects, read,
      inEntries, rfl, rfl⟩
  · rintro ⟨owners, owner, projects, dir, entries, leads⟩
    refine ⟨owners, leads.treeRead, owner, leads.ownerListed, projects, leads.projectsRead, dir,
      leads.dirListed,
      entries, leads.entriesRead, place.entry, leads.entryListed, ?_⟩
    rw [← leads.names.1, ← leads.names.2]

/-- A place is known by its names. -/
theorem place_eq (here : place ∈ places tree) (there : other ∈ places tree)
    (owner : place.owner = other.owner) (projectdir : place.projectdir = other.projectdir)
    (name : place.entry.name = other.entry.name) : place = other := by
  obtain ⟨owners, a, projects, d, entries, leads⟩ := mem_places.mp here
  obtain ⟨owners', a', projects', d', entries', leads'⟩ := mem_places.mp there
  obtain rfl := Option.some.inj (leads.treeRead.symm.trans leads'.treeRead)
  obtain rfl : a = a' := by
    refine Table.eq_of_key leads.ownerListed.1 leads'.ownerListed.1 ?_
    rw [← leads.names.1, owner, leads'.names.1]
  obtain rfl := Option.some.inj (leads.projectsRead.symm.trans leads'.projectsRead)
  obtain rfl : d = d' := by
    refine Table.eq_of_key leads.dirListed.1 leads'.dirListed.1 ?_
    rw [← leads.names.2, projectdir, leads'.names.2]
  obtain rfl := Option.some.inj (leads.entriesRead.symm.trans leads'.entriesRead)
  have entry := Table.eq_of_key leads.entryListed.1 leads'.entryListed.1 name
  cases place
  cases other
  simp_all

variable (project) in
/-- The project of a place. -/
def projectOf (place : PrunePlace) : QueriedProject :=
  project place.owner (projectName place.projectdir)

/-- A project that can be pruned is pruned entry by entry. -/
theorem pruneProject_eq {username : String} {dir : ProjectDir} {tasks : List PruneTask}
    (done : pruneProject opts chroots project username dir = some tasks) :
    let p := project username (projectName dir.name)
    if p.available && !p.exempt then
      ∃ entries found, dir.entries = some entries ∧
        entries.rows.mapM (pruneChroot opts chroots username dir.name) = some found ∧
        tasks = found.reduceOption
    else tasks = [] := by
  unfold pruneProject at done
  dsimp only
  unfold QueriedProject.available QueriedProject.exempt
  split at done
  · contradiction
  · rename_i failed
    rw [failed]
    simpa using done.symm
  · rename_i answered missing
    rw [missing]
    simpa using done.symm
  · rename_i info answered known
    rw [answered, known]
    split at done
    · rename_i exempt
      simp only [Option.any_some, exempt]
      simpa using done.symm
    · rename_i pruned
      rw [Bool.not_eq_true] at pruned
      obtain ⟨entries, read, loop⟩ := Option.bind_eq_some_iff.mp done
      obtain ⟨found, turns, same⟩ := Option.map_eq_some_iff.mp loop
      simp only [Option.any_some, pruned]
      exact ⟨entries, found, read, turns, same.symm⟩

/-- Every call of `run_prunerepo` is for a place in a project that can be pruned. -/
theorem place_of_task (done : run opts chroots project tree = some r) (listed : task ∈ r.tasks) :
    ∃ place ∈ places tree, (projectOf project place).available = true ∧
      (projectOf project place).exempt = false ∧
      pruneChroot opts chroots place.owner place.projectdir place.entry = some (some task) := by
  obtain ⟨owners, found, loop⟩ := Option.bind_eq_some_iff.mp done
  obtain ⟨perOwner, turns, rfl⟩ := Option.map_eq_some_iff.mp loop
  obtain ⟨ofOwner, inOwners, listed⟩ := List.mem_flatten.mp listed
  obtain ⟨owner, inRows, own⟩ := (Loops.mem_of_mapM turns).mp inOwners
  obtain ⟨projects, read, loop⟩ := Option.bind_eq_some_iff.mp own
  obtain ⟨perProject, turns, rfl⟩ := Option.map_eq_some_iff.mp loop
  obtain ⟨ofProject, inProjects, listed⟩ := List.mem_flatten.mp listed
  obtain ⟨dir, inDirs, pruned⟩ := (Loops.mem_of_mapM turns).mp inProjects
  have each := pruneProject_eq pruned
  dsimp only at each
  split at each
  · rename_i able
    obtain ⟨available, notExempt⟩ := Bool.and_eq_true_iff.mp able
    obtain ⟨entries, perEntry, scanned, turns, rfl⟩ := each
    obtain ⟨entry, inEntries, taken⟩ :=
      (Loops.mem_of_mapM turns).mp (List.reduceOption_mem_iff.mp listed)
    have isDir : entry.isDir = true := by
      cases kind : entry.isDir with
      | true => rfl
      | false =>
        rw [pruneChroot, kind] at taken
        cases taken
    rw [Bool.not_eq_true'] at notExempt
    refine ⟨⟨owner.name, dir.name, entry⟩, mem_places.mpr ⟨owners, owner, projects, dir, entries,
      found, ?_, read, ?_, scanned, ⟨inEntries, isDir⟩, rfl, rfl⟩, available, notExempt, taken⟩
    · exact List.mem_filter.mp inRows
    · exact List.mem_filter.mp inDirs
  · rw [each] at listed
    contradiction

/-- Every place in a project that can be pruned has its turn. -/
theorem turn_of_place (done : run opts chroots project tree = some r)
    (there : place ∈ places tree) (available : (projectOf project place).available = true)
    (pruned : (projectOf project place).exempt = false) :
    ∃ taken, pruneChroot opts chroots place.owner place.projectdir place.entry = some taken ∧
      ∀ task, taken = some task → task ∈ r.tasks := by
  obtain ⟨owners, owner, projects, dir, entries, leads⟩ := mem_places.mp there
  obtain ⟨found, readTree, loop⟩ := Option.bind_eq_some_iff.mp done
  obtain rfl := Option.some.inj (leads.treeRead.symm.trans readTree)
  obtain ⟨perOwner, turns, rfl⟩ := Option.map_eq_some_iff.mp loop
  obtain ⟨ofOwner, own, inOwners⟩ :=
    Loops.turn_of_mapM turns (List.mem_filter.mpr leads.ownerListed)
  obtain ⟨read, listed, loop⟩ := Option.bind_eq_some_iff.mp own
  obtain rfl := Option.some.inj (leads.projectsRead.symm.trans listed)
  obtain ⟨perProject, turns, rfl⟩ := Option.map_eq_some_iff.mp loop
  obtain ⟨ofProject, projectDone, inProjects⟩ :=
    Loops.turn_of_mapM turns (List.mem_filter.mpr leads.dirListed)
  have each := pruneProject_eq projectDone
  dsimp only at each
  unfold projectOf at available pruned
  rw [leads.names.1, leads.names.2] at available pruned ⊢
  rw [available, pruned] at each
  obtain ⟨scanned, perEntry, readDir, turns, rfl⟩ := each
  obtain rfl := Option.some.inj (leads.entriesRead.symm.trans readDir)
  obtain ⟨taken, turn, inEntries⟩ := Loops.turn_of_mapM turns leads.entryListed.1
  refine ⟨taken, turn, fun task some_ => ?_⟩
  rw [some_] at inEntries
  refine List.mem_flatten_of_mem inOwners (List.mem_flatten_of_mem inProjects ?_)
  exact List.reduceOption_mem_iff.mpr inEntries

/-! ## The report -/

/-- A call of `run_prunerepo` for a place has ended without an error. -/
def Pruned (r : PrunerRun) (place : PrunePlace) : Prop :=
  ∃ task ∈ r.tasks, task.username = place.owner ∧ task.projectdir = place.projectdir ∧
    task.subDirName = place.entry.name ∧ task.ended = some true

variable (project) in
/-- Every chroot that is reported was pruned in every project that is not exempt. -/
def FinalizedAfterPruning (tree : ResultTree) (r : PrunerRun) : Prop :=
  ∀ place ∈ places tree, place.entry.name ∈ r.finalized →
    (projectOf project place).exempt = false → Pruned r place

/-- A chroot is inactive and was not reported before. -/
def due (chroots : ChrootTable) (chrootName : String) : Bool :=
  (chroots.find chrootName).any fun c => !c.finalPrunerepoDone && !c.isActive

variable (opts project) in
/-- Nothing comes between a place and its pruning: the project is known, the directory is not too
old, and nothing fails in `run_prunerepo`. -/
def cleared (place : PrunePlace) : Bool :=
  (projectOf project place).available &&
    (!opts.mtimeOptimization || place.entry.age.any fun age => !untouched opts age) &&
    decide (place.entry.steps.runPrunerepo = some true)

/-- Exactly the chroots that are due are reported. -/
theorem mem_chrootsFinalized {chrootName : String} :
    chrootName ∈ chrootsFinalized chroots ↔ due chroots chrootName = true := by
  unfold chrootsFinalized due
  rw [List.mem_map, Option.any_eq_true]
  constructor
  · rintro ⟨c, listed, rfl⟩
    obtain ⟨member, waiting⟩ := List.mem_filter.mp listed
    exact ⟨c, Table.find_of_mem member, waiting⟩
  · rintro ⟨c, found, waiting⟩
    obtain ⟨member, named⟩ := Table.find_eq_some.mp found
    exact ⟨c, List.mem_filter.mpr ⟨member, waiting⟩, named⟩

/-- The directory `modules` is no chroot. -/
theorem name_ne_modules (c : PrunedChroot) : c.name ≠ "modules" := by
  intro same
  have dash : '-' ∈ c.name.toList := by
    simp [PrunedChroot.name, MockChroot.name]
  rw [same] at dash
  revert dash
  decide

/-- A call is named after its place. -/
theorem task_of_turn {username projectdir : String} {entry : ChrootDir}
    (turn : pruneChroot opts chroots username projectdir entry = some (some task)) :
    task = ⟨username, projectdir, entry.name, entry.steps.runPrunerepo⟩ := by
  unfold pruneChroot at turn
  dsimp only at turn
  split at turn
  · cases turn
  · split at turn
    · cases turn
    · split at turn
      · cases turn
      · split at turn
        · obtain ⟨age, -, taken⟩ := Option.map_eq_some_iff.mp turn
          split at taken
          · cases taken
          · exact (Option.some.inj taken).symm
        · exact (Option.some.inj (Option.some.inj turn)).symm

/-- The turn of a directory of a chroot that is due. -/
theorem pruneChroot_due {username projectdir : String} {entry : ChrootDir}
    (waiting : due chroots entry.name = true) (isDir : entry.isDir = true) :
    pruneChroot opts chroots username projectdir entry = some (some task) ↔
      (opts.mtimeOptimization = true → ∃ age, entry.age = some age ∧ untouched opts age = false) ∧
        task = ⟨username, projectdir, entry.name, entry.steps.runPrunerepo⟩ := by
  obtain ⟨c, found, state⟩ := (Option.any_eq_true _ _).mp waiting
  obtain ⟨open_, -⟩ := Bool.and_eq_true_iff.mp state
  rw [Bool.not_eq_true'] at open_
  have chroot : entry.name ≠ "modules" := (Table.find_eq_some.mp found).2 ▸ name_ne_modules c
  have runs : shouldRunInChroot opts chroots entry.name = true := by
    rw [shouldRunInChroot, found]
    simp [open_]
  unfold pruneChroot
  rw [isDir, if_neg (by decide), if_neg chroot, runs, if_neg (by decide)]
  cases opts.mtimeOptimization with
  | false =>
    exact ⟨fun turn => ⟨nofun, (Option.some.inj (Option.some.inj turn)).symm⟩,
      fun ⟨_, same⟩ => same ▸ rfl⟩
  | true =>
    simp only [↓reduceIte, true_implies, Option.map_eq_some_iff]
    constructor
    · rintro ⟨age, read, turn⟩
      cases old : untouched opts age with
      | true => simp [old] at turn
      | false =>
        rw [old] at turn
        exact ⟨⟨age, read, old⟩, (Option.some.inj turn).symm⟩
    · rintro ⟨⟨age, read, young⟩, rfl⟩
      refine ⟨age, read, ?_⟩
      rw [young]
      rfl

/-- In a run that gets to its end, the chroots that are reported were pruned in every project that
is not exempt, exactly if nothing came between their directories and the pruning. -/
theorem finalized_after_pruning_iff (done : run opts chroots project tree = some r) :
    FinalizedAfterPruning project tree r ↔
      ∀ place ∈ places tree, due chroots place.entry.name = true →
        (projectOf project place).exempt = false → cleared opts project place = true := by
  have reported : r.finalized = chrootsFinalized chroots := by
    obtain ⟨owners, -, loop⟩ := Option.bind_eq_some_iff.mp done
    obtain ⟨tasks, -, rfl⟩ := Option.map_eq_some_iff.mp loop
    rfl
  unfold FinalizedAfterPruning
  rw [reported]
  simp only [mem_chrootsFinalized]
  refine forall₄_congr fun place there waiting kept => ?_
  have isDir : place.entry.isDir = true := by
    obtain ⟨_, _, _, _, _, leads⟩ := mem_places.mp there
    exact leads.entryListed.2
  constructor
  · rintro ⟨task, listed, owner, projectdir, name, ended⟩
    obtain ⟨other, inTree, available, -, turn⟩ := place_of_task done listed
    obtain rfl := task_of_turn turn
    obtain rfl := place_eq inTree there owner projectdir name
    have young := ((pruneChroot_due waiting isDir).mp turn).1
    unfold cleared
    rw [available, Bool.true_and, Bool.and_eq_true]
    refine ⟨?_, decide_eq_true ended⟩
    cases on : opts.mtimeOptimization with
    | false => rfl
    | true =>
      obtain ⟨age, read, new⟩ := young on
      rw [read, Option.any_some, new]
      rfl
  · intro clear
    unfold cleared at clear
    rw [Bool.and_eq_true, Bool.and_eq_true, decide_eq_true_eq] at clear
    obtain ⟨⟨available, young⟩, succeeds⟩ := clear
    obtain ⟨taken, turn, listed⟩ := turn_of_place done there available kept
    refine ⟨⟨place.owner, place.projectdir, place.entry.name, place.entry.steps.runPrunerepo⟩,
      listed _ ?_, rfl, rfl, rfl, succeeds⟩
    have mine : pruneChroot opts chroots place.owner place.projectdir place.entry =
        some (some ⟨place.owner, place.projectdir, place.entry.name,
          place.entry.steps.runPrunerepo⟩) := by
      refine (pruneChroot_due waiting isDir).mpr ⟨fun on => ?_, rfl⟩
      rw [on, Bool.not_true, Bool.false_or] at young
      obtain ⟨age, read, new⟩ := (Option.any_eq_true _ _).mp young
      exact ⟨age, read, by simpa using new⟩
    exact Option.some.inj (turn.symm.trans mine)

/-- After the report the chroot is pruned again only on request, while it stays inactive. -/
theorem never_pruned_again {chroots' : ChrootTable} {names : List String} {c : PrunedChroot}
    (finished : prunerepoFinished names chroots = some chroots') (reported : c.name ∈ names)
    (listed : c ∈ chroots.rows) (inactive : c.isActive = false) :
    shouldRunInChroot opts chroots' c.name = opts.pruneFinalizedChroots := by
  unfold prunerepoFinished at finished
  split at finished
  · obtain rfl := Option.some.inj finished
    rw [shouldRunInChroot, Table.find_update, Table.find_of_mem listed]
    simp [reported, inactive, PrunedChroot.finalized]
  · contradiction

end Pruner

/-! ## A concrete tree -/

namespace Sample

/-- A mock chroot at the end of its life. -/
def deadChroot : PrunedChroot := ⟨⟨"fedora", "38", "x86_64", "f38"⟩, false, false⟩

/-- The only chroot. -/
def deadChroots : ChrootTable := ⟨[deadChroot], by decide⟩

/-- Its directory in a project, where nothing fails. -/
def deadDir : ChrootDir where
  name := "fedora-38-x86_64"
  isDir := true
  age := some 0
  steps := ⟨true, .value true, some [], fun _ => .value true, true⟩

/-- A project of a user with that directory. -/
def deadTree : ResultTree :=
  some ⟨[⟨"user", true, some ⟨[⟨"hello", true, some ⟨[deadDir], by decide⟩⟩], by decide⟩⟩],
    by decide⟩

/-- A project that is not exempt, and how a query about it ends. -/
def plainProject (query : ProjectQuery) (_ _ : String) : QueriedProject :=
  ⟨some ⟨some false, some false, some true⟩, query⟩

end Sample

namespace Pruner

open Sample

/-- Without failures the chroot is reported after it was pruned. -/
theorem finalized_after_pruning_sample : ∃ r,
    run (.ofCmdline 14 true false) deadChroots (plainProject .answered) deadTree = some r ∧
      r.finalized = ["fedora-38-x86_64"] ∧
      FinalizedAfterPruning (plainProject .answered) deadTree r :=
  ⟨⟨[⟨"user", "hello", "fedora-38-x86_64", some true⟩], ["fedora-38-x86_64"]⟩, by decide, rfl,
    (@finalized_after_pruning_iff (.ofCmdline 14 true false) deadChroots
      (plainProject .answered) deadTree _ (by decide)).mpr (by decide)⟩

/-- The query about the project fails: the chroot is reported, and was not pruned. -/
theorem finalized_without_project : ¬ ∀ (opts : PrunerOptions) (chroots : ChrootTable)
    (project : String → String → QueriedProject) (tree : ResultTree) (r : PrunerRun),
    run opts chroots project tree = some r → FinalizedAfterPruning project tree r := by
  intro claimed
  have pruned := claimed (.ofCmdline 14 false false) deadChroots (plainProject .failed) deadTree
    ⟨[], ["fedora-38-x86_64"]⟩ (by decide) ⟨"user", "hello", deadDir⟩
    (List.mem_singleton_self _) (List.mem_singleton_self _) rfl
  obtain ⟨task, none_, -⟩ := pruned
  cases none_

end Pruner

end Copr
