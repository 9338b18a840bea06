import Copr.Lib.Loops
import Copr.Lib.Tables
import Copr.Lib.Text
import Copr.Backend.ProjectActions
import Copr.Frontend.Models

/-!
# Pruning the results

`Pruner` and `run_prunerepo` of the script `copr_prune_results.py`, and the part of
`MockChrootsLogic` in `coprs/logic/coprs_logic.py` that tells it about chroots and takes its
report. The directories are what `os.scandir` finds; what the frontend answers about a project and
how the steps of `run_prunerepo` end are parameters. Ages are exact numbers.
-/

namespace Copr

open Tables Text

/-! ## Chroots -/

/-- `MockChroot`, with the columns for pruning. -/
structure PrunedChroot where
  /-- The mock chroot. -/
  mockChroot : MockChroot
  /-- `is_active`. -/
  isActive : Bool
  /-- `final_prunerepo_done`. -/
  finalPrunerepoDone : Bool
  deriving DecidableEq, Repr

/-- `name`. -/
def PrunedChroot.name (c : PrunedChroot) : String := c.mockChroot.name

/-- `final_prunerepo_done` is set. -/
def PrunedChroot.finalized (c : PrunedChroot) : PrunedChroot :=
  { c with finalPrunerepoDone := true }

/-- The name stays. -/
@[simp] theorem PrunedChroot.finalized_name (c : PrunedChroot) : c.finalized.name = c.name := rfl

/-- The chroots, with a unique name. `chroots_prunerepo_status` sends the columns of all. -/
abbrev ChrootTable := Table PrunedChroot.name

/-- `prunerepo_finished`; `none` when `one()` raises. -/
def prunerepoFinished (chrootsPruned : List String) (t : ChrootTable) : Option ChrootTable :=
  if chrootsPruned.all fun name => (t.find name).isSome then
    some (t.update (fun c => decide (c.name ∈ chrootsPruned) && !c.isActive)
      PrunedChroot.finalized PrunedChroot.finalized_name)
  else none

/-! ## What is on the disk -/

/-- What happens in `run_prunerepo` for a chroot directory. -/
structure PruneSteps where
  /-- `repodata` exists. -/
  repodata : Bool
  /-- `call_copr_repo` for missing `repodata`. -/
  createrepo : Returned
  /-- `get_rpms_to_remove`; `none` when it raises. -/
  rpmsToRemove : Option (List String)
  /-- `call_copr_repo` for some RPMs. -/
  coprRepo : List String → Returned
  /-- `clean_copr` does not raise. -/
  cleanCopr : Bool

/-- An entry of a project directory. -/
structure ChrootDir where
  /-- `name`. -/
  name : String
  /-- `is_dir()`. -/
  isDir : Bool
  /-- The seconds since it was changed; `none` when `stat()` raises. -/
  age : Option Rat
  /-- What happens when it is pruned. -/
  steps : PruneSteps

/-- An entry of the directory of an owner. -/
structure ProjectDir where
  /-- `name`. -/
  name : String
  /-- `is_dir()`. -/
  isDir : Bool
  /-- Its entries; `none` when `os.scandir` raises. -/
  entries : Option (Table ChrootDir.name)

/-- An entry of the directory of results. -/
structure OwnerDir where
  /-- `name`. -/
  name : String
  /-- `is_dir()`. -/
  isDir : Bool
  /-- Its entries; `none` when `os.scandir` raises. -/
  projects : Option (Table ProjectDir.name)

/-- The directory of results; `none` when `os.scandir` raises. -/
abbrev ResultTree := Option (Table OwnerDir.name)

/-! ## Projects -/

/-- The part of the answer about a project that the pruner reads. -/
structure ProjectInfo where
  /-- `devel_mode`. -/
  develMode : Option Bool
  /-- `persistent`. -/
  persistent : Option Bool
  /-- `auto_prune`. -/
  autoPrune : Option Bool
  deriving DecidableEq, Repr

/-- Manual createrepo, a persistent project, or pruning is switched off. -/
def ProjectInfo.exempt (info : ProjectInfo) : Bool :=
  info.develMode.getD false || info.persistent.getD true || !info.autoPrune.getD true

/-- How the query about a project ends. -/
inductive ProjectQuery
  /-- It is answered. -/
  | answered
  /-- It raises a `CoprException`. -/
  | failed
  /-- It raises something else. -/
  | raised
  deriving DecidableEq, Repr

/-- A project. -/
structure QueriedProject where
  /-- What the frontend has about it, if there is such a project. -/
  info : Option ProjectInfo
  /-- How the query ends. -/
  query : ProjectQuery
  deriving DecidableEq, Repr

namespace QueriedProject

/-- The project needs no pruning. -/
def exempt (p : QueriedProject) : Bool := p.info.any ProjectInfo.exempt

/-- The information is available. -/
def available (p : QueriedProject) : Bool := p.info.isSome && decide (p.query = .answered)

end QueriedProject

/-- `projectdir.split(':', 1)[0]`. -/
def projectName (projectdir : String) : String := String.ofList ((split projectdir ':').headD [])

/-- `arg_max_splitter`. -/
def argMaxSplitter (window : Nat) (args : List String) : List (List String) :=
  (List.range ((args.length + window - 1) / window)).map fun i =>
    (args.drop (i * window)).take window

/-- The `try` block of `run_prunerepo`: whether all runs of `copr-repo` succeed; `none` when
something raises. The exception is logged and goes no further, and the results of `copr-repo` are
not looked at. -/
def PruneSteps.runPrunerepo (steps : PruneSteps) : Option Bool := do
  let created ← if steps.repodata then some true else steps.createrepo.truth
  let allRpms ← steps.rpmsToRemove
  let removed ← (argMaxSplitter 9000 allRpms).mapM fun rpms => (steps.coprRepo rpms).truth
  if steps.cleanCopr then some (created && removed.all id) else none

/-- A call of `run_prunerepo` by a worker. -/
structure PruneTask where
  /-- `username`. -/
  username : String
  /-- `projectdir`. -/
  projectdir : String
  /-- `sub_dir_name`. -/
  subDirName : String
  /-- How its `try` block ended. -/
  ended : Option Bool
  deriving DecidableEq, Repr

/-- The attributes of a `Pruner` that come from the command line and the configuration. -/
structure PrunerOptions where
  /-- `prune_days`. -/
  pruneDays : Int
  /-- `mtime_optimization`. -/
  mtimeOptimization : Bool
  /-- `prune_finalized_chroots`. -/
  pruneFinalizedChroots : Bool
  deriving DecidableEq, Repr

/-- `Pruner.__init__` with `--no-mtime-optimization` and `--prune-finalized-chroots`. -/
def PrunerOptions.ofCmdline (pruneDays : Int)
    (noMtimeOptimization pruneFinalizedChroots : Bool) : PrunerOptions where
  pruneDays := pruneDays
  mtimeOptimization := if pruneFinalizedChroots then false else !noMtimeOptimization
  pruneFinalizedChroots := pruneFinalizedChroots

/-- What a run that gets to its end has done. -/
structure PrunerRun where
  /-- The calls of `run_prunerepo`. -/
  tasks : List PruneTask
  /-- The report `final-prunerepo-done`; it is not sent without chroots. -/
  finalized : List String
  deriving DecidableEq, Repr

namespace Pruner

variable (opts : PrunerOptions) (chroots : ChrootTable) (project : String → String → QueriedProject)

/-- `should_run_in_chroot`. -/
def shouldRunInChroot (chrootName : String) : Bool :=
  match chroots.find chrootName with
  | none => false
  | some info => if info.finalPrunerepoDone then opts.pruneFinalizedChroots else true

/-- The directory was not changed for more than `prune_days` and ten days. -/
def untouched (age : Rat) : Bool := decide ((opts.pruneDays + 10 : Int) < age / 3600 / 24)

/-- One turn of the loop in `prune_project`; `none` when it raises. -/
def pruneChroot (username projectdir : String) (entry : ChrootDir) : Option (Option PruneTask) :=
  let task : PruneTask := ⟨username, projectdir, entry.name, entry.steps.runPrunerepo⟩
  if !entry.isDir then some none
  else if entry.name = "modules" then some none
  else if !shouldRunInChroot opts chroots entry.name then some none
  else if opts.mtimeOptimization then
    entry.age.map fun age => if untouched opts age then none else some task
  else some (some task)

/-- `prune_project`; `none` when it raises. -/
def pruneProject (username : String) (dir : ProjectDir) : Option (List PruneTask) :=
  match (project username (projectName dir.name)).query,
    (project username (projectName dir.name)).info with
  | .raised, _ => none
  | .failed, _ => some []
  | .answered, none => some []
  | .answered, some info =>
    if info.exempt then some []
    else
      dir.entries.bind fun entries =>
        (entries.rows.mapM (pruneChroot opts chroots username dir.name)).map List.reduceOption

/-- The loop over the projects of an owner; `none` when it raises. -/
def pruneOwner (owner : OwnerDir) : Option (List PruneTask) :=
  owner.projects.bind fun projects =>
    ((projects.rows.filter ProjectDir.isDir).mapM
      (pruneProject opts chroots project owner.name)).map List.flatten

/-- The chroots that are reported: those that are inactive and were not reported before. -/
def chrootsFinalized : List String :=
  (chroots.rows.filter fun c => !c.finalPrunerepoDone && !c.isActive).map PrunedChroot.name

/-- `run`, which waits for the workers before the report; `none` when it raises. -/
def run (tree : ResultTree) : Option PrunerRun :=
  tree.bind fun owners =>
    ((owners.rows.filter OwnerDir.isDir).mapM (pruneOwner opts chroots project)).map
      fun tasks => ⟨tasks.flatten, chrootsFinalized chroots⟩

end Pruner

end Copr
