import Mathlib.Data.List.Infix
import Copr.Lib.Batching

/-!
# The `copr-repo` command

`run/copr-repo` and `BatchedCreaterepo` of `copr_backend/createrepo.py`: how the options of one
process become a record in Redis, how the records of several processes are merged, and the
`createrepo_c` command that is built from the merged options. What the command finds in the
directory is a parameter.
-/

namespace Copr

open Batching

/-- The parsed command line of `copr-repo`, with what `process_directory_path` derives. -/
structure CoprRepoArgs where
  /-- `directory`, resolved. -/
  directory : String
  /-- `--add`. -/
  add : List String := []
  /-- `--delete`. -/
  delete : List String := []
  /-- `--rpms-to-remove`. -/
  rpmsToRemove : List String := []
  /-- `--devel`. -/
  devel : Bool := false
  /-- Unless `--no-appstream-metadata`. -/
  appstream : Bool := true
  /-- `--do-stat`. -/
  doStat : Bool := false
  /-- `opts.chroot`. -/
  chroot : String := ""
  /-- `opts.baseurl`. -/
  baseurl : String := ""
  deriving DecidableEq, Repr

/-- `opts.full` of `main`: neither additions nor removals. -/
def CoprRepoArgs.full (args : CoprRepoArgs) : Bool :=
  args.add.isEmpty && args.delete.isEmpty && args.rpmsToRemove.isEmpty

/-- `_json_redis_task`. -/
structure RedisTask where
  /-- `appstream`. -/
  appstream : Bool
  /-- `devel`. -/
  devel : Bool
  /-- `add`. -/
  add : List String
  /-- `delete`. -/
  delete : List String
  /-- `full`. -/
  full : Bool
  /-- `rpms_to_remove`. -/
  rpmsToRemove : List String
  deriving DecidableEq, Repr

/-- The constructor of `BatchedCreaterepo` as `main` calls it. -/
def CoprRepoArgs.jsonRedisTask (args : CoprRepoArgs) : RedisTask where
  appstream := args.appstream
  devel := args.devel
  add := args.add
  delete := args.delete
  full := args.full
  rpmsToRemove := args.rpmsToRemove

/-! ## Merging the requests of others -/

/-- `MAX_IN_BATCH`. -/
def maxInBatch : Nat := 100

/-- What `BatchedCreaterepo.options` returns; sets are lists whose order nobody reads. -/
structure BatchOptions where
  /-- `full`. -/
  full : Bool := false
  /-- `add`. -/
  add : List String := []
  /-- `delete`. -/
  delete : List String := []
  /-- `rpms_to_remove`. -/
  rpmsToRemove : List String := []
  deriving DecidableEq, Repr

/-- What `options` does with a task that it can process. -/
def BatchOptions.merge (o : BatchOptions) (task : RedisTask) : BatchOptions :=
  let full := task.full || o.full
  let add := if task.full then [] else o.add
  { full := full
    add := if full then add else add ∪ task.add
    delete := o.delete ∪ task.delete
    rpmsToRemove := o.rpmsToRemove ∪ task.rpmsToRemove }

/-- `options` looks at the task of another process. -/
def joinTask (own : CoprRepoArgs) (merged : Nat) (o : BatchOptions) (task : RedisTask) :
    Decision BatchOptions :=
  if task.devel != own.devel || task.appstream != own.appstream then .skip
  else if maxInBatch - 1 ≤ merged + 1 then .last (o.merge task)
  else .take (o.merge task)

/-- The options of the command as they stand during `main_locked`. -/
structure CoprRepoOpts where
  /-- What does not change. -/
  args : CoprRepoArgs
  /-- `opts.full`. -/
  full : Bool
  /-- `opts.add`. -/
  add : List String
  /-- `opts.delete`. -/
  delete : List String
  /-- `opts.rpms_to_remove`. -/
  rpmsToRemove : List String
  deriving DecidableEq, Repr

/-- `main_locked` merges the tasks of others into its own options. -/
def mergeOptions (own : CoprRepoArgs) (batch : BatchOptions) : CoprRepoOpts :=
  let full := own.full || batch.full
  let add := if batch.full then [] else own.add
  let add := if full then add else add ++ batch.add
  let delete := own.delete ++ batch.delete
  { args := own
    full := full
    -- What is both added and deleted is only deleted.
    add := add.filter fun subdir => decide (subdir ∉ delete)
    delete := delete
    rpmsToRemove := own.rpmsToRemove ++ batch.rpmsToRemove }

/-! ## The command -/

/-- What `run_createrepo` finds in the directory. -/
structure RepoDirectory where
  /-- `comps.xml` exists. -/
  comps : Bool
  /-- `repodata/repomd.xml` exists. -/
  repomd : Bool
  /-- A path in the directory exists. -/
  present : String → Bool

/-- An argument of `createrepo_c`, with its value. -/
inductive CreaterepoArg
  /-- The directory. -/
  | directory (path : String)
  /-- `--database` or `--no-database`. -/
  | database (on : Bool)
  /-- The arguments that are always the same. -/
  | common
  /-- Checksums for old distributions. -/
  | md5
  /-- `--groupfile`. -/
  | groupfile (path : String)
  /-- `--update`. -/
  | update
  /-- `--skip-stat`. -/
  | skipStat
  /-- `--recycle-pkglist`. -/
  | recyclePkglist
  /-- `--excludes`. -/
  | excludes (pattern : String)
  /-- `--pkglist`. -/
  | pkglist (path : String)
  /-- `--outputdir` and `--baseurl`. -/
  | devel (outputdir baseurl : String)
  deriving DecidableEq, Repr

/-- The texts of an argument. -/
def CreaterepoArg.texts : CreaterepoArg → List String
  | .directory path => ["/usr/bin/createrepo_c", path]
  | .database on => [if on then "--database" else "--no-database"]
  | .common => ["--ignore-lock", "--local-sqlite", "--cachedir", "/tmp/", "--workers", "8",
      "--general-compress-type=gz"]
  | .md5 => ["-s", "sha", "--checksum", "md5"]
  | .groupfile path => ["--groupfile", path]
  | .update => ["--update"]
  | .skipStat => ["--skip-stat"]
  | .recyclePkglist => ["--recycle-pkglist"]
  | .excludes pattern => ["--excludes", pattern]
  | .pkglist path => ["--pkglist", path]
  | .devel outputdir baseurl => ["--outputdir", outputdir, "--baseurl", baseurl]

/-- `CHROOTS_USING_SQLITE_REPODATA`. -/
def chrootsUsingSqliteRepodata : List (String × List String) := []

/-- `_database_option`. -/
def databaseOption (chroot : String) : CreaterepoArg :=
  .database (chrootsUsingSqliteRepodata.any fun (family, versions) =>
    versions.any fun version => family ++ "-" ++ version == chroot)

/-- One text occurs in another. -/
def occursIn (part text : String) : Bool := decide (part.toList <:+: text.toList)

/-- `filter_existing`. -/
def filterExisting (dir : RepoDirectory) (subdirs : List String) : List String :=
  subdirs.filter dir.present

/-- The pattern that excludes a subdirectory. -/
def excludedSubdir (subdir : String) : String := "*" ++ subdir ++ "/*"

/-- A call of `run_createrepo` that returned. -/
structure CreaterepoRun where
  /-- The options it was called with. -/
  opts : CoprRepoOpts
  /-- What it found. -/
  dir : RepoDirectory

namespace CreaterepoRun

variable (run : CreaterepoRun)

/-- `opts.add` afterwards: the subdirectories whose packages are in the package list. -/
def add : List String := filterExisting run.dir run.opts.add

/-- `opts.delete` afterwards. -/
def delete : List String := filterExisting run.dir run.opts.delete

/-- `createrepo_run_needed`: the value that is returned; otherwise the command is skipped. -/
def needed : Bool :=
  run.opts.full || !run.delete.isEmpty || !run.opts.rpmsToRemove.isEmpty || !run.add.isEmpty

/-- `createrepo_cmd`. -/
def cmd : List CreaterepoArg :=
  let directory := run.opts.args.directory
  [.directory directory, databaseOption run.opts.args.chroot, .common] ++
    (if occursIn "epel-5" directory || occursIn "rhel-5" directory then [.md5] else []) ++
    (if run.dir.comps then [.groupfile (directory ++ "/comps.xml")] else []) ++
    (if run.dir.repomd then
      [.update] ++ (if run.opts.args.doStat then [] else [.skipStat]) ++
        (if run.opts.full then [] else [.recyclePkglist])
    else []) ++
    run.delete.map (fun subdir => .excludes (excludedSubdir subdir)) ++
    run.opts.rpmsToRemove.map .excludes ++
    (if run.add.isEmpty then [] else [.pkglist (directory ++ "/.copr-createrepo-pkglist")]) ++
    (if run.opts.args.devel then
      [.devel (directory ++ "/devel") run.opts.args.baseurl]
    else [])

/-- The command looks for packages in the whole directory. -/
def isFull : Prop := .recyclePkglist ∉ run.cmd ∧ ∀ path, .pkglist path ∉ run.cmd

/-- The package list of the command has the packages of a subdirectory. -/
def lists (subdir : String) : Prop :=
  subdir ∈ run.add ∧ .pkglist (run.opts.args.directory ++ "/.copr-createrepo-pkglist") ∈ run.cmd

variable {run}

/-- A call with `opts.full` and nothing to add is a full run. -/
theorem isFull_of_full (full : run.opts.full = true) (add : run.opts.add = []) : run.isFull := by
  simp [isFull, cmd, full, CreaterepoRun.add, add, filterExisting, databaseOption]

/-- Every existing subdirectory in `opts.add` is listed. -/
theorem lists_of_mem {subdir : String} (member : subdir ∈ run.opts.add)
    (present : run.dir.present subdir = true) : run.lists subdir := by
  have listed : subdir ∈ run.add := List.mem_filter.mpr ⟨member, present⟩
  have nonempty : run.add.isEmpty = false := by
    simpa using List.ne_nil_of_mem listed
  exact ⟨listed, by simp [cmd, nonempty]⟩

/-- Every existing subdirectory in `opts.delete` is excluded. -/
theorem excludes_of_mem {subdir : String} (member : subdir ∈ run.opts.delete)
    (present : run.dir.present subdir = true) :
    .excludes (excludedSubdir subdir) ∈ run.cmd := by
  have deleted : subdir ∈ run.delete := List.mem_filter.mpr ⟨member, present⟩
  simp only [cmd, List.mem_append, List.mem_map]
  exact Or.inl (Or.inl (Or.inl (Or.inr ⟨subdir, deleted, rfl⟩)))

/-- Every package in `opts.rpms_to_remove` is excluded. -/
theorem excludes_of_mem_rpms {rpm : String} (member : rpm ∈ run.opts.rpmsToRemove) :
    .excludes rpm ∈ run.cmd := by
  simp only [cmd, List.mem_append, List.mem_map]
  exact Or.inl (Or.inl (Or.inr ⟨rpm, member, rfl⟩))

/-- The command relies on cached file data when there are metadata and this process was not
started with `--do-stat`. -/
theorem skipStat_iff :
    .skipStat ∈ run.cmd ↔ run.dir.repomd = true ∧ run.opts.args.doStat = false := by
  cases stat : run.opts.args.doStat <;> cases repomd : run.dir.repomd <;>
    simp [cmd, stat, repomd, databaseOption]

end CreaterepoRun

/-! ## Which requests a run serves -/

/-- The options that are merged cover a task. -/
structure BatchOptions.Covers (o : BatchOptions) (task : RedisTask) : Prop where
  /-- A full run. -/
  full : task.full = true → o.full = true
  /-- Additions, unless the run is full. -/
  add : o.full = false → ∀ subdir ∈ task.add, subdir ∈ o.add
  /-- Removals of subdirectories. -/
  delete : ∀ subdir ∈ task.delete, subdir ∈ o.delete
  /-- Removals of packages. -/
  rpms : ∀ rpm ∈ task.rpmsToRemove, rpm ∈ o.rpmsToRemove

/-- Merged options cover the task that was merged into them. -/
theorem BatchOptions.merge_covers (o : BatchOptions) (task : RedisTask) :
    (o.merge task).Covers task := by
  constructor
  · intro full
    simp [merge, full]
  · intro partial_ subdir member
    simp only [merge, Bool.or_eq_false_iff] at partial_
    simp [merge, partial_, member]
  · intro subdir member
    simp [merge, member]
  · intro rpm member
    simp [merge, member]

/-- Merging another task keeps what is covered. -/
theorem BatchOptions.Covers.merge {o : BatchOptions} {task : RedisTask} (covers : o.Covers task)
    (other : RedisTask) : (o.merge other).Covers task := by
  constructor
  · intro full
    simp [BatchOptions.merge, covers.full full]
  · intro partial_ subdir member
    simp only [BatchOptions.merge, Bool.or_eq_false_iff] at partial_
    simp [BatchOptions.merge, partial_, covers.add partial_.2 subdir member]
  · intro subdir member
    simp [BatchOptions.merge, covers.delete subdir member]
  · intro rpm member
    simp [BatchOptions.merge, covers.rpms rpm member]

/-- A task asks for something that is there. -/
def RedisTask.hasEffect (task : RedisTask) (dir : RepoDirectory) : Bool :=
  task.full || task.add.any dir.present || task.delete.any dir.present ||
    !task.rpmsToRemove.isEmpty

/-- A call of `run_createrepo` serves a task: the effect of the task is part of the command, and
the command is not skipped if the task has any effect. What is both added and deleted counts as
deleted. -/
structure CreaterepoRun.Serves (run : CreaterepoRun) (task : RedisTask) : Prop where
  /-- A full run. -/
  full : task.full = true → run.opts.full = true
  /-- What a full run does. -/
  whole : run.opts.full = true → run.isFull
  /-- Additions, unless the run is full. -/
  add : run.opts.full = false → ∀ subdir ∈ task.add, run.dir.present subdir = true →
    subdir ∉ run.opts.delete → run.lists subdir
  /-- Removals of subdirectories. -/
  delete : ∀ subdir ∈ task.delete, run.dir.present subdir = true →
    .excludes (excludedSubdir subdir) ∈ run.cmd
  /-- Removals of packages. -/
  rpms : ∀ rpm ∈ task.rpmsToRemove, .excludes rpm ∈ run.cmd
  /-- The command is run. -/
  needed : task.hasEffect run.dir = true → run.needed = true

/-- The options that a command must be called with to serve a task. -/
structure CoprRepoOpts.Include (opts : CoprRepoOpts) (task : RedisTask) : Prop where
  /-- A full run. -/
  full : task.full = true → opts.full = true
  /-- Additions, unless the run is full or they are deleted. -/
  add : opts.full = false → ∀ subdir ∈ task.add, subdir ∉ opts.delete → subdir ∈ opts.add
  /-- Removals of subdirectories. -/
  delete : ∀ subdir ∈ task.delete, subdir ∈ opts.delete
  /-- Removals of packages. -/
  rpms : ∀ rpm ∈ task.rpmsToRemove, rpm ∈ opts.rpmsToRemove

/-- With nothing to add in a full run, the command serves what its options include. -/
theorem CreaterepoRun.serves_of_include {run : CreaterepoRun} {task : RedisTask}
    (whole : run.opts.full = true → run.opts.add = []) (included : run.opts.Include task) :
    run.Serves task where
  full := included.full
  whole full := isFull_of_full full (whole full)
  add partial_ subdir member present kept :=
    lists_of_mem (included.add partial_ subdir member kept) present
  delete subdir member present := excludes_of_mem (included.delete subdir member) present
  rpms rpm member := excludes_of_mem_rpms (included.rpms rpm member)
  needed effect := by
    have deletes : ∀ subdir ∈ run.opts.delete, run.dir.present subdir = true →
        run.needed = true := fun subdir member present => by
      have inside : subdir ∈ run.delete := List.mem_filter.mpr ⟨member, present⟩
      simp [CreaterepoRun.needed, List.ne_nil_of_mem inside]
    simp only [RedisTask.hasEffect, Bool.or_eq_true, List.any_eq_true, Bool.not_eq_true',
      List.isEmpty_eq_false_iff_exists_mem] at effect
    rcases effect with ((full | ⟨subdir, member, present⟩) | ⟨subdir, member, present⟩) |
      ⟨rpm, member⟩
    · simp [CreaterepoRun.needed, included.full full]
    · by_cases deleted : subdir ∈ run.opts.delete
      · exact deletes subdir deleted present
      · cases partial_ : run.opts.full with
        | true => simp [CreaterepoRun.needed, partial_]
        | false =>
          have listed := lists_of_mem (included.add partial_ subdir member deleted) present
          simp [CreaterepoRun.needed, List.ne_nil_of_mem listed.1]
    · exact deletes subdir (included.delete subdir member) present
    · simp [CreaterepoRun.needed, List.ne_nil_of_mem (included.rpms rpm member)]

/-- A full run has nothing to add. -/
theorem mergeOptions_add_of_full {own : CoprRepoArgs} {batch : BatchOptions}
    (full : (mergeOptions own batch).full = true) : (mergeOptions own batch).add = [] := by
  simp only [mergeOptions, Bool.or_eq_true] at full ⊢
  rcases full with mine | others
  · have none_ : own.add = [] := by
      simp only [CoprRepoArgs.full, Bool.and_eq_true, List.isEmpty_iff] at mine
      exact mine.1.1
    simp [mine, none_]
  · simp [others]

/-- The merged options include the own request. -/
theorem mergeOptions_own (own : CoprRepoArgs) (batch : BatchOptions) :
    (mergeOptions own batch).Include own.jsonRedisTask := by
  constructor
  · intro full
    have mine : own.full = true := full
    simp [mergeOptions, mine]
  · intro partial_ subdir member kept
    simp only [mergeOptions, Bool.or_eq_false_iff] at partial_ kept ⊢
    have mine : subdir ∈ own.add := member
    simpa [partial_, mine] using Or.inl (by simpa using kept)
  · intro subdir member
    exact List.mem_append_left _ member
  · intro rpm member
    exact List.mem_append_left _ member

/-- The merged options include every covered task. -/
theorem BatchOptions.Covers.include {batch : BatchOptions} {task : RedisTask}
    (covers : batch.Covers task) (own : CoprRepoArgs) :
    (mergeOptions own batch).Include task := by
  constructor
  · intro full
    simp [mergeOptions, covers.full full]
  · intro partial_ subdir member kept
    simp only [mergeOptions, Bool.or_eq_false_iff] at partial_ kept ⊢
    simpa [partial_, covers.add partial_.2 subdir member] using Or.inr (by simpa using kept)
  · intro subdir member
    exact List.mem_append_right _ (covers.delete subdir member)
  · intro rpm member
    exact List.mem_append_right _ (covers.rpms rpm member)

end Copr
