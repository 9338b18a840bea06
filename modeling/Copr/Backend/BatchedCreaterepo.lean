import Copr.Backend.Createrepo

/-!
# Batched runs of createrepo

`main_locked` on the requests that stand in Redis, and any number of `copr-repo --batched`
processes on one directory. The keys of the hashes differ in the PID only, so a PID stands for
its key.
-/

namespace Copr

open Runs Batching

/-- How `BatchedCreaterepo` records and merges requests. -/
def createrepoScheme :
    Scheme CoprRepoArgs RedisTask BatchOptions CreaterepoRun RepoDirectory where
  record := CoprRepoArgs.jsonRedisTask
  start _ := {}
  join own merged o task := joinTask own merged o task
  work own o dir := ⟨mergeOptions own o, dir⟩

/-! ## One run -/

/-- A request in Redis: who made it and whether it has a status. -/
structure PendingRequest where
  /-- The command line of the process. -/
  made : CoprRepoArgs
  /-- `status` is set. -/
  success : Bool := false
  deriving DecidableEq, Repr

/-- Its hash. -/
def PendingRequest.entry (p : PendingRequest) : Entry RedisTask where
  task := some p.made.jsonRedisTask
  success := p.success

/-- The requests for a directory, by PID. -/
abbrev PendingRequests := AList fun _ : Nat => PendingRequest

/-- `BatchedCreaterepo.options`, with `notify_keys`. -/
def batchOptions (own : CoprRepoArgs) (pid : Nat) (redis : PendingRequests) :
    Option (BatchOptions × List Nat) :=
  collect createrepoScheme own pid {} [] (redis.entries.map fun e => (e.1, some e.2.entry))

/-- `main_locked` up to `run_createrepo`, with the keys that `commit` marks; `none` when another
process has processed the task. -/
def mainLocked (own : CoprRepoArgs) (pid : Nat) (redis : PendingRequests) (dir : RepoDirectory) :
    Option (CreaterepoRun × List Nat) :=
  if ((redis.lookup pid).map PendingRequest.success).getD false then none
  else
    -- `check_processed` has dropped the own key.
    (batchOptions own pid (redis.erase pid)).map fun (batch, notify) =>
      (⟨mergeOptions own batch, dir⟩, notify)

/-- The requests that `commit` marks. -/
def committed (redis : PendingRequests) (notify : List Nat) : List CoprRepoArgs :=
  notify.filterMap fun key => (redis.lookup key).map PendingRequest.made

/-- The request has no status and agrees with the own one in `devel` and `appstream`. -/
def PendingRequest.fits (own : CoprRepoArgs) (p : PendingRequest) : Bool :=
  !p.success && p.made.devel == own.devel && p.made.appstream == own.appstream

/-- The requests that fit, as many as a batch can hold besides the own one. -/
def candidates (own : CoprRepoArgs) (pid : Nat) (redis : PendingRequests) :
    List (Sigma fun _ : Nat => PendingRequest) :=
  ((redis.erase pid).entries.filter fun e => e.2.fits own).take (maxInBatch - 1)

/-- All merged requests are served by one run: a full run if any of them is full, else their
additions are listed unless they are also deleted; their removals are excluded; changed files
are read again for `--do-stat`. -/
structure CreaterepoRun.ServesAll (run : CreaterepoRun) (merged : List CoprRepoArgs) : Prop where
  /-- A full run. -/
  full : (∃ r ∈ merged, r.full = true) → run.isFull
  /-- Additions. -/
  add : (∀ r ∈ merged, r.full = false) → ∀ r ∈ merged, ∀ subdir ∈ r.add,
    run.dir.present subdir = true → (∀ other ∈ merged, subdir ∉ other.delete) → run.lists subdir
  /-- Removals of subdirectories. -/
  delete : ∀ r ∈ merged, ∀ subdir ∈ r.delete, run.dir.present subdir = true →
    .excludes (excludedSubdir subdir) ∈ run.cmd
  /-- Removals of packages. -/
  rpms : ∀ r ∈ merged, ∀ rpm ∈ r.rpmsToRemove, .excludes rpm ∈ run.cmd
  /-- `--do-stat`. -/
  doStat : ∀ r ∈ merged, r.doStat = true → .skipStat ∉ run.cmd
  /-- The command is run if any of them has an effect. -/
  needed : ∀ r ∈ merged, r.jsonRedisTask.hasEffect run.dir = true → run.needed = true

/-- A request that fits is merged; the loop goes on while there is room. -/
theorem visit_fits {own : CoprRepoArgs} {p : PendingRequest} (fits : p.fits own = true)
    (o : BatchOptions) (notify : List Nat) (key : Nat) :
    visit createrepoScheme own o notify key (some p.entry) =
      some ⟨o.merge p.made.jsonRedisTask, notify ++ [key],
        decide (notify.length + 1 < maxInBatch - 1)⟩ := by
  simp only [PendingRequest.fits, Bool.and_eq_true, Bool.not_eq_true', beq_iff_eq] at fits
  obtain ⟨⟨free, devel⟩, appstream⟩ := fits
  simp only [visit, PendingRequest.entry, free, Bool.false_eq_true, ↓reduceIte, Option.map_some,
    createrepoScheme, joinTask, CoprRepoArgs.jsonRedisTask, devel, appstream, bne_self_eq_false,
    Bool.or_self]
  by_cases room : notify.length + 1 < maxInBatch - 1
  · simp [Nat.not_le.mpr room, room]
  · simp [Nat.not_lt.mp room, room]

/-- A request that does not fit is passed over. -/
theorem visit_unfit {own : CoprRepoArgs} {p : PendingRequest} (unfit : p.fits own = false)
    (o : BatchOptions) (notify : List Nat) (key : Nat) :
    visit createrepoScheme own o notify key (some p.entry) = some ⟨o, notify, true⟩ := by
  cases marked : p.success with
  | true => simp [visit, PendingRequest.entry, marked]
  | false =>
    have apart : ¬p.made.devel = own.devel ∨ ¬p.made.appstream = own.appstream := by
      simpa [PendingRequest.fits, marked, imp_iff_not_or] using unfit
    simp [visit, PendingRequest.entry, marked, createrepoScheme, joinTask,
      CoprRepoArgs.jsonRedisTask, apart]

/-- The loop of `options` merges the first fitting requests. -/
theorem collect_tasks (own : CoprRepoArgs) (pid : Nat)
    (entries : List (Sigma fun _ : Nat => PendingRequest)) (others : ∀ e ∈ entries, e.1 ≠ pid)
    (o : BatchOptions) (notify : List Nat) (room : notify.length < maxInBatch - 1) :
    collect createrepoScheme own pid o notify (entries.map fun e => (e.1, some e.2.entry)) =
      let chosen := (entries.filter fun e => e.2.fits own).take (maxInBatch - 1 - notify.length)
      some ((chosen.map fun e => e.2.made.jsonRedisTask).foldl BatchOptions.merge o,
        notify ++ chosen.map Sigma.fst) := by
  induction entries generalizing o notify with
  | nil => simp [collect]
  | cons e rest ih =>
    have apart : e.1 ≠ pid := others e (by simp)
    have further := fun o notify room =>
      ih (fun e member => others e (List.mem_cons_of_mem _ member)) o notify room
    simp only [List.map_cons, collect, if_neg apart]
    cases fits : e.2.fits own with
    | false =>
      simp only [visit_unfit fits, ↓reduceIte, List.filter_cons, fits, Bool.false_eq_true]
      exact further o notify room
    | true =>
      obtain ⟨n, left⟩ : ∃ n, maxInBatch - 1 - notify.length = n + 1 :=
        ⟨maxInBatch - 1 - notify.length - 1, by omega⟩
      simp only [visit_fits fits, decide_eq_true_eq, List.filter_cons, fits, ↓reduceIte, left,
        List.take_succ_cons, List.map_cons, List.foldl_cons]
      by_cases more : notify.length + 1 < maxInBatch - 1
      · have next := further (o.merge e.2.made.jsonRedisTask) (notify ++ [e.1])
          (by simpa using more)
        have same : maxInBatch - 1 - (notify ++ [e.1]).length = n := by
          simp only [List.length_append, List.length_singleton]
          omega
        rw [same] at next
        rw [if_pos more, next]
        simp
      · have last : n = 0 := by omega
        rw [if_neg more, last]
        simp

/-- `options` merges the records of the own request and of the pending ones into the options that
are returned, with the keys of those requests. -/
theorem batchOptions_eq (own : CoprRepoArgs) (pid : Nat) (redis : PendingRequests) :
    batchOptions own pid (redis.erase pid) =
      some (((candidates own pid redis).map fun e => e.2.made.jsonRedisTask).foldl
          BatchOptions.merge {},
        (candidates own pid redis).map Sigma.fst) := by
  have others : ∀ e ∈ (redis.erase pid).entries, e.1 ≠ pid := fun e member same => by
    have key : e.1 ∈ (redis.erase pid).keys := List.mem_map_of_mem member
    rw [← AList.mem_keys, AList.mem_erase] at key
    exact key.1 same
  have loop := collect_tasks own pid _ others {} [] (by decide)
  rw [batchOptions, loop]
  simp [candidates]

/-! ## What a merged run serves -/

/-- Everything among some tasks is covered after they are merged. -/
theorem foldl_merge_covers (tasks : List RedisTask) (o : BatchOptions) :
    (∀ task, o.Covers task → (tasks.foldl BatchOptions.merge o).Covers task) ∧
      ∀ task ∈ tasks, (tasks.foldl BatchOptions.merge o).Covers task := by
  induction tasks generalizing o with
  | nil => exact ⟨fun _ covers => covers, by simp⟩
  | cons head rest ih =>
    obtain ⟨kept, merged⟩ := ih (o.merge head)
    refine ⟨fun task covers => kept task (covers.merge head), fun task member => ?_⟩
    rcases List.mem_cons.mp member with rfl | later
    · exact kept task (o.merge_covers task)
    · exact merged task later

/-- Nothing else is deleted by the merged tasks. -/
theorem mem_foldl_merge_delete {tasks : List RedisTask} {o : BatchOptions} {subdir : String}
    (member : subdir ∈ (tasks.foldl BatchOptions.merge o).delete) :
    subdir ∈ o.delete ∨ ∃ task ∈ tasks, subdir ∈ task.delete := by
  induction tasks generalizing o with
  | nil => exact Or.inl member
  | cons head rest ih =>
    rcases ih member with first | ⟨task, inside, later⟩
    · rcases List.mem_union_iff.mp first with old | new
      · exact Or.inl old
      · exact Or.inr ⟨head, by simp, new⟩
    · exact Or.inr ⟨task, List.mem_cons_of_mem _ inside, later⟩

/-- Nothing else makes the run full. -/
theorem foldl_merge_full {tasks : List RedisTask} {o : BatchOptions}
    (whole : (tasks.foldl BatchOptions.merge o).full = true) :
    o.full = true ∨ ∃ task ∈ tasks, task.full = true := by
  induction tasks generalizing o with
  | nil => exact Or.inl whole
  | cons head rest ih =>
    rcases ih whole with first | ⟨task, inside, later⟩
    · simp only [BatchOptions.merge, Bool.or_eq_true] at first
      rcases first with new | old
      · exact Or.inr ⟨head, by simp, new⟩
      · exact Or.inl old
    · exact Or.inr ⟨task, List.mem_cons_of_mem _ inside, later⟩

/-- The call of `run_createrepo` for the own request merged with those of others. -/
def mergedRun (own : CoprRepoArgs) (others : List CoprRepoArgs) (dir : RepoDirectory) :
    CreaterepoRun where
  opts := mergeOptions own ((others.map CoprRepoArgs.jsonRedisTask).foldl BatchOptions.merge {})
  dir := dir

section MergedRun

variable {own : CoprRepoArgs} {others : List CoprRepoArgs} {dir : RepoDirectory}

/-- Every merged request is served. -/
theorem mergedRun_serves {r : CoprRepoArgs} (member : r ∈ own :: others) :
    (mergedRun own others dir).Serves r.jsonRedisTask := by
  refine CreaterepoRun.serves_of_include mergeOptions_add_of_full ?_
  rcases List.mem_cons.mp member with rfl | merged
  · exact mergeOptions_own r _
  · exact ((foldl_merge_covers _ _).2 _ (List.mem_map_of_mem merged)).include own

/-- A full run was requested by somebody. -/
theorem mergedRun_full (full : (mergedRun own others dir).opts.full = true) :
    ∃ r ∈ own :: others, r.full = true := by
  simp only [mergedRun, mergeOptions, Bool.or_eq_true] at full
  rcases full with mine | whole
  · exact ⟨own, by simp, mine⟩
  · rcases foldl_merge_full whole with empty | ⟨task, member, asks⟩
    · simp at empty
    · obtain ⟨r, inside, rfl⟩ := List.mem_map.mp member
      exact ⟨r, List.mem_cons_of_mem _ inside, asks⟩

/-- What is deleted was requested to be deleted by somebody. -/
theorem mergedRun_delete {subdir : String}
    (deleted : subdir ∈ (mergedRun own others dir).opts.delete) :
    ∃ r ∈ own :: others, subdir ∈ r.delete := by
  rcases List.mem_append.mp deleted with mine | merged
  · exact ⟨own, by simp, mine⟩
  · rcases mem_foldl_merge_delete merged with empty | ⟨task, member, asks⟩
    · simp at empty
    · obtain ⟨r, inside, rfl⟩ := List.mem_map.mp member
      exact ⟨r, List.mem_cons_of_mem _ inside, asks⟩

/-- All merged requests are served unless one of the others was made with `--do-stat` and the
command relies on cached file data. -/
theorem mergedRun_servesAll_iff : (mergedRun own others dir).ServesAll (own :: others) ↔
    (dir.repomd = true → own.doStat = false → ∀ r ∈ others, r.doStat = false) := by
  have skips : .skipStat ∈ (mergedRun own others dir).cmd ↔
      dir.repomd = true ∧ own.doStat = false := CreaterepoRun.skipStat_iff
  constructor
  · intro all repomd lazy r member
    by_contra stat
    exact all.doStat r (List.mem_cons_of_mem _ member) (by simpa using stat)
      (skips.mpr ⟨repomd, lazy⟩)
  · intro careful
    constructor
    · rintro ⟨r, member, whole⟩
      exact (mergedRun_serves member).whole ((mergedRun_serves member).full whole)
    · intro none_ r member subdir inside present kept
      refine (mergedRun_serves member).add ?_ subdir inside present fun deleted => ?_
      · by_contra full
        obtain ⟨other, asked, whole⟩ := mergedRun_full (Bool.not_eq_false _ ▸ full)
        simp [none_ other asked] at whole
      · obtain ⟨other, asked, deletes⟩ := mergedRun_delete deleted
        exact kept other asked deletes
    · exact fun r member => (mergedRun_serves member).delete
    · exact fun r member => (mergedRun_serves member).rpms
    · intro r member stat skipped
      obtain ⟨repomd, lazy⟩ := skips.mp skipped
      rcases List.mem_cons.mp member with rfl | merged
      · simp [lazy] at stat
      · simp [careful repomd lazy r merged] at stat
    · exact fun r member => (mergedRun_serves member).needed

end MergedRun

/-- The requests under the merged keys are the candidates. -/
theorem committed_candidates (own : CoprRepoArgs) (pid : Nat) (redis : PendingRequests) :
    committed redis ((candidates own pid redis).map Sigma.fst) =
      (candidates own pid redis).map fun e => e.2.made := by
  have found : ∀ e ∈ candidates own pid redis, redis.lookup e.1 = some e.2 := fun e member => by
    have listed : e ∈ (redis.erase pid).entries :=
      List.mem_of_mem_filter (List.mem_of_mem_take member)
    have key : e.1 ∈ (redis.erase pid).keys := List.mem_map_of_mem listed
    rw [← AList.mem_keys, AList.mem_erase] at key
    rw [← AList.lookup_erase_ne key.1]
    exact AList.mem_lookup_iff.mpr listed
  generalize candidates own pid redis = chosen at found
  induction chosen with
  | nil => rfl
  | cons e rest ih =>
    have rest_ := ih fun e member => found e (List.mem_cons_of_mem _ member)
    simp only [committed] at rest_
    simp [committed, found e (by simp), rest_]

/-- What `main_locked` runs, and what `commit` marks afterwards. -/
theorem mainLocked_spec {own : CoprRepoArgs} {pid : Nat} {redis : PendingRequests}
    {dir : RepoDirectory} {run : CreaterepoRun} {notify : List Nat}
    (locked : mainLocked own pid redis dir = some (run, notify)) :
    run = mergedRun own (committed redis notify) dir ∧
      committed redis notify = (candidates own pid redis).map fun e => e.2.made := by
  simp only [mainLocked, batchOptions_eq] at locked
  split at locked <;> [contradiction; skip]
  simp only [Option.map_some, Option.some.injEq, Prod.mk.injEq] at locked
  obtain ⟨rfl, rfl⟩ := locked
  refine ⟨?_, committed_candidates own pid redis⟩
  simp [committed_candidates, mergedRun, Function.comp_def]

/-- One run serves all the requests that are merged, and marked afterwards, exactly when it
reads changed files again or none of the requests that fit was made with `--do-stat`. -/
theorem merged_requests_served_iff (own : CoprRepoArgs) (pid : Nat) (redis : PendingRequests)
    (dir : RepoDirectory) (run : CreaterepoRun) (notify : List Nat)
    (locked : mainLocked own pid redis dir = some (run, notify)) :
    run.ServesAll (own :: committed redis notify) ↔
      (dir.repomd = true → own.doStat = false →
        ∀ e ∈ candidates own pid redis, e.2.made.doStat = false) := by
  obtain ⟨rfl, same⟩ := mainLocked_spec locked
  rw [mergedRun_servesAll_iff, same]
  simp only [List.forall_mem_map]

namespace Sample

/-- A chroot directory with metadata in which everything exists. -/
def repoDirectory : RepoDirectory where
  comps := false
  repomd := true
  present := fun _ => true

/-- A build adds its results. -/
def addBuild : CoprRepoArgs where
  directory := "/srv/results/user/project/fedora-rawhide-x86_64"
  add := ["00000001-hello"]
  chroot := "fedora-rawhide-x86_64"

/-- The packages were signed again. -/
def resigned : CoprRepoArgs where
  directory := "/srv/results/user/project/fedora-rawhide-x86_64"
  doStat := true
  chroot := "fedora-rawhide-x86_64"

/-- The results of another build are deleted. -/
def deleteBuild : CoprRepoArgs where
  directory := "/srv/results/user/project/fedora-rawhide-x86_64"
  delete := ["00000002-world"]
  chroot := "fedora-rawhide-x86_64"

/-- One other process waits. -/
def waiting (made : CoprRepoArgs) : PendingRequests := AList.singleton 7 { made := made }

end Sample

/-- An addition and a removal in one run. -/
theorem merged_requests_served_pair : ∃ run,
    mainLocked Sample.addBuild 8 (Sample.waiting Sample.deleteBuild) Sample.repoDirectory =
      some (run, [7]) ∧ run.ServesAll [Sample.addBuild, Sample.deleteBuild] :=
  ⟨_, rfl, (merged_requests_served_iff Sample.addBuild 8 (Sample.waiting Sample.deleteBuild)
    Sample.repoDirectory _ [7] rfl).mpr fun _ _ e chosen => by
      obtain rfl := List.mem_singleton.mp chosen
      rfl⟩

/-- A request that was made with `--do-stat` is merged into a run that skips the check of
changed files, and marked as done. -/
theorem do_stat_request_lost : ¬ ∀ (own : CoprRepoArgs) (pid : Nat) (redis : PendingRequests)
    (dir : RepoDirectory) (run : CreaterepoRun) (notify : List Nat),
    mainLocked own pid redis dir = some (run, notify) →
      run.ServesAll (own :: committed redis notify) := by
  intro claimed
  have all := claimed Sample.addBuild 8 (Sample.waiting Sample.resigned) Sample.repoDirectory _ [7]
    rfl
  exact all.doStat Sample.resigned (List.mem_cons_of_mem _ (List.mem_singleton_self _)) rfl
    (CreaterepoRun.skipStat_iff.mpr ⟨rfl, rfl⟩)

/-! ## Any number of processes -/

/-- Merging loses no request, and a run serves what was merged. -/
theorem createrepoScheme_lawful :
    createrepoScheme.Lawful BatchOptions.Covers CreaterepoRun.Serves := by
  have merged : ∀ own n o task o', (joinTask own n o task).plan? = some o' → o' = o.merge task := by
    intro own n o task o' joined
    simp only [joinTask] at joined
    split at joined
    · simp [Decision.plan?] at joined
    · split at joined <;> exact (Option.some.inj joined).symm
  constructor
  · intro own n o task o' joined
    exact merged own n o task o' joined ▸ o.merge_covers task
  · intro own n o task o' joined other covers
    exact merged own n o task o' joined ▸ covers.merge task
  · intro own o dir
    exact CreaterepoRun.serves_of_include mergeOptions_add_of_full (mergeOptions_own own o)
  · intro own o dir task covers
    exact CreaterepoRun.serves_of_include mergeOptions_add_of_full (covers.include own)

/-- The processes of one directory, their requests in Redis and the lock. A step of the machine
is one Redis command, `run_createrepo`, or the end of a process; `work` is a call of
`run_createrepo` that succeeded, and every other error of a process is `fail`. -/
abbrev CreaterepoWorld := Batching.World Nat CoprRepoArgs RedisTask BatchOptions CreaterepoRun

/-- The next thing that happens to them. -/
abbrev CreaterepoEvent := Batching.Event Nat CoprRepoArgs RepoDirectory

/-- In every run in which no process makes its request under a key that already has a status or
is in the `notify_keys` of the process that holds the lock, every process that ended with
success was served by a call of `run_createrepo` that succeeded after its request. -/
theorem successful_processes_served (w : CreaterepoWorld)
    (run : Run (step createrepoScheme) (fun w event => cleanName w event = true) .initial w) :
    ∀ r ∈ w.reports, ∃ run ∈ r.works, run.Serves r.request.jsonRedisTask :=
  reports_served createrepoScheme_lawful run

namespace Sample

/-- A process gets the lock and finds no mark on its own request. -/
def takesOver (pid : Nat) : List CreaterepoEvent :=
  [.act pid .lock, .act pid .check, .act pid .drop]

/-- A process runs createrepo for itself and the process that waits under PID 7. -/
def runsForBoth : List CreaterepoEvent :=
  takesOver 8 ++ [.act 8 (.list [7]), .act 8 .read, .act 8 (.work repoDirectory), .act 8 .mark,
    .act 8 .release, .act 8 .finish]

/-- Two processes; one of them does the work of both. -/
def twoProcesses : List CreaterepoEvent :=
  [.request 7 deleteBuild, .request 8 addBuild] ++ runsForBoth ++ takesOver 7 ++
    [.act 7 .release, .act 7 .finish]

/-- The process under PID 7 is killed while it waits for the lock; its PID is used again after
the work was done. -/
def pidReused : List CreaterepoEvent :=
  [.request 7 deleteBuild, .act 7 .fail, .request 8 addBuild] ++ runsForBoth ++
    [.request 7 resigned] ++ takesOver 7 ++ [.act 7 .release, .act 7 .finish]

end Sample

/-- Of two processes one runs createrepo for both, and the reports of both name a run that serves
them. -/
theorem successful_processes_served_pair : ∃ w : CreaterepoWorld,
    w.reports.map Report.request = [Sample.addBuild, Sample.deleteBuild] ∧
      ∀ r ∈ w.reports, ∃ run ∈ r.works, run.Serves r.request.jsonRedisTask := by
  obtain ⟨w, run, seen⟩ := exec_observe (step createrepoScheme) cleanName .initial
    Sample.twoProcesses (fun w => w.reports.map Report.request)
    [Sample.addBuild, Sample.deleteBuild] rfl
  exact ⟨w, seen, successful_processes_served w run⟩

/-- A process that gets the PID of one that was killed finds the status of the other's request
and ends with success without any run of createrepo. -/
theorem request_lost_by_pid_reuse : ¬ ∀ w : CreaterepoWorld,
    Run (step createrepoScheme) anyEvent .initial w →
      ∀ r ∈ w.reports, ∃ run ∈ r.works, run.Serves r.request.jsonRedisTask := by
  intro claimed
  obtain ⟨w, run, seen⟩ := exec_observe (step createrepoScheme) (fun _ _ => true) .initial
    Sample.pidReused (fun w => w.reports.map fun r => (r.request, r.works.length))
    [(Sample.addBuild, 1), (Sample.resigned, 0)] rfl
  have member : (Sample.resigned, 0) ∈ w.reports.map fun r => (r.request, r.works.length) := by
    simp [seen]
  obtain ⟨r, inside, same⟩ := List.mem_map.mp member
  obtain ⟨run, worked, -⟩ := claimed w (run_weaken (fun _ _ _ => trivial) run) r inside
  have none_ : r.works = [] := List.eq_nil_of_length_eq_zero (congrArg Prod.snd same)
  simp [none_] at worked

end Copr
