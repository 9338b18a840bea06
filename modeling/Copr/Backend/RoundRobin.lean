import Copr.Common.JobQueue
import Copr.Frontend.TaskIds
import Mathlib.Data.List.Perm.Basic
import Mathlib.Data.Prod.Lex

/-!
# The order of the build queue

`BuildQueueTask` of `copr_backend/rpm_builds.py` with all that its priority depends on, and
`_PriorityCounter` and `get_frontend_tasks` of `copr_backend/daemons/build_dispatcher.py`. The
counters stand in a dictionary of four levels.
-/

namespace Copr.RoundRobin

open Text

/-- A record of `/pending-jobs/`. -/
structure QueueRecord where
  /-- `task_id`. -/
  taskId : String
  /-- `project_owner`. -/
  projectOwner : String
  /-- `sandbox`. -/
  sandbox : Option String
  /-- `background`. -/
  background : Option Bool
  /-- `chroot`. -/
  chroot : Option String
  /-- `priority`, which the frontend does not set. -/
  priority : Option Int
  deriving DecidableEq, Repr

/-- `int(text)` raises no `ValueError`: digits with single underscores between them, a sign in
front and blanks around. The ids of tasks have only the digits of ASCII. -/
def readsAsInt (text : String) : Bool :=
  let front := text.toList.dropWhile Char.isWhitespace
  let body := (front.reverse.dropWhile Char.isWhitespace).reverse
  let digits :=
    match body with
    | '-' :: rest => rest
    | '+' :: rest => rest
    | _ => body
  (digits.splitOn '_').all fun part => !part.isEmpty && part.all Char.isDigit

/-- `get_chroot_arch`; `none` is the `IndexError`. -/
def getChrootArch (chroot : String) : Option String :=
  let parts := split chroot '-'
  if 3 ≤ parts.length then parts.getLast?.map String.ofList else none

/-- `BuildQueueTask`. -/
structure BuildQueueTask where
  /-- `_task`. -/
  task : QueueRecord
  /-- `source_build`. -/
  sourceBuild : Bool
  /-- `backend_priority`. -/
  backendPriority : Int
  deriving DecidableEq, Repr

/-- `PRIORITY_SECTION_SIZE`. -/
def prioritySectionSize : Nat := 1000000

namespace BuildQueueTask

/-- `__init__`. -/
def construct (task : QueueRecord) : BuildQueueTask := ⟨task, readsAsInt task.taskId, 0⟩

/-- `background`. -/
def background (t : BuildQueueTask) : Bool := t.task.background.getD false

/-- `frontend_priority`. -/
def frontendPriority (t : BuildQueueTask) : Int :=
  t.task.priority.getD 0 + (if t.background then 2 * prioritySectionSize else 0) +
    (if t.sourceBuild then 0 else prioritySectionSize)

/-- `requested_arch`; it may raise the `IndexError`. -/
def requestedArch (t : BuildQueueTask) : Option (Option String) :=
  match t.task.chroot with
  | none => some none
  | some chroot =>
    if chroot = "" then some none
    else (getChrootArch chroot).map fun arch =>
      if "86".toList.isSuffixOf arch.toList then some "x86_64" else some arch

instance : QueueTask BuildQueueTask where
  taskId t := t.task.taskId
  priority t := t.frontendPriority + t.backendPriority

end BuildQueueTask

/-! ## The counters -/

/-- The keys of a counter. -/
structure Group where
  /-- `background`. -/
  background : Bool
  /-- `owner`. -/
  owner : String
  /-- `requested_arch`, or `"srpm"`. -/
  arch : String
  /-- `sandbox`. -/
  sandbox : Option String
  deriving DecidableEq, Repr

/-- The counter of a task; `none` is the `IndexError`. -/
def BuildQueueTask.group (t : BuildQueueTask) : Option Group :=
  t.requestedArch.map fun requested =>
    { background := t.background
      owner := t.task.projectOwner
      -- `task.requested_arch or "srpm"`
      arch := if requested.getD "" = "" then "srpm" else requested.getD ""
      sandbox := t.task.sandbox }

/-- `_counter`. -/
abbrev PriorityCounter :=
  AList fun _ : Bool => AList fun _ : String => AList fun _ : String =>
    AList fun _ : Option String => Nat

namespace PriorityCounter

/-- The value of a counter, which is 0 where there is none. -/
def value (counter : PriorityCounter) (g : Group) : Nat :=
  let background := (counter.lookup g.background).getD ∅
  let owner := (background.lookup g.owner).getD ∅
  let arch := (owner.lookup g.arch).getD ∅
  (arch.lookup g.sandbox).getD 0

/-- The counter of a group is set, in subdictionaries that are created where there are none. -/
def set (counter : PriorityCounter) (g : Group) (n : Nat) : PriorityCounter :=
  let background := (counter.lookup g.background).getD ∅
  let owner := (background.lookup g.owner).getD ∅
  let arch := (owner.lookup g.arch).getD ∅
  counter.insert g.background
    (background.insert g.owner (owner.insert g.arch (arch.insert g.sandbox n)))

/-- `get_priority`. -/
def getPriority (counter : PriorityCounter) (t : BuildQueueTask) :
    Option (Nat × PriorityCounter) :=
  t.group.map fun g => (counter.value g + 1, counter.set g (counter.value g + 1))

end PriorityCounter

/-- The loop of `get_frontend_tasks`. -/
def assignPriorities (counter : PriorityCounter) :
    List QueueRecord → Option (List BuildQueueTask)
  | [] => some []
  | raw :: rest => do
    let task := BuildQueueTask.construct raw
    let (priority, counter) ← counter.getPriority task
    let tasks ← assignPriorities counter rest
    return { task with backendPriority := priority } :: tasks

/-- `get_frontend_tasks`; without an answer of the frontend there is nothing to do. -/
def getFrontendTasks (answer : Option (List QueueRecord)) : Option (List BuildQueueTask) :=
  match answer with
  | none => some []
  | some rawTasks => assignPriorities ∅ rawTasks

/-! ## Filling and emptying a queue -/

section Draining

variable {τ : Type} [QueueTask τ]

/-- The tasks are added to an empty queue. -/
def fill (tasks : List τ) : JobQueue τ :=
  tasks.foldl (fun q task => q.addTask task (QueueTask.priority task)) .empty

/-- Pop at most so many tasks, up to the `KeyError`. -/
def popUpTo : Nat → JobQueue τ → List τ × JobQueue τ
  | 0, q => ([], q)
  | n + 1, q =>
    match q.popTask with
    | (none, r) => ([], r)
    | (some task, r) => ((task :: (popUpTo n r).1), (popUpTo n r).2)

/-- Pop all tasks: there are not more than entries in the heap. -/
def popAll (q : JobQueue τ) : List τ × JobQueue τ := popUpTo q.prioQueue.length q

/-- Popping to the end gives all live tasks in the order of the heap, and the next attempt is a
`KeyError`. -/
theorem popUpTo_spec {q : JobQueue τ} (wf : q.WellFormed) {n : Nat} (enough : q.live.length ≤ n) :
    (popUpTo n q).1 = q.live ∧ ((popUpTo n q).2.popTask).1 = none := by
  induction n generalizing q with
  | zero =>
    have nothing : q.live = [] := List.length_eq_zero_iff.mp (Nat.le_zero.mp enough)
    refine ⟨nothing.symm, ?_⟩
    rcases popped : q.popTask with ⟨_ | task, r⟩
    · simp [popUpTo, popped]
    · obtain ⟨-, front, -⟩ := JobQueue.popTask_some wf popped
      rw [nothing] at front
      contradiction
  | succ n ih =>
    rcases popped : q.popTask with ⟨_ | task, r⟩
    · obtain ⟨kept, nothing, gone⟩ := JobQueue.popTask_none wf popped
      simp only [popUpTo, popped]
      refine ⟨nothing.symm, ?_⟩
      rcases again : r.popTask with ⟨_ | task, r'⟩
      · rfl
      · obtain ⟨-, front, -⟩ := JobQueue.popTask_some kept again
        rw [gone] at front
        contradiction
    · obtain ⟨kept, front, -⟩ := JobQueue.popTask_some wf popped
      rw [front, List.length_cons] at enough
      obtain ⟨rest, ended⟩ := ih kept (Nat.le_of_succ_le_succ enough)
      simp only [popUpTo, popped]
      exact ⟨by rw [rest, front], ended⟩

/-- The entry of a task that was added as the `i`-th one. -/
def entryOf (p : τ × Nat) : JobQueue.Entry τ := ⟨QueueTask.priority p.1, p.2, some p.1⟩

/-- A queue filled with different tasks has one entry for each. -/
theorem fill_spec {tasks : List τ} (distinct : (tasks.map taskId).Nodup) :
    (fill tasks).WellFormed ∧ (fill tasks).counter = tasks.length ∧
      (fill tasks).prioQueue.Perm (tasks.zipIdx.map entryOf) := by
  induction tasks using List.reverseRecOn with
  | nil => exact ⟨JobQueue.empty_wellFormed, rfl, .nil⟩
  | append_singleton tasks task ih =>
    rw [List.map_append, List.nodup_append] at distinct
    obtain ⟨wf, counter, entries⟩ := ih distinct.1
    have absent : (fill tasks).entryFinder.lookup (taskId task) = none := by
      cases named : (fill tasks).entryFinder.lookup (taskId task) with
      | none => rfl
      | some count =>
        obtain ⟨e, inside, -, other, live, same⟩ := wf.found _ _ named
        obtain ⟨p, listed, rfl⟩ := List.mem_map.mp (entries.subset inside)
        obtain rfl := Option.some.inj live
        have member : p.1 ∈ tasks := (List.mem_zipIdx' listed).2 ▸ List.getElem_mem _
        exact absurd same (distinct.2.2 _ (List.mem_map_of_mem member) _ (by simp))
    have added : fill (tasks ++ [task]) =
        (fill tasks).pushTask task (QueueTask.priority task) := by
      have missing : (fill tasks).removeTask task = none := Option.map_eq_none_iff.mpr absent
      simp only [fill, List.foldl_append, List.foldl_cons, List.foldl_nil]
      change (fill tasks).addTask task _ = _
      rw [JobQueue.addTask, missing, Option.getD_none]
      rfl
    rw [added]
    refine ⟨JobQueue.pushTask_wellFormed wf task _ absent, ?_, ?_⟩
    · simp [JobQueue.pushTask, counter]
    · refine (List.perm_orderedInsert _ _ _).trans ?_
      rw [List.zipIdx_append, List.map_append, counter]
      refine (entries.cons _).trans ?_
      simpa [entryOf] using (List.perm_append_singleton (entryOf (task, tasks.length))
        (tasks.zipIdx.map entryOf)).symm

omit [QueueTask τ] in
/-- A permutation of mapped elements is made of a permutation of these. -/
theorem exists_map_of_perm {α : Type} {f : α → τ} {l : List τ} {zs : List α}
    (perm : l.Perm (zs.map f)) : ∃ order : List α, order.Perm zs ∧ l = order.map f := by
  have related : List.Forall₂ (fun e z => e = f z) (zs.map f) zs := by
    rw [List.forall₂_map_left_iff]
    exact List.forall₂_same.mpr fun _ _ => rfl
  obtain ⟨order, listed, same⟩ := List.perm_comp_forall₂ perm related
  refine ⟨order, same, ?_⟩
  rw [← List.forall₂_eq_eq_eq, List.forall₂_map_right_iff]
  exact listed

/-- Different tasks are popped by priority, and those of one priority as they were added. -/
theorem popAll_fill {tasks : List τ} (distinct : (tasks.map taskId).Nodup) :
    ∃ order : List (τ × Nat), order.Perm tasks.zipIdx ∧
      (popAll (fill tasks)).1 = order.map Prod.fst ∧
      ((popAll (fill tasks)).2.popTask).1 = none ∧
      order.Pairwise fun p q => QueueTask.priority p.1 < QueueTask.priority q.1 ∨
        QueueTask.priority p.1 = QueueTask.priority q.1 ∧ p.2 < q.2 := by
  obtain ⟨wf, -, entries⟩ := fill_spec distinct
  obtain ⟨order, perm, heap⟩ := exists_map_of_perm entries
  have live : (fill tasks).live = order.map Prod.fst := by
    rw [JobQueue.live, heap, List.filterMap_map]
    exact List.filterMap_eq_map (f := Prod.fst) ▸ rfl
  have enough : (fill tasks).live.length ≤ (fill tasks).prioQueue.length :=
    List.length_filterMap_le _ _
  obtain ⟨popped, ended⟩ := popUpTo_spec wf enough
  refine ⟨order, perm, popped.trans live, ended, ?_⟩
  have ordered := wf.sorted
  have numbers := wf.distinct
  rw [heap, List.map_map, List.Nodup, List.pairwise_map] at numbers
  rw [heap, List.pairwise_map] at ordered
  refine (ordered.and numbers).imp ?_
  rintro p q ⟨less | ⟨same, older⟩, differ⟩
  · exact Or.inl less
  · exact Or.inr ⟨same, lt_of_le_of_ne older differ⟩

end Draining

/-! ## What the counters count -/

/-- What stands under a key after another value was inserted. -/
theorem getD_lookup_insert {κ υ : Type} [DecidableEq κ] {dict : AList fun _ : κ => υ} {k k' : κ}
    {v default : υ} : ((dict.insert k v).lookup k').getD default =
      if k' = k then v else (dict.lookup k').getD default := by
  by_cases same : k' = k
  · subst same
    rw [AList.lookup_insert, if_pos rfl, Option.getD_some]
  · rw [AList.lookup_insert_ne same, if_neg same]

/-- Setting the counter of one group leaves those of the others. -/
theorem value_set (counter : PriorityCounter) (g h : Group) (n : Nat) :
    (counter.set g n).value h = if h = g then n else counter.value h := by
  obtain ⟨background, owner, arch, sandbox⟩ := g
  obtain ⟨background', owner', arch', sandbox'⟩ := h
  simp only [PriorityCounter.value, PriorityCounter.set, getD_lookup_insert, Group.mk.injEq]
  by_cases sameBackground : background' = background
  · subst sameBackground
    by_cases sameOwner : owner' = owner
    · subst sameOwner
      by_cases sameArch : arch' = arch
      · subst sameArch
        simp [getD_lookup_insert]
      · simp [sameArch]
    · simp [sameOwner]
  · simp [sameBackground]

/-- The counter of a record. -/
def QueueRecord.group (job : QueueRecord) : Option Group :=
  (BuildQueueTask.construct job).group

/-- How many of the first records up to this one are in its group. -/
def position (jobs : List QueueRecord) (p : QueueRecord × Nat) : Nat :=
  (jobs.take (p.2 + 1)).countP fun job => decide (job.group = p.1.group)

/-- The task of a record. -/
def taskOf (jobs : List QueueRecord) (p : QueueRecord × Nat) : BuildQueueTask :=
  { BuildQueueTask.construct p.1 with backendPriority := position jobs p }

/-- The backend priority of a task is its position within its group. -/
theorem assignPriorities_spec {counter : PriorityCounter} {before jobs : List QueueRecord}
    (counts : ∀ g, counter.value g = before.countP fun job => decide (job.group = some g))
    (known : ∀ job ∈ jobs, job.group ≠ none) :
    assignPriorities counter jobs =
      some ((jobs.zipIdx before.length).map (taskOf (before ++ jobs))) := by
  induction jobs generalizing counter before with
  | nil => rfl
  | cons raw rest ih =>
    obtain ⟨g, grouped⟩ := Option.ne_none_iff_exists'.mp (known raw List.mem_cons_self)
    have constructed : (BuildQueueTask.construct raw).group = some g := grouped
    have first : position (before ++ raw :: rest) (raw, before.length) = counter.value g + 1 := by
      have taken : (before ++ raw :: rest).take (before.length + 1) = before ++ [raw] := by
        simp [List.take_append]
      simp [position, taken, List.countP_append, grouped, counts]
    have counted : ∀ h, (counter.set g (counter.value g + 1)).value h =
        (before ++ [raw]).countP fun job => decide (job.group = some h) := by
      intro h
      rw [value_set, List.countP_append, List.countP_singleton, ← counts]
      by_cases same : h = g
      · subst same
        simp [grouped]
      · simp [grouped, same, Ne.symm same]
    have others := ih counted fun job member => known job (List.mem_cons_of_mem _ member)
    rw [List.append_assoc, List.singleton_append, List.length_append, List.length_singleton]
      at others
    simp only [assignPriorities, PriorityCounter.getPriority, constructed, Option.map_some,
      Option.bind_eq_bind, Option.bind_some, others, List.zipIdx_cons, List.map_cons]
    rw [taskOf, first]
    rfl

/-! ## What the frontend sends -/

/-- What holds of every list of pending jobs: the ids are different, and a chroot has the name of
a mock chroot. -/
structure Pending (jobs : List QueueRecord) : Prop where
  /-- The ids are primary keys. -/
  distinct : (jobs.map QueueRecord.taskId).Nodup
  /-- A name ends with an architecture, behind the second dash or a later one. -/
  chroots : ∀ job ∈ jobs, ∀ chroot, job.chroot = some chroot → 2 ≤ chroot.toList.count '-'

/-- A name with two dashes has an architecture. -/
theorem getChrootArch_isSome {chroot : String} (dashes : 2 ≤ chroot.toList.count '-') :
    ∃ arch, getChrootArch chroot = some arch := by
  have pieces : (split chroot '-').length = chroot.toList.count '-' + 1 := length_splitOn _ _
  have several : 3 ≤ (split chroot '-').length := by omega
  have some_piece : split chroot '-' ≠ [] := List.ne_nil_of_length_pos (by omega)
  rw [getChrootArch, if_pos several, List.getLast?_eq_some_getLast some_piece]
  exact ⟨_, rfl⟩

/-- A record that the frontend sends has a counter. -/
theorem Pending.group_ne_none {jobs : List QueueRecord} (pending : Pending jobs) :
    ∀ job ∈ jobs, job.group ≠ none := by
  intro job member
  have requested : (BuildQueueTask.construct job).requestedArch ≠ none := by
    unfold BuildQueueTask.requestedArch BuildQueueTask.construct
    cases named : job.chroot with
    | none => simp
    | some chroot =>
      obtain ⟨arch, known⟩ := getChrootArch_isSome (pending.chroots job member chroot named)
      by_cases blank : chroot = "" <;> simp [blank, known]
  simpa [QueueRecord.group, BuildQueueTask.group] using requested

/-- What the records of a build are made of, next to the columns of the model. -/
structure Origin where
  /-- `copr.owner_name`. -/
  owner : String
  /-- `sandbox`. -/
  sandbox : String
  /-- The `chroot` of `source_json`, for the custom method. -/
  sourceChroot : Option MockChroot

/-- `get_srpm_build_record` for the backend. -/
def getSrpmBuildRecord (origin : Build → Origin) (b : Build) : QueueRecord where
  taskId := b.taskId
  projectOwner := (origin b).owner
  sandbox := some (origin b).sandbox
  background := some b.isBackground
  chroot := (origin b).sourceChroot.map MockChroot.name
  priority := none

/-- `get_build_record` for the backend. -/
def getBuildRecord (origin : Build → Origin) (task : Build × BuildChroot) : QueueRecord where
  taskId := task.1.chrootTaskId task.2
  projectOwner := (origin task.1).owner
  sandbox := some (origin task.1).sandbox
  background := some task.1.isBackground
  chroot := some task.2.name
  priority := none

/-- `pending_jobs`. -/
def pendingJobs (db : Database) (cached : Nat → Bool) (origin : Build → Origin) :
    List QueueRecord :=
  ((BuildsLogic.getPendingSrpmBuildTasks db).filter fun b => !db.blocked cached b).map
    (getSrpmBuildRecord origin) ++
  ((BuildsLogic.getPendingBuildTasks db).filter fun task => !db.blocked cached task.1).map
    (getBuildRecord origin)

/-- The name of a mock chroot has two dashes. -/
theorem two_dashes (m : MockChroot) : 2 ≤ m.name.toList.count '-' := by
  have dash : "-".toList = ['-'] := rfl
  simp only [MockChroot.name, String.toList_append, List.count_append, dash,
    List.count_singleton_self]
  omega

/-- The ids of all source builds are different. -/
theorem sourceIds_nodup {db : Database} (ids : db.IdsKnown) :
    (db.builds.map Build.taskId).Nodup := by
  have same : db.builds.map Build.taskId = (db.builds.map Build.id).map toString := by
    rw [List.map_map]
    rfl
  rw [same]
  exact ids.distinct.map fun _ _ equal => toString_nat_inj equal

/-- The ids of all pending build chroots are different. -/
theorem chrootIds_nodup {db : Database} (ids : db.IdsKnown)
    (chroots : ∀ b ∈ db.builds, b.Distinct) :
    ((BuildsLogic.getPendingBuildTasks db).map fun task => task.1.chrootTaskId task.2).Nodup := by
  unfold BuildsLogic.getPendingBuildTasks
  rw [List.map_flatMap, List.nodup_flatMap]
  constructor
  · intro b member
    rw [List.map_map]
    have names : (b.buildChroots.map BuildChroot.name).Nodup :=
      chroots b (List.mem_of_mem_filter member)
    have kept := (List.pairwise_map.mp names).sublist
      (List.filter_sublist (p := fun c : BuildChroot => decide c.status.Todo))
    refine List.pairwise_map.mpr (kept.imp ?_)
    intro c d differ same
    exact differ (chrootTaskId_inj same).2
  · have builds := (List.pairwise_map.mp ids.distinct).sublist
      (List.filter_sublist (p := fun b : Build => !b.canceled))
    refine builds.imp ?_
    intro a b differ id first second
    obtain ⟨p, listed, rfl⟩ := List.mem_map.mp first
    obtain ⟨q, listed', same⟩ := List.mem_map.mp second
    obtain ⟨c, -, rfl⟩ := List.mem_map.mp listed
    obtain ⟨d, -, rfl⟩ := List.mem_map.mp listed'
    exact differ (chrootTaskId_inj same).1.symm

/-- What the frontend sends, in a database whose builds have different ids and different
chroots. -/
theorem pendingJobs_pending {db : Database} (ids : db.IdsKnown)
    (chroots : ∀ b ∈ db.builds, b.Distinct) (cached : Nat → Bool) (origin : Build → Origin) :
    Pending (pendingJobs db cached origin) := by
  constructor
  · rw [pendingJobs, List.map_append, List.map_map, List.map_map, List.nodup_append]
    refine ⟨?_, ?_, ?_⟩
    · refine (sourceIds_nodup ids).sublist (List.Sublist.map _ ?_)
      exact List.filter_sublist.trans List.filter_sublist
    · exact (chrootIds_nodup ids chroots).sublist (List.filter_sublist.map _)
    · rintro _ first _ second rfl
      obtain ⟨a, -, named⟩ := List.mem_map.mp first
      obtain ⟨task, -, same⟩ := List.mem_map.mp second
      exact toString_ne_chrootTaskId a.id task.1 task.2 (named.trans same.symm)
  · intro job member chroot named
    rcases List.mem_append.mp member with member | member
    · obtain ⟨b, -, rfl⟩ := List.mem_map.mp member
      obtain ⟨m, -, rfl⟩ := Option.map_eq_some_iff.mp named
      exact two_dashes m
    · obtain ⟨task, -, rfl⟩ := List.mem_map.mp member
      obtain rfl := Option.some.inj named
      exact two_dashes task.2.mockChroot

/-- Nothing is stripped before a digit. -/
theorem dropWhile_digit {c : Char} {rest : List Char} (digit : c.isDigit = true) :
    (c :: rest).dropWhile Char.isWhitespace = c :: rest := by
  refine List.dropWhile_cons_of_neg ?_
  intro blank
  simp only [Char.isWhitespace, Bool.or_eq_true, decide_eq_true_eq] at blank
  rcases blank with ((rfl | rfl) | rfl) | rfl <;> revert digit <;> decide

/-- What stands behind a sign, when a digit stands in front. -/
theorem no_sign {c : Char} {rest : List Char} (digit : c.isDigit = true) :
    (match c :: rest with
      | '-' :: rest => rest
      | '+' :: rest => rest
      | _ => c :: rest) = c :: rest := by
  split
  · rename_i same
    obtain ⟨rfl, -⟩ := List.cons.inj same
    exact absurd digit (by decide)
  · rename_i same
    obtain ⟨rfl, -⟩ := List.cons.inj same
    exact absurd digit (by decide)
  · rfl

/-- The digits of a build id, of which there is at least one. -/
theorem id_digits (n : Nat) : ∃ c rest, (toString n).toList = c :: rest ∧
    ∀ d ∈ c :: rest, d.isDigit = true := by
  have shown : (toString n).toList = Nat.toDigits 10 n := by simp
  obtain ⟨c, rest, digits⟩ := List.exists_cons_of_ne_nil (shown ▸ Nat.toDigits_ne_nil)
  exact ⟨c, rest, digits, fun d member => digit_of_mem_id (digits ▸ member)⟩

/-- The task of a source build is one. -/
theorem readsAsInt_taskId (b : Build) : readsAsInt b.taskId = true := by
  obtain ⟨c, rest, shown, digits⟩ := id_digits b.id
  have first := digits c List.mem_cons_self
  have text : b.taskId.toList = c :: rest := shown
  have stripped : ((c :: rest).reverse.dropWhile Char.isWhitespace).reverse = c :: rest := by
    obtain ⟨d, more, backwards⟩ := List.exists_cons_of_ne_nil
      (List.reverse_ne_nil_iff.mpr (List.cons_ne_nil c rest))
    have last : d ∈ c :: rest := by
      rw [← List.mem_reverse, backwards]
      exact List.mem_cons_self
    rw [backwards, dropWhile_digit (digits d last), ← backwards, List.reverse_reverse]
  have one_piece : (c :: rest).splitOn '_' = [c :: rest] :=
    List.splitOn_eq_singleton fun member => absurd (digits '_' member) (by decide)
  simp only [readsAsInt, text, dropWhile_digit first, stripped, no_sign first, one_piece,
    List.all_cons, List.all_nil, Bool.and_true]
  simpa using digits

/-- The task of a build chroot is no source build. -/
theorem readsAsInt_chrootTaskId (b : Build) (chroot : BuildChroot) :
    readsAsInt (b.chrootTaskId chroot) = false := by
  obtain ⟨c, rest, shown, digits⟩ := id_digits b.id
  have first := digits c List.mem_cons_self
  have text : (b.chrootTaskId chroot).toList = c :: (rest ++ '-' :: chroot.name.toList) := by
    have dash : "-".toList = ['-'] := rfl
    rw [Build.chrootTaskId, String.toList_append, String.toList_append, shown, dash]
    simp
  -- Only the end of the name can be stripped.
  obtain ⟨kept, stripped⟩ : ∃ kept,
      ((c :: (rest ++ '-' :: chroot.name.toList)).reverse.dropWhile Char.isWhitespace).reverse =
        c :: (rest ++ '-' :: kept) := by
    have backwards : (c :: (rest ++ '-' :: chroot.name.toList)).reverse =
        chroot.name.toList.reverse ++ '-' :: (c :: rest).reverse := by simp
    have dash : ('-' :: (c :: rest).reverse).dropWhile Char.isWhitespace =
        '-' :: (c :: rest).reverse := List.dropWhile_cons_of_neg (by decide)
    rw [backwards, List.dropWhile_append, dash]
    split
    · exact ⟨[], by simp⟩
    · exact ⟨(chroot.name.toList.reverse.dropWhile Char.isWhitespace).reverse, by simp⟩
  simp only [readsAsInt, text, dropWhile_digit first, stripped, no_sign first]
  have dash : '-' ∈ c :: (rest ++ '-' :: kept) := by simp
  rcases mem_piece '_' dash with same | ⟨piece, listed, inside⟩
  · exact absurd same (by decide)
  · rw [List.all_eq_false]
    refine ⟨piece, listed, ?_⟩
    intro all
    have digit := List.all_eq_true.mp (Bool.and_eq_true _ _ ▸ all).2 _ inside
    exact absurd digit (by decide)

/-! ## The order -/

/-- Where a record stands: background builds come after the others, then RPMs after sources, then
the position within the group counts, then the position in the list. -/
def place (jobs : List QueueRecord) (p : QueueRecord × Nat) : Bool ×ₗ Bool ×ₗ Nat ×ₗ Nat :=
  toLex ((BuildQueueTask.construct p.1).background,
    toLex (!(BuildQueueTask.construct p.1).sourceBuild, toLex (position jobs p, p.2)))

/-- The records of one section: the same background flag, and both sources or both RPMs. -/
def SameSection (p q : QueueRecord × Nat) : Prop :=
  (BuildQueueTask.construct p.1).background = (BuildQueueTask.construct q.1).background ∧
    (BuildQueueTask.construct p.1).sourceBuild = (BuildQueueTask.construct q.1).sourceBuild

/-- A group is not larger than the number of its records. -/
theorem position_le (jobs : List QueueRecord) (p : QueueRecord × Nat) :
    position jobs p ≤ jobs.countP fun job => decide (job.group = p.1.group) :=
  (List.take_sublist _ _).countP_le

/-- The parts of a priority do not overflow into each other. -/
theorem place_lt {jobs : List QueueRecord} {p q : QueueRecord × Nat}
    (ownP : p.1.priority = none) (ownQ : q.1.priority = none)
    (smallP : position jobs p < prioritySectionSize)
    (smallQ : position jobs q < prioritySectionSize)
    (sooner : QueueTask.priority (taskOf jobs p) < QueueTask.priority (taskOf jobs q) ∨
      QueueTask.priority (taskOf jobs p) = QueueTask.priority (taskOf jobs q) ∧ p.2 < q.2) :
    place jobs p < place jobs q := by
  have priority : ∀ r : QueueRecord × Nat, r.1.priority = none →
      QueueTask.priority (taskOf jobs r) =
        (if (BuildQueueTask.construct r.1).background then 2 * (prioritySectionSize : Int)
          else 0) +
        (if (BuildQueueTask.construct r.1).sourceBuild then 0 else (prioritySectionSize : Int)) +
        position jobs r := by
    intro r own
    have added : QueueTask.priority (taskOf jobs r) =
        (BuildQueueTask.construct r.1).frontendPriority + position jobs r := rfl
    have absent : (BuildQueueTask.construct r.1).task.priority = none := own
    rw [added, BuildQueueTask.frontendPriority, absent, Option.getD_none, Int.zero_add]
    split <;> split <;> rfl
  rw [priority p ownP, priority q ownQ] at sooner
  simp only [place, Prod.Lex.toLex_lt_toLex]
  unfold prioritySectionSize at smallP smallQ sooner
  generalize position jobs p = n at *
  generalize position jobs q = m at *
  generalize (BuildQueueTask.construct p.1).background = background at *
  generalize (BuildQueueTask.construct q.1).background = background' at *
  generalize (BuildQueueTask.construct p.1).sourceBuild = source at *
  generalize (BuildQueueTask.construct q.1).sourceBuild = source' at *
  clear priority
  cases background <;> cases background' <;> cases source <;> cases source' <;>
    simp at sooner ⊢ <;> omega

/-- In an ordered list a smaller element stands before a larger one. -/
theorem sublist_of_lt {α β : Type} [Preorder β] {key : α → β} {l : List α}
    (ordered : l.Pairwise fun a b => key a < key b) {a b : α} (first : a ∈ l) (second : b ∈ l)
    (less : key a < key b) : [a, b].Sublist l := by
  induction l with
  | nil => contradiction
  | cons c rest ih =>
    obtain ⟨least, others⟩ := List.pairwise_cons.mp ordered
    rcases List.mem_cons.mp first with rfl | later
    · rcases List.mem_cons.mp second with rfl | second
      · exact absurd less (lt_irrefl _)
      · exact (List.singleton_sublist.mpr second).cons_cons a
    · rcases List.mem_cons.mp second with rfl | second
      · exact absurd (less.trans (least a later)) (lt_irrefl _)
      · exact (ih others later second).cons c

/-- The pending tasks are popped from the queue once each, in the order of their places. Inside a
section the `n`-th task of a group never waits for the next one of another group. -/
theorem queue_order {jobs : List QueueRecord} (pending : Pending jobs)
    (small : ∀ g, jobs.countP (fun job => decide (job.group = some g)) < prioritySectionSize)
    (own : ∀ job ∈ jobs, job.priority = none) :
    ∃ tasks, getFrontendTasks (some jobs) = some tasks ∧
      ∃ order : List (QueueRecord × Nat), order.Perm jobs.zipIdx ∧
        (popAll (fill tasks)).1.map BuildQueueTask.task = order.map Prod.fst ∧
        (popAll (fill tasks)).2.popTask.1 = none ∧
        (order.Pairwise fun p q => place jobs p < place jobs q) ∧
        ∀ p ∈ jobs.zipIdx, ∀ q ∈ jobs.zipIdx, SameSection p q →
          position jobs p < position jobs q → [p, q].Sublist order := by
  have assigned := @assignPriorities_spec ∅ [] jobs (fun g => rfl) pending.group_ne_none
  refine ⟨_, assigned, ?_⟩
  simp only [List.length_nil, List.nil_append]
  have ids : ((jobs.zipIdx.map (taskOf jobs)).map taskId).Nodup := by
    have same : (jobs.zipIdx.map (taskOf jobs)).map taskId = jobs.map QueueRecord.taskId := by
      rw [List.map_map]
      exact (List.map_map (f := Prod.fst) (g := QueueRecord.taskId)).symm.trans
        (congrArg (List.map QueueRecord.taskId) (List.zipIdx_map_fst 0 jobs))
    exact same ▸ pending.distinct
  obtain ⟨popped, perm, drained, ended, ordered⟩ := popAll_fill ids
  have numbered : (jobs.zipIdx.map (taskOf jobs)).zipIdx =
      jobs.zipIdx.map fun p => (taskOf jobs p, p.2) := by
    apply List.ext_getElem
    · simp
    · intro i inside inside'
      simp
  rw [numbered] at perm
  obtain ⟨order, same, rfl⟩ := exists_map_of_perm perm
  have member : ∀ p ∈ order, p.1 ∈ jobs := fun p listed =>
    (List.mem_zipIdx' (same.subset listed)).2 ▸ List.getElem_mem _
  have bounded : ∀ p ∈ order, position jobs p < prioritySectionSize := by
    intro p listed
    obtain ⟨g, grouped⟩ := Option.ne_none_iff_exists'.mp
      (pending.group_ne_none p.1 (member p listed))
    exact lt_of_le_of_lt (position_le jobs p) (grouped ▸ small g)
  have places : order.Pairwise fun p q => place jobs p < place jobs q := by
    refine (List.pairwise_map.mp ordered).imp_of_mem ?_
    intro p q listedP listedQ sooner
    exact place_lt (own p.1 (member p listedP)) (own q.1 (member q listedQ)) (bounded p listedP)
      (bounded q listedQ) sooner
  refine ⟨order, same, ?_, ended, places, ?_⟩
  · rw [drained, List.map_map, List.map_map]
    rfl
  · intro p listedP q listedQ ⟨background, source⟩ earlier
    refine sublist_of_lt places (same.symm.subset listedP) (same.symm.subset listedQ) ?_
    simp only [place, Prod.Lex.toLex_lt_toLex, background, source, lt_irrefl, true_and, false_or]
    exact Or.inl earlier

/-- Two builds of one sandbox, and then one of another. -/
def sampleJobs : List QueueRecord :=
  [⟨"7", "jdoe", some "jdoe/foo--jdoe", some false, none, none⟩,
    ⟨"8", "jdoe", some "jdoe/foo--jdoe", some false, none, none⟩,
    ⟨"9", "jdoe", some "jdoe/baz--jdoe", some false, none, none⟩]

/-- All three jobs of the sample are fetched and come out of the queue. -/
theorem sampleJobs_order : ∃ tasks, getFrontendTasks (some sampleJobs) = some tasks ∧
    (popAll (fill tasks)).1.length = 3 := by
  obtain ⟨tasks, fetched, order, perm, popped, -⟩ := @queue_order sampleJobs
    ⟨by decide, by simp [sampleJobs]⟩
    (fun g => lt_of_le_of_lt List.countP_le_length (by decide)) (by decide)
  refine ⟨tasks, fetched, ?_⟩
  have length := congrArg List.length popped
  rw [List.length_map, List.length_map, perm.length_eq] at length
  exact length

/-- The second build of a sandbox waits for the first one of the other. -/
example : ((getFrontendTasks (some sampleJobs)).map fun tasks =>
    (popAll (fill tasks)).1.map taskId) = some ["7", "9", "8"] := by
  decide

end Copr.RoundRobin
