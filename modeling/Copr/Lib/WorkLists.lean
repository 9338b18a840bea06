import Mathlib.Data.List.Nodup
import Mathlib.Data.List.Perm.Subperm
import Mathlib.Logic.Relation

/-!
# Work lists

A list of tasks that grows while it is worked off. A task that was scheduled once is never
scheduled again, so every task is processed once, and a loop over the list visits what is reachable
from the first tasks. The loop is given by its rounds: it has ended when the list is empty. If
there are finitely many tasks it ends, and its result is that of the body over all reachable
tasks, in the order in which they were taken.
-/

namespace Copr.WorkLists

variable {α σ : Type*}

/-- The tasks to do, the newest first, and the tasks that were ever scheduled. -/
structure WorkList (α : Type*) where
  /-- `_tasks`. -/
  tasks : List α
  /-- `_seen`. -/
  seen : List α
  /-- A task to do was scheduled. -/
  scheduled : ∀ task ∈ tasks, task ∈ seen
  /-- No task is to be done twice. -/
  distinct : tasks.Nodup

namespace WorkList

/-- Nothing was scheduled. -/
def nothing : WorkList α where
  tasks := []
  seen := []
  scheduled _ member := member
  distinct := List.nodup_nil

variable (list : WorkList α)

/-- There is nothing to do. -/
def isEmpty : Bool := list.tasks.isEmpty

/-- What is left after the oldest task was scheduled. -/
theorem scheduled_dropLast : ∀ task ∈ list.tasks.dropLast, task ∈ list.seen :=
  fun task member => list.scheduled task (List.dropLast_subset _ member)

/-- What is left after the oldest task is distinct. -/
theorem distinct_dropLast : list.tasks.dropLast.Nodup :=
  list.distinct.sublist (List.dropLast_sublist _)

/-- Take the oldest task. -/
def pop : Option (α × WorkList α) :=
  list.tasks.getLast?.map fun task => (task, {
    tasks := list.tasks.dropLast
    seen := list.seen
    scheduled := list.scheduled_dropLast
    distinct := list.distinct_dropLast })

variable [DecidableEq α]

omit [DecidableEq α] in
/-- A new task is scheduled with the others. -/
theorem scheduled_cons (task : α) : ∀ t ∈ task :: list.tasks, t ∈ task :: list.seen := by
  intro t member
  rcases List.mem_cons.mp member with rfl | old
  · exact List.mem_cons_self
  · exact List.mem_cons_of_mem task (list.scheduled t old)

omit [DecidableEq α] in
/-- A task that was never scheduled is not among those to do. -/
theorem distinct_cons {task : α} (fresh : task ∉ list.seen) : (task :: list.tasks).Nodup :=
  List.nodup_cons.mpr ⟨fun member => fresh (list.scheduled task member), list.distinct⟩

/-- Add a task, unless it was scheduled before. -/
def schedule (task : α) : WorkList α :=
  if known : task ∈ list.seen then list
  else {
    tasks := task :: list.tasks
    seen := task :: list.seen
    scheduled := list.scheduled_cons task
    distinct := list.distinct_cons known }

/-- Schedule tasks one after another. -/
def scheduleAll (tasks : List α) : WorkList α :=
  tasks.foldl (fun list task => list.schedule task) list

/-- A work list of first tasks. -/
def ofTasks (tasks : List α) : WorkList α := scheduleAll nothing tasks

end WorkList

variable [DecidableEq α]

/-- One round of the loop: take a task, process it, schedule what comes out of it. After the last
task a round changes nothing; `none` stands for an exception of the body. -/
def round (body : σ → α → Option (σ × List α)) (s : WorkList α × σ) : Option (WorkList α × σ) :=
  match s.1.pop with
  | none => some s
  | some (task, rest) => (body s.2 task).map fun r => (rest.scheduleAll r.2, r.1)

/-- A number of rounds. -/
def rounds (body : σ → α → Option (σ × List α)) :
    Nat → WorkList α × σ → Option (WorkList α × σ)
  | 0, s => some s
  | n + 1, s => (round body s).bind (rounds body n)

/-- The loop ends in this state. -/
def EndsWith (body : σ → α → Option (σ × List α)) (list : WorkList α) (start final : σ) : Prop :=
  ∃ n ended, rounds body n (list, start) = some (ended, final) ∧ ended.isEmpty = true

/-- A task is reached from the first ones. -/
def Reached (next : α → List α) (first : List α) (task : α) : Prop :=
  ∃ t ∈ first, Relation.ReflTransGen (fun a b => b ∈ next a) t task

section Scheduling

variable (list : WorkList α) (tasks : List α)

/-- What was scheduled after more tasks were added. -/
theorem mem_seen_scheduleAll {t : α} :
    t ∈ (list.scheduleAll tasks).seen ↔ t ∈ list.seen ∨ t ∈ tasks := by
  induction tasks generalizing list with
  | nil => simp [WorkList.scheduleAll]
  | cons task tasks ih =>
    have one : t ∈ (list.schedule task).seen ↔ t ∈ list.seen ∨ t = task := by
      unfold WorkList.schedule
      split
      · rename_i known
        exact ⟨Or.inl, fun member => member.elim id fun same => same ▸ known⟩
      · rw [List.mem_cons, or_comm]
    change t ∈ ((list.schedule task).scheduleAll tasks).seen ↔ _
    rw [ih, one, List.mem_cons, or_assoc]

/-- What is to do after more tasks were added: the old tasks and those that are new. -/
theorem mem_tasks_scheduleAll {t : α} :
    t ∈ (list.scheduleAll tasks).tasks ↔ t ∈ list.tasks ∨ (t ∈ tasks ∧ t ∉ list.seen) := by
  induction tasks generalizing list with
  | nil => simp [WorkList.scheduleAll]
  | cons task tasks ih =>
    change t ∈ ((list.schedule task).scheduleAll tasks).tasks ↔ _
    rw [ih]
    unfold WorkList.schedule
    by_cases known : task ∈ list.seen
    · simp only [dif_pos known, List.mem_cons]
      constructor
      · rintro (old | ⟨later, fresh⟩)
        · exact Or.inl old
        · exact Or.inr ⟨Or.inr later, fresh⟩
      · rintro (old | ⟨rfl | later, fresh⟩)
        · exact Or.inl old
        · exact absurd known fresh
        · exact Or.inr ⟨later, fresh⟩
    · simp only [dif_neg known, List.mem_cons]
      by_cases same : t = task
      · subst same
        simp [known]
      · simp [same]

end Scheduling

/-- The tasks `order` were processed in this order, what was scheduled since is still to do. -/
structure Progress (next : α → List α) (first : List α) (Inv : List α → σ → Prop)
    (order : List α) (s : WorkList α × σ) : Prop where
  /-- No task was processed twice. -/
  once : order.Nodup
  /-- What was scheduled was processed or is to do, and not both. -/
  parts : ∀ t, t ∈ s.1.seen ↔ t ∈ order ∨ t ∈ s.1.tasks
  /-- A processed task is not to do again. -/
  apart : ∀ t ∈ order, t ∉ s.1.tasks
  /-- Only tasks that are reached are scheduled. -/
  reached : ∀ t ∈ s.1.seen, Reached next first t
  /-- The first tasks are scheduled. -/
  begun : ∀ t ∈ first, t ∈ s.1.seen
  /-- What comes out of a processed task is scheduled. -/
  closed : ∀ t ∈ order, ∀ u ∈ next t, u ∈ s.1.seen
  /-- The state is as it should be after these tasks. -/
  state : Inv order s.2

section Loop

variable {body : σ → α → Option (σ × List α)} {next : α → List α} {first order : List α}
  {Inv : List α → σ → Prop} {start : σ} {s : WorkList α × σ}

/-- Before the first round the first tasks are scheduled and nothing was done. -/
theorem progress_start (begins : Inv [] start) :
    Progress next first Inv [] (WorkList.ofTasks first, start) where
  once := List.nodup_nil
  parts t := by
    simp only [WorkList.ofTasks, mem_seen_scheduleAll, mem_tasks_scheduleAll, WorkList.nothing]
    simp
  apart t member := nomatch member
  reached t member := by
    rw [WorkList.ofTasks, mem_seen_scheduleAll] at member
    exact ⟨t, member.resolve_left (by simp [WorkList.nothing]), .refl⟩
  begun t member := (mem_seen_scheduleAll _ _).mpr (Or.inr member)
  closed t member := nomatch member
  state := begins

/-- A round processes one task more. -/
theorem Progress.round (progress : Progress next first Inv order s)
    (runs : ∀ order s t, Reached next first t → t ∉ order → Inv order s →
      ∃ s', body s t = some (s', next t) ∧ Inv (order ++ [t]) s')
    (more : s.1.isEmpty = false) :
    ∃ task s', WorkLists.round body s = some s' ∧
      Progress next first Inv (order ++ [task]) s' := by
  obtain ⟨list, state⟩ := s
  have filled : list.tasks ≠ [] := by
    rintro none
    simp [WorkList.isEmpty, none] at more
  let task := list.tasks.getLast filled
  have taken : list.tasks.getLast? = some task := List.getLast?_eq_some_getLast filled
  have split : list.tasks = list.tasks.dropLast ++ [task] :=
    (List.dropLast_append_getLast filled).symm
  have present : task ∈ list.tasks := List.getLast_mem filled
  have known : task ∈ list.seen := list.scheduled task present
  have reached := progress.reached task known
  have fresh : task ∉ order := fun member => progress.apart task member present
  obtain ⟨state', done, kept⟩ := runs order state task reached fresh progress.state
  have gone : task ∉ list.tasks.dropLast := by
    have distinct := list.distinct
    rw [split, List.nodup_append] at distinct
    exact fun member => distinct.2.2 task member task (List.mem_singleton_self task) rfl
  have inTasks : ∀ t, t ∈ list.tasks ↔ t ∈ list.tasks.dropLast ∨ t = task := by
    intro t
    conv_lhs => rw [split]
    rw [List.mem_append, List.mem_singleton]
  let rest : WorkList α := {
    tasks := list.tasks.dropLast
    seen := list.seen
    scheduled := list.scheduled_dropLast
    distinct := list.distinct_dropLast }
  have popped : list.pop = some (task, rest) := by rw [WorkList.pop, taken]; rfl
  have moved : WorkLists.round body (list, state) =
      some (rest.scheduleAll (next task), state') := by
    rw [WorkLists.round]
    simp only [popped, done, Option.map_some]
  have seen : ∀ t, t ∈ (rest.scheduleAll (next task)).seen ↔ t ∈ list.seen ∨ t ∈ next task :=
    fun t => mem_seen_scheduleAll rest (next task)
  have tasks : ∀ t, t ∈ (rest.scheduleAll (next task)).tasks ↔
      t ∈ list.tasks.dropLast ∨ (t ∈ next task ∧ t ∉ list.seen) :=
    fun t => mem_tasks_scheduleAll rest (next task)
  refine ⟨task, _, moved, ?_, ?_, ?_, ?_, ?_, ?_, kept⟩
  · exact List.Nodup.append progress.once (List.nodup_singleton task)
      (List.disjoint_singleton.mpr fresh)
  · intro t
    rw [seen, tasks, List.mem_append, List.mem_singleton, progress.parts, inTasks]
    by_cases before : t ∈ list.seen
    · have cases_ := (progress.parts t).mp before
      rw [inTasks] at cases_
      tauto
    · tauto
  · intro t member inside
    rcases (tasks t).mp inside with old | ⟨-, unseen⟩
    · rcases List.mem_append.mp member with earlier | now
      · exact progress.apart t earlier ((inTasks t).mpr (Or.inl old))
      · rw [List.mem_singleton.mp now] at old
        exact gone old
    · rcases List.mem_append.mp member with earlier | now
      · exact unseen ((progress.parts t).mpr (Or.inl earlier))
      · rw [List.mem_singleton.mp now] at unseen
        exact unseen known
  · intro t member
    rcases (seen t).mp member with old | new
    · exact progress.reached t old
    · obtain ⟨origin, listed, path⟩ := reached
      exact ⟨origin, listed, path.tail new⟩
  · exact fun t member => (seen t).mpr (Or.inl (progress.begun t member))
  · intro t member u out
    rcases List.mem_append.mp member with earlier | now
    · exact (seen u).mpr (Or.inl (progress.closed t earlier u out))
    · rw [List.mem_singleton.mp now] at out
      exact (seen u).mpr (Or.inr out)

omit [DecidableEq α] in
/-- With nothing left to do, exactly the reached tasks were processed. -/
theorem Progress.finished (progress : Progress next first Inv order s)
    (ended : s.1.isEmpty = true) (t : α) : t ∈ order ↔ Reached next first t := by
  have none : s.1.tasks = [] := List.isEmpty_iff.mp ended
  have all : ∀ u, u ∈ s.1.seen ↔ u ∈ order := by
    intro u
    rw [progress.parts, none]
    simp
  constructor
  · exact fun member => progress.reached t ((all t).mpr member)
  · rintro ⟨origin, listed, path⟩
    induction path with
    | refl => exact (all origin).mp (progress.begun origin listed)
    | tail _ out ih => exact (all _).mp (progress.closed _ ih _ out)

/-- With finitely many tasks the loop ends, having processed each reached task once, if the body
keeps what is required of the state. -/
theorem loop_ends (begins : Inv [] start)
    (runs : ∀ order s t, Reached next first t → t ∉ order → Inv order s →
      ∃ s', body s t = some (s', next t) ∧ Inv (order ++ [t]) s')
    (tasks : List α) (finite : ∀ t, Reached next first t → t ∈ tasks) :
    ∃ (order : List α) (final : σ), EndsWith body (WorkList.ofTasks first) start final ∧
      order.Nodup ∧ (∀ t, t ∈ order ↔ Reached next first t) ∧ Inv order final := by
  -- What is left of the tasks bounds the number of rounds.
  have onward : ∀ (left : Nat) order s, Progress next first Inv order s →
      tasks.length ≤ order.length + left →
      ∃ order' final n ended, rounds body n s = some (ended, final) ∧ ended.isEmpty = true ∧
        Progress next first Inv order' (ended, final) := by
    intro left
    induction left with
    | zero =>
      intro order s progress bound
      cases empty : s.1.isEmpty with
      | true => exact ⟨order, s.2, 0, s.1, rfl, empty, progress⟩
      | false =>
        obtain ⟨task, s', -, further⟩ := progress.round runs empty
        have inside : (order ++ [task]) ⊆ tasks := fun t member =>
          finite t (further.reached t ((further.parts t).mpr (Or.inl member)))
        have longer := (further.once.subperm inside).length_le
        rw [List.length_append, List.length_singleton] at longer
        omega
    | succ left ih =>
      intro order s progress bound
      cases empty : s.1.isEmpty with
      | true => exact ⟨order, s.2, 0, s.1, rfl, empty, progress⟩
      | false =>
        obtain ⟨task, s', moved, further⟩ := progress.round runs empty
        obtain ⟨order', final, n, ended, ran, last, complete⟩ := ih (order ++ [task]) s' further
          (by rw [List.length_append, List.length_singleton]; omega)
        refine ⟨order', final, n + 1, ended, ?_, last, complete⟩
        rw [rounds, moved]
        exact ran
  obtain ⟨order, final, n, ended, ran, last, progress⟩ :=
    onward tasks.length [] _ (progress_start begins) (by simp)
  exact ⟨order, final, ⟨n, ended, ran, last⟩, progress.once, progress.finished last,
    progress.state⟩

/-- After the last task further rounds change nothing. -/
theorem rounds_of_isEmpty {list : WorkList α} {state : σ} (ended : list.isEmpty = true) (n : Nat) :
    rounds body n (list, state) = some (list, state) := by
  have none : list.pop = none := by
    refine Option.map_eq_none_iff.mpr ?_
    rw [List.isEmpty_iff.mp ended]
    rfl
  induction n with
  | zero => rfl
  | succ n ih =>
    have still : WorkLists.round body (list, state) = some (list, state) := by
      rw [WorkLists.round, none]
    rw [rounds, still]
    exact ih

/-- The rounds of a sum are made one after another. -/
theorem rounds_add (m n : Nat) (s : WorkList α × σ) :
    rounds body (m + n) s = (rounds body m s).bind (rounds body n) := by
  induction m generalizing s with
  | zero => rw [Nat.zero_add]; rfl
  | succ m ih =>
    rw [Nat.add_right_comm, rounds, rounds]
    cases WorkLists.round body s with
    | none => rfl
    | some t => exact ih t

/-- The loop ends in one state only. -/
theorem EndsWith.unique {list : WorkList α} {one other : σ}
    (first : EndsWith body list start one) (second : EndsWith body list start other) :
    one = other := by
  obtain ⟨m, e, ran, ended⟩ := first
  obtain ⟨n, f, ran', ended'⟩ := second
  have left : rounds body (m + n) (list, start) = some (e, one) := by
    rw [rounds_add, ran]
    exact rounds_of_isEmpty ended n
  have right : rounds body (n + m) (list, start) = some (f, other) := by
    rw [rounds_add, ran']
    exact rounds_of_isEmpty ended' m
  rw [Nat.add_comm, right] at left
  exact (congrArg Prod.snd (Option.some.inj left)).symm

end Loop

end Copr.WorkLists
