import Copr.Backend.RemoveDirs

/-!
# Which directories are removed

Directories of pull requests are recognised by different tests of their names when they are
accepted, expired and removed, and they are removed from the disk long after they were removed
from the database. Here is when both is harmless: only directories of pull requests are removed,
and no directory that exists again.
-/

namespace Copr

open Runs Tables Text

variable {chars : CharClasses}

/-! ## Only directories of pull requests -/

/-- The directories with all that ever were in the table. -/
structure DirHistory (chars : CharClasses) where
  /-- The tables. -/
  db : DirDatabase chars
  /-- The directories that were created. -/
  known : List (CoprDir chars)

namespace DirHistory

/-- One more event. -/
def step (cfg : DirConfig) (h : DirHistory chars) (e : DirEvent chars) :
    Option (DirHistory chars) :=
  some ⟨h.db.step cfg e, h.known ++ (h.db.step cfg e).dirs.rows⟩

/-- Nothing has happened. -/
def empty : DirHistory chars := ⟨.empty, []⟩

/-- Main and custom directories are neither deleted nor named in an action, and what is named there
passes the assertions of the backend. -/
structure OnlyPrRemoved (cfg : DirConfig) (h : DirHistory chars) : Prop where
  /-- Nothing else is deleted, whenever expired directories are looked for. -/
  kept : ∀ now, ∀ d ∈ h.db.dirs.rows, d.main = true ∨ d.isCustom = true →
    d ∈ (h.db.sendDeleteDirsAction cfg now).dirs.rows
  /-- Nothing else is named, even long after it was deleted. -/
  unnamed : ∀ a ∈ h.db.actions.rows, ∀ d ∈ h.known, d.main = true ∨ d.isCustom = true →
    d.fullName ∉ a.data
  /-- The assertions. -/
  asserted : ∀ a ∈ h.db.actions.rows, ∀ path ∈ a.data, removeDirsAsserts path = true

/-- A name that is accepted for a custom directory does not look like one of pull requests. -/
def plainCustom (_ : DirHistory chars) : DirEvent chars → Prop
  | .getOrCreate copr dirname => Accepted chars copr.name dirname →
      startswith dirname (copr.name ++ ":custom:") = true → contains dirname ":pr:" = false
  | _ => True

instance (h : DirHistory chars) : ∀ e, Decidable (h.plainCustom e)
  | .getOrCreate copr dirname => inferInstanceAs (Decidable (Accepted chars copr.name dirname →
      startswith dirname (copr.name ++ ":custom:") = true → contains dirname ":pr:" = false))
  | .addMainDir _ => .isTrue trivial
  | .addBuild _ => .isTrue trivial
  | .deleteBuild _ => .isTrue trivial
  | .deleteCopr _ => .isTrue trivial
  | .sendDeleteDirsAction _ => .isTrue trivial

/-- What holds in every state. -/
structure Told (h : DirHistory chars) : Prop where
  /-- The table holds known directories. -/
  known : ∀ d ∈ h.db.dirs.rows, d ∈ h.known
  /-- Main and custom directories are told from those of pull requests. -/
  plain : ∀ d ∈ h.known, d.main = true ∨ d.isCustom = true → d.isPr = false
  /-- Actions name directories of pull requests. -/
  named : ∀ a ∈ h.db.actions.rows, ∀ path ∈ a.data,
    ∃ d : CoprDir chars, d.isPr = true ∧ d.fullName = path

variable {cfg : DirConfig} {h h' : DirHistory chars}

/-- An event that creates no misleading name keeps the directories told apart. -/
theorem step_told {e : DirEvent chars} (told : h.Told) (plain : h.plainCustom e)
    (stepped : h.step cfg e = some h') : h'.Told := by
  cases stepped
  have named : ∀ d ∈ (h.db.step cfg e).dirs.rows, d.main = true ∨ d.isCustom = true →
      d.isPr = false := by
    intro d listed kind
    rcases DirDatabase.mem_step listed with before | ⟨main, -⟩ | rfl
    · exact told.plain d (told.known d before) kind
    · exact CoprDir.isPr_of_main main
    · by_cases main : d.main = true
      · exact CoprDir.isPr_of_main main
      · have created := d.created
        rw [if_neg main] at created
        exact plain created (kind.resolve_left main)
  constructor
  · intro d listed
    exact List.mem_append_right _ listed
  · intro d listed kind
    rcases List.mem_append.mp listed with before | new
    · exact told.plain d before kind
    · exact named d new kind
  · intro a listed path inside
    rcases DirDatabase.mem_step_actions listed with before | removed
    · exact told.named a before path inside
    · obtain ⟨d, -, -, pr, same⟩ := removed.2 path inside
      exact ⟨d, pr, same⟩

/-- The full name of a directory of pull requests passes the assertions. -/
theorem removeDirsAsserts_fullName {d : CoprDir chars} (pr : d.isPr = true) :
    removeDirsAsserts d.fullName = true := by
  rw [removeDirsAsserts, d.split_fullName, CoprDir.contains_fullName pr]
  rfl

/-- While directories are told apart, only those of pull requests are removed. -/
theorem Told.onlyPrRemoved (told : h.Told) : h.OnlyPrRemoved cfg where
  kept now d listed kind :=
    (DirDatabase.sendDeleteDirsAction_removes h.db now).kept d listed
      (told.plain d (told.known d listed) kind)
  unnamed a listed d known kind inside := by
    obtain ⟨e, pr, same⟩ := told.named a listed d.fullName inside
    have plain := told.plain d known kind
    rw [← CoprDir.isPr_of_fullName same, pr] at plain
    contradiction
  asserted a listed path inside := by
    obtain ⟨d, pr, rfl⟩ := told.named a listed path inside
    exact removeDirsAsserts_fullName pr

/-- In every run in which no custom directory gets a name with `:pr:` in it, only directories of
pull requests are removed, and the backend accepts the names of all of them. -/
theorem only_pr_dirs_removed (run : Run (step cfg) plainCustom empty h) : h.OnlyPrRemoved cfg := by
  have told : h.Told := by
    refine run_invariant Told (fun _ _ _ told plain stepped => step_told told plain stepped) run ?_
    constructor
    · intro d listed
      contradiction
    · intro d listed
      contradiction
    · intro a listed
      contradiction
  exact told.onlyPrRemoved

end DirHistory

namespace Sample

/-- Forty days. -/
def dirConfig : DirConfig where
  keepPrDirsDays := 40
  precedes name other := decide (name ≤ other)

/-- The project `frostyx/hello`. -/
def helloCopr : NamedCopr .ascii where
  id := 7
  ownerName := "frostyx"
  name := "hello"
  owner_plain := by decide
  named := by decide

end Sample

/-- A custom directory whose name goes on with `pr:` is deleted as soon as expired directories are
looked for. -/
theorem DirHistory.custom_dir_removed : ¬ ∀ h : DirHistory .ascii,
    Run (DirHistory.step Sample.dirConfig) anyEvent .empty h →
      h.OnlyPrRemoved Sample.dirConfig := by
  intro claimed
  obtain ⟨h, run, seen⟩ := exec_observe (DirHistory.step Sample.dirConfig) (fun _ _ => true) .empty
    [.addMainDir Sample.helloCopr, .getOrCreate Sample.helloCopr "hello:custom:pr:1"]
    (fun h => (h.db.dirs.rows.any fun d => d.isCustom,
      (h.db.sendDeleteDirsAction Sample.dirConfig 0).dirs.rows.any fun d => d.isCustom))
    (true, false) (by decide)
  have kept := (claimed h (run_weaken (fun _ _ _ => trivial) run)).kept 0
  simp only [Prod.mk.injEq, List.any_eq_true, List.any_eq_false] at seen
  obtain ⟨⟨d, listed, custom⟩, gone⟩ := seen
  exact gone d (kept d listed (Or.inr custom)) custom

/-- A custom directory and one of a pull request without builds: only the latter is removed. -/
theorem DirHistory.only_pr_dirs_removed_sample : ∃ h : DirHistory .ascii,
    (h.db.dirs.rows.map CoprDir.name, h.db.actions.rows.map RemoveDirsAction.data) =
        (["hello", "hello:custom:next"], [["frostyx/hello:pr:42"]]) ∧
      h.OnlyPrRemoved Sample.dirConfig := by
  obtain ⟨h, run, seen⟩ := exec_observe (DirHistory.step Sample.dirConfig)
    (fun h e => decide (h.plainCustom e)) .empty
    [.addMainDir Sample.helloCopr, .getOrCreate Sample.helloCopr "hello:custom:next",
      .getOrCreate Sample.helloCopr "hello:pr:42", .sendDeleteDirsAction 0]
    (fun h => (h.db.dirs.rows.map CoprDir.name, h.db.actions.rows.map RemoveDirsAction.data))
    (["hello", "hello:custom:next"], [["frostyx/hello:pr:42"]]) (by decide)
  exact ⟨h, seen, only_pr_dirs_removed (run_weaken (fun _ _ => of_decide_eq_true) run)⟩

/-! ## No directory that exists again -/

namespace RemovalWorld

/-- No directory is created while an action that names it waits for its result, is queued or is
being executed. -/
def createsNoneToRemove (w : RemovalWorld chars) : RemovalEvent chars → Prop
  | .frontend (.getOrCreate copr dirname) =>
    Accepted chars copr.name dirname → w.db.getByCoprOrNone copr dirname = none →
      copr.ownerName ++ "/" ++ dirname ∉ w.pendingRemovals
  | _ => True

instance (w : RemovalWorld chars) : ∀ e, Decidable (w.createsNoneToRemove e)
  | .frontend (.getOrCreate copr dirname) => inferInstanceAs (Decidable
      (Accepted chars copr.name dirname → w.db.getByCoprOrNone copr dirname = none →
        copr.ownerName ++ "/" ++ dirname ∉ w.pendingRemovals))
  | .frontend (.addMainDir _) => .isTrue trivial
  | .frontend (.addBuild _) => .isTrue trivial
  | .frontend (.deleteBuild _) => .isTrue trivial
  | .frontend (.deleteCopr _) => .isTrue trivial
  | .frontend (.sendDeleteDirsAction _) => .isTrue trivial
  | .fetch _ => .isTrue trivial
  | .start _ => .isTrue trivial
  | .turn _ _ => .isTrue trivial
  | .report _ => .isTrue trivial
  | .lose _ => .isTrue trivial
  | .store _ _ => .isTrue trivial

/-- The directory that a process removes next is none of the database. -/
def SparesSuccessors (w : RemovalWorld chars) : Prop :=
  ∀ r ∈ w.running, ∀ path, r.todo.head? = some path → ∀ d ∈ w.db.dirs.rows, d.fullName ≠ path

/-- Nothing that is stored in a directory of the database is removed. -/
def KeepsResults (cfg : DirConfig) (w : RemovalWorld chars) : Prop :=
  ∀ e t, w.step cfg e = some t → ∀ d ∈ w.db.dirs.rows, ∀ item,
    (d.fullName, item) ∈ w.disk → (d.fullName, item) ∈ t.disk

/-- What is still to be removed was a directory of pull requests and is none of the database. -/
def Bygone (w : RemovalWorld chars) : Prop :=
  ∀ path ∈ w.pendingRemovals, (∃ e : CoprDir chars, e.isPr = true ∧ e.fullName = path) ∧
    ∀ d ∈ w.db.dirs.rows, d.fullName ≠ path

variable {cfg : DirConfig} {w t : RemovalWorld chars}

/-- A directory that `get_or_create` adds was not in the table. -/
theorem getByCoprOrNone_of_new {d : CoprDir chars} (before : d ∉ w.db.dirs.rows)
    (after : d ∈ (w.db.getOrCreate d.copr d.name).dirs.rows) :
    w.db.getByCoprOrNone d.copr d.name = none := by
  unfold DirDatabase.getOrCreate at after
  split at after
  · exact absurd after before
  · rename_i missing
    exact missing

/-- A step that creates nothing that is to be removed keeps it so. -/
theorem step_bygone {e : RemovalEvent chars} (bygone : w.Bygone)
    (creates : w.createsNoneToRemove e) (stepped : w.step cfg e = some t) : t.Bygone := by
  intro path pending
  rcases step_pendingRemovals stepped pending with before | ⟨fewer, old, there, gone, pr, rfl⟩
  · obtain ⟨⟨old, pr, named⟩, absent⟩ := bygone path before
    refine ⟨⟨old, pr, named⟩, fun d listed same => ?_⟩
    have alike : d.isPr = true := by
      rw [CoprDir.isPr_of_fullName (same.trans named.symm), pr]
    have plain : d.main ≠ true := by
      intro main
      rw [CoprDir.isPr_of_main main] at alike
      contradiction
    by_cases listed' : d ∈ w.db.dirs.rows
    · exact absent d listed' same
    · rcases step_dirs stepped listed with impossible | main | rfl
      · exact listed' impossible
      · exact plain main
      · -- `get_or_create` has just added the directory.
        have created := d.created
        rw [if_neg plain] at created
        cases stepped
        have spared := creates created (getByCoprOrNone_of_new listed' listed)
        rw [← same] at before
        exact spared before
  · refine ⟨⟨old, pr, rfl⟩, fun d listed same => ?_⟩
    have was := Table.eq_of_key (fewer d listed) there (CoprDir.fullName_inj same)
    exact gone (was ▸ listed)

/-- In every state of a run in which no such directory is created, what is still to be removed is
none of the database. -/
theorem run_bygone (run : Run (step cfg) createsNoneToRemove empty w) : w.Bygone := by
  refine run_invariant Bygone (fun _ _ _ bygone creates stepped =>
    step_bygone bygone creates stepped) run ?_
  intro path pending
  contradiction

/-- `rmtree` leaves what is in other directories. -/
theorem rmtree_keeps {disk : StoredItems} {path other item : String} {rmtree : Rmtree}
    (apart : other ≠ path) (stored : (other, item) ∈ disk) :
    (other, item) ∈ disk.rmtree path rmtree := by
  cases rmtree with
  | removed => simp [StoredItems.rmtree, stored, apart]
  | notFound => exact stored
  | oserror left => simp [StoredItems.rmtree, stored, apart]

/-- A turn removes nothing from directories that it is not about. -/
theorem turn_keeps {r r' : Removal} {disk disk' : StoredItems} {rmtree : Rmtree}
    {other item : String} (turned : r.turn disk rmtree = some (r', disk'))
    (apart : ∀ path, r.todo.head? = some path → other ≠ path) (stored : (other, item) ∈ disk) :
    (other, item) ∈ disk' := by
  unfold Removal.turn at turned
  split at turned
  · contradiction
  · split at turned
    · cases turned
      exact stored
    · rename_i path rest same
      have different : other ≠ path := apart path (by rw [same]; rfl)
      split at turned
      · cases turned
        exact stored
      · split at turned <;> cases turned <;> exact rmtree_keeps different stored

/-- While the processes spare the directories of the database, their results are kept. -/
theorem SparesSuccessors.keepsResults (spares : w.SparesSuccessors) : w.KeepsResults cfg := by
  intro e t stepped d listed item stored
  cases e with
  | frontend e =>
    cases stepped
    exact stored
  | fetch ids =>
    obtain ⟨-, same⟩ := Option.ite_none_right_eq_some.mp stepped
    cases same
    split <;> exact stored
  | start id =>
    obtain ⟨-, same⟩ := Option.ite_none_right_eq_some.mp stepped
    obtain ⟨a, -, rfl⟩ := Option.map_eq_some_iff.mp same
    exact stored
  | turn index rmtree =>
    obtain ⟨r, there, more⟩ := Option.bind_eq_some_iff.mp stepped
    obtain ⟨⟨r', disk⟩, turned, rfl⟩ := Option.map_eq_some_iff.mp more
    have apart := spares r (List.mem_of_getElem? there)
    exact turn_keeps turned (fun path next => apart path next d listed) stored
  | report index =>
    simp only [step] at stepped
    split at stepped
    · cases stepped
      exact stored
    · contradiction
  | lose index =>
    obtain ⟨-, same⟩ := Option.ite_none_right_eq_some.mp stepped
    cases same
    exact stored
  | store path item =>
    cases stepped
    exact List.mem_append_left _ stored

/-- In every run in which no directory is created while it is still to be removed, no directory is
removed that exists again, and what is stored in the directories of the database is kept. -/
theorem successors_spared (run : Run (step cfg) createsNoneToRemove empty w) :
    w.SparesSuccessors ∧ w.KeepsResults cfg := by
  have bygone := run_bygone run
  have spares : w.SparesSuccessors := by
    intro r running path next d listed
    have todo : path ∈ r.todo := List.mem_of_head? next
    have pending : path ∈ w.pendingRemovals :=
      mem_pendingRemovals.mpr (Or.inr ⟨r, running, todo⟩)
    exact (bygone path pending).2 d listed
  exact ⟨spares, spares.keepsResults⟩

/-- A pull request gets its directory back while the old one is still to be removed. -/
theorem successor_removed : ¬ ∀ w : RemovalWorld .ascii,
    Run (step Sample.dirConfig) anyEvent empty w → w.SparesSuccessors := by
  intro claimed
  obtain ⟨w, run, seen⟩ := exec_observe (step Sample.dirConfig) (fun _ _ => true) empty
    [.frontend (.addMainDir Sample.helloCopr),
      .frontend (.getOrCreate Sample.helloCopr "hello:pr:42"),
      .frontend (.sendDeleteDirsAction 0),
      .frontend (.getOrCreate Sample.helloCopr "hello:pr:42"),
      .frontend (.addBuild ⟨100, 3, 10⟩), .store "frostyx/hello:pr:42" "00000100-hello",
      .fetch [1], .start 1]
    (fun w => (w.running.map Removal.todo, w.db.dirs.rows.map CoprDir.fullName))
    ([["frostyx/hello:pr:42"]], ["frostyx/hello", "frostyx/hello:pr:42"]) (by decide)
  simp only [Prod.mk.injEq] at seen
  obtain ⟨running, dirs⟩ := seen
  have removes : ["frostyx/hello:pr:42"] ∈ w.running.map Removal.todo := by simp [running]
  have exists_ : "frostyx/hello:pr:42" ∈ w.db.dirs.rows.map CoprDir.fullName := by simp [dirs]
  obtain ⟨r, started, todo⟩ := List.mem_map.mp removes
  obtain ⟨d, listed, named⟩ := List.mem_map.mp exists_
  have spared := claimed w (run_weaken (fun _ _ _ => trivial) run)
  exact spared r started "frostyx/hello:pr:42" (by rw [todo]; rfl) d listed named

/-- A pull request gets its directory back after the old one was removed. -/
theorem successors_spared_later : ∃ w : RemovalWorld .ascii,
    w.db.dirs.rows.map CoprDir.fullName = ["frostyx/hello", "frostyx/hello:pr:42"] ∧
      w.SparesSuccessors ∧ w.KeepsResults Sample.dirConfig := by
  obtain ⟨w, run, seen⟩ := exec_observe (step Sample.dirConfig)
    (fun w e => decide (w.createsNoneToRemove e)) empty
    [.frontend (.addMainDir Sample.helloCopr),
      .frontend (.getOrCreate Sample.helloCopr "hello:pr:42"),
      .frontend (.sendDeleteDirsAction 0), .fetch [1], .start 1, .turn 0 .removed,
      .turn 0 .removed, .report 0, .frontend (.getOrCreate Sample.helloCopr "hello:pr:42")]
    (fun w => w.db.dirs.rows.map CoprDir.fullName) ["frostyx/hello", "frostyx/hello:pr:42"]
    (by decide)
  exact ⟨w, seen, successors_spared (run_weaken (fun _ _ => of_decide_eq_true) run)⟩

end RemovalWorld

end Copr
