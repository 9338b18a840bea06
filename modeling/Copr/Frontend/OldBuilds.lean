import Copr.Frontend.DeleteActions
import Mathlib.Data.List.Dedup
import Mathlib.Data.List.Sort

/-!
# Cleaning old builds

`clean_old_builds`, `delete_build` and `check_build_to_delete` of `coprs/logic/builds_logic.py`
with the command `copr-frontend clean-old-builds`, which commits when everything has been gone
through and rolls back on an exception.
-/

namespace Copr

/-- A build with the columns by which old builds are found. -/
structure BuildRow where
  /-- The build with what a delete action records. -/
  stored : StoredBuild
  /-- `copr_dir_id`. -/
  coprDirId : Option Nat
  /-- `package_id`. -/
  packageId : Option Nat
  /-- `copr.persistent`. -/
  persistent : Bool

/-- `id`. -/
def BuildRow.id (b : BuildRow) : Nat := b.stored.build.id

/-- `finished`. -/
def BuildRow.finished (b : BuildRow) : Bool := b.stored.build.finished

/-- A package. -/
structure LimitedPackage where
  /-- Primary key. -/
  id : Nat
  /-- `max_builds`. -/
  maxBuilds : Option Int

/-- The tables that are read and changed. -/
structure CleaningTables where
  /-- All builds. -/
  builds : List BuildRow
  /-- The primary key of builds. -/
  distinct : (builds.map BuildRow.id).Nodup
  /-- All packages. -/
  packages : List LimitedPackage
  /-- The actions, in the order in which they were added. -/
  actions : List DeleteAction

/-- A row of the query for directories: `CoprDir.id`, `Package.id`, `Package.max_builds`. -/
structure BuildGroup where
  /-- `dir_id`. -/
  dirId : Nat
  /-- `package_id`. -/
  packageId : Nat
  /-- `limit`. -/
  limit : Nat
  deriving DecidableEq, Repr

/-- What `check_build_to_delete` raises. -/
inductive CheckError
  /-- `InsufficientRightsException`. -/
  | insufficientRights
  /-- `ActionInProgressException`. -/
  | actionInProgress
  deriving DecidableEq, Repr

namespace BuildsLogic

/-- `check_build_to_delete` for an `AutomationUser`, who can edit every project. -/
def checkBuildToDelete (b : BuildRow) : Except CheckError Unit :=
  if b.persistent then .error .insufficientRights
  else if !b.finished then .error .actionInProgress
  else .ok ()

end BuildsLogic

namespace CleaningTables

/-- `db.session.delete`. -/
def delete (db : CleaningTables) (id : Nat) : CleaningTables :=
  { db with
    builds := db.builds.filter fun b => decide (b.id ≠ id)
    distinct := db.distinct.sublist (List.filter_sublist.map _) }

/-- `delete_build`. -/
def deleteBuild (db : CleaningTables) (b : BuildRow) : Except CheckError CleaningTables := do
  BuildsLogic.checkBuildToDelete b
  return { db.delete b.id with actions := db.actions ++ [sendDeleteBuild b.stored] }

/-- The limit of the package of a build, if the build is in a directory. -/
def limitOf (db : CleaningTables) (b : BuildRow) : Option BuildGroup := do
  let dirId ← b.coprDirId
  let packageId ← b.packageId
  let package ← db.packages.find? fun p => decide (p.id = packageId)
  let limit ← package.maxBuilds
  if 0 < limit then some ⟨dirId, packageId, limit.toNat⟩ else none

/-- A build of a group. -/
def inGroup (g : BuildGroup) (b : BuildRow) : Bool :=
  decide (b.coprDirId = some g.dirId) && decide (b.packageId = some g.packageId)

/-- `dirs`, in some order. -/
def dirs (db : CleaningTables) : List BuildGroup :=
  (db.builds.filterMap db.limitOf).dedup.filter fun g =>
    decide (g.limit < db.builds.countP (inGroup g))

/-- `delete_builds`: the builds of a group behind the newest ones. -/
def deleteBuilds (db : CleaningTables) (g : BuildGroup) : List BuildRow :=
  ((db.builds.filter (inGroup g)).insertionSort fun a b => b.id ≤ a.id).drop g.limit

/-- The loop over the builds of a group. -/
def cleanBuilds : List BuildRow → CleaningTables → Except CheckError CleaningTables
  | [], db => .ok db
  | b :: rest, db =>
    match db.deleteBuild b with
    | .ok db => cleanBuilds rest db
    -- postponed to the next run
    | .error .actionInProgress => cleanBuilds rest db
    | .error .insufficientRights => .error .insufficientRights

/-- The loop over the groups. -/
def cleanGroups : List BuildGroup → CleaningTables → Except CheckError CleaningTables
  | [], db => .ok db
  | g :: rest, db => do cleanGroups rest (← cleanBuilds (db.deleteBuilds g) db)

/-- `clean_old_builds`, where the database answers the first query in the given order. -/
def cleanOldBuilds (db : CleaningTables) (order : List BuildGroup) :
    Except CheckError CleaningTables :=
  cleanGroups order db

/-- The command: what is in the database afterwards. -/
def cleanOldBuildsCommand (db : CleaningTables) (order : List BuildGroup) : CleaningTables :=
  match db.cleanOldBuilds order with
  | .ok db => db
  | .error _ => db

/-! ## What shall be deleted -/

/-- How many builds of the directory and the package of a build are newer. -/
def newer (db : CleaningTables) (b : BuildRow) : Nat :=
  db.builds.countP fun c =>
    decide (c.coprDirId = b.coprDirId) && decide (c.packageId = b.packageId) && decide (b.id < c.id)

/-- A build is beyond the newest ones that its package keeps in its directory. -/
def Beyond (db : CleaningTables) (b : BuildRow) : Prop :=
  ∃ g, db.limitOf b = some g ∧ g.limit ≤ db.newer b

/-- A build shall be deleted. -/
def Obsolete (db : CleaningTables) (b : BuildRow) : Prop :=
  db.Beyond b ∧ b.persistent = false ∧ b.finished = true

instance (db : CleaningTables) : DecidablePred db.Beyond := fun b =>
  decidable_of_iff (∃ g ∈ db.limitOf b, g.limit ≤ db.newer b) Iff.rfl

instance (db : CleaningTables) : DecidablePred db.Obsolete := fun _ =>
  inferInstanceAs (Decidable (_ ∧ _))

/-- The old builds are cleaned: exactly the obsolete ones are deleted, with an action for each. -/
structure Cleaned (db after : CleaningTables) : Prop where
  /-- All other builds stay. -/
  builds : after.builds = db.builds.filter fun b => decide (¬ db.Obsolete b)
  /-- The actions. -/
  actions : ∃ deleted : List BuildRow,
    deleted.Perm (db.builds.filter fun b => decide (db.Obsolete b)) ∧
    after.actions = db.actions ++ deleted.map fun b => sendDeleteBuild b.stored
  /-- The packages stay. -/
  packages : after.packages = db.packages

/-! ## The builds of a group -/

variable {db : CleaningTables} {g h : BuildGroup} {b c : BuildRow}

/-- In a list that descends strictly, the elements behind the first `n` are those with `n`
larger ones. -/
theorem mem_drop_iff {α : Type} {key : α → Nat} {l : List α}
    (sorted : l.Pairwise fun x y => key y < key x) {n : Nat} {x : α} :
    x ∈ l.drop n ↔ x ∈ l ∧ n ≤ l.countP fun y => decide (key x < key y) := by
  induction l generalizing n with
  | nil => simp
  | cons y rest ih =>
    obtain ⟨largest, sorted⟩ := List.pairwise_cons.mp sorted
    cases n with
    | zero => simp
    | succ n =>
      rw [List.drop_succ_cons, ih sorted, List.mem_cons]
      constructor
      · rintro ⟨member, enough⟩
        refine ⟨Or.inr member, ?_⟩
        rw [List.countP_cons_of_pos (by simpa using largest x member)]
        omega
      · rintro ⟨rfl | member, enough⟩
        · have none_larger : (x :: rest).countP (fun y => decide (key x < key y)) = 0 := by
            rw [List.countP_eq_zero]
            intro y listed
            rcases List.mem_cons.mp listed with rfl | later
            · simp
            · have less := largest y later
              simp only [decide_eq_true_eq]
              omega
          omega
        · rw [List.countP_cons_of_pos (by simpa using largest x member)] at enough
          exact ⟨member, by omega⟩

/-- Builds of one id are the same. -/
theorem eq_of_id (db : CleaningTables) (first : b ∈ db.builds) (second : c ∈ db.builds)
    (same : b.id = c.id) : b = c :=
  List.inj_on_of_nodup_map db.distinct first second same

/-- The columns of a build of a group. -/
theorem inGroup_iff : inGroup g b = true ↔
    b.coprDirId = some g.dirId ∧ b.packageId = some g.packageId := by
  simp [inGroup]

/-- The builds of a group behind the newest ones. -/
theorem mem_deleteBuilds : b ∈ db.deleteBuilds g ↔
    b ∈ db.builds ∧ inGroup g b = true ∧ g.limit ≤ db.newer b := by
  have perm := List.perm_insertionSort (fun a b : BuildRow => b.id ≤ a.id)
    (db.builds.filter (inGroup g))
  have sorted : ((db.builds.filter (inGroup g)).insertionSort fun a b => b.id ≤ a.id).Pairwise
      fun a b => b.id < a.id := by
    have weak := List.pairwise_insertionSort (fun a b : BuildRow => b.id ≤ a.id)
      (db.builds.filter (inGroup g))
    have ids : ((db.builds.filter (inGroup g)).map BuildRow.id).Nodup :=
      db.distinct.sublist (List.filter_sublist.map _)
    have differ := List.pairwise_map.mp ((perm.map BuildRow.id).nodup_iff.mpr ids)
    exact (weak.and differ).imp fun both => lt_of_le_of_ne both.1 (Ne.symm both.2)
  rw [deleteBuilds, mem_drop_iff sorted, perm.mem_iff, perm.countP_eq, List.mem_filter, and_assoc]
  refine and_congr_right fun _ => and_congr_right fun grouped => ?_
  obtain ⟨dir, package⟩ := inGroup_iff.mp grouped
  rw [List.countP_filter, newer, dir, package]
  have same : ∀ c : BuildRow, (decide (b.id < c.id) && inGroup g c) =
      (decide (c.coprDirId = some g.dirId) && decide (c.packageId = some g.packageId) &&
        decide (b.id < c.id)) := fun c => Bool.and_comm _ _
  simp only [same]

/-- No build is listed twice. -/
theorem deleteBuilds_nodup : (db.deleteBuilds g).Nodup := by
  have rows : db.builds.Nodup := List.Nodup.of_map BuildRow.id db.distinct
  have sorted := (List.perm_insertionSort (fun a b : BuildRow => b.id ≤ a.id)
    (db.builds.filter (inGroup g))).nodup_iff.mpr (rows.sublist List.filter_sublist)
  exact sorted.sublist (List.drop_sublist _ _)

/-! ## One group -/

/-- Rows that are deleted, and the actions for them. -/
structure Deletes (db after : CleaningTables) (rows : List BuildRow) : Prop where
  /-- The rows are gone. -/
  builds : after.builds = db.builds.filter fun c => decide (c.id ∉ rows.map BuildRow.id)
  /-- There are actions. -/
  actions : after.actions = db.actions ++ rows.map fun b => sendDeleteBuild b.stored
  /-- The packages stay. -/
  packages : after.packages = db.packages

/-- First some rows are deleted, and then others. -/
theorem Deletes.trans {db mid after : CleaningTables} {first second : List BuildRow}
    (one : Deletes db mid first) (two : Deletes mid after second) :
    Deletes db after (first ++ second) where
  builds := by
    rw [two.builds, one.builds, List.filter_filter]
    refine List.filter_congr fun c _ => ?_
    simp [List.map_append, not_or, Bool.and_comm]
  actions := by rw [two.actions, one.actions, List.map_append, List.append_assoc]
  packages := two.packages.trans one.packages

/-- Without builds of persistent projects the finished ones are deleted. -/
theorem cleanBuilds_ok {l : List BuildRow} (free : ∀ b ∈ l, b.persistent = false)
    (db : CleaningTables) :
    ∃ after, cleanBuilds l db = .ok after ∧ Deletes db after (l.filter BuildRow.finished) := by
  induction l generalizing db with
  | nil => exact ⟨db, rfl, by simp, by simp, rfl⟩
  | cons b rest ih =>
    have mine := free b List.mem_cons_self
    have others : ∀ c ∈ rest, c.persistent = false :=
      fun c member => free c (List.mem_cons_of_mem _ member)
    cases done : b.finished with
    | false =>
      obtain ⟨after, cleaned, deletes⟩ := ih others db
      refine ⟨after, ?_, ?_⟩
      · simp [cleanBuilds, deleteBuild, BuildsLogic.checkBuildToDelete, mine, done, bind,
          Except.bind, cleaned]
      · rwa [List.filter_cons_of_neg (by simp [done])]
    | true =>
      let next : CleaningTables :=
        { db.delete b.id with actions := db.actions ++ [sendDeleteBuild b.stored] }
      obtain ⟨after, cleaned, deletes⟩ := ih others next
      have first : Deletes db next [b] := by
        refine ⟨?_, rfl, rfl⟩
        refine List.filter_congr fun c _ => ?_
        simp
      refine ⟨after, ?_, ?_⟩
      · simp [cleanBuilds, deleteBuild, BuildsLogic.checkBuildToDelete, mine, done, bind,
          Except.bind, pure, Except.pure]
        exact cleaned
      · rw [List.filter_cons_of_pos (by simpa using done)]
        exact first.trans deletes

/-- A build of a persistent project breaks the loop. -/
theorem cleanBuilds_error {l : List BuildRow} (persistent : ∃ b ∈ l, b.persistent = true)
    (db : CleaningTables) : cleanBuilds l db = .error .insufficientRights := by
  induction l generalizing db with
  | nil => simp at persistent
  | cons b rest ih =>
    cases mine : b.persistent with
    | true =>
      simp [cleanBuilds, deleteBuild, BuildsLogic.checkBuildToDelete, mine, bind, Except.bind]
    | false =>
      have later : ∃ c ∈ rest, c.persistent = true := by
        obtain ⟨c, member, its⟩ := persistent
        rcases List.mem_cons.mp member with rfl | member
        · rw [mine] at its
          contradiction
        · exact ⟨c, member, its⟩
      cases done : b.finished <;>
        simp [cleanBuilds, deleteBuild, BuildsLogic.checkBuildToDelete, mine, done, bind,
          Except.bind, pure, Except.pure, ih later]

/-! ## All groups -/

/-- Two groups of different directories or packages. -/
def Apart (g h : BuildGroup) : Prop := g.dirId ≠ h.dirId ∨ g.packageId ≠ h.packageId

/-- A build is in one of two groups only. -/
theorem Apart.not_both (apart : Apart g h) (first : inGroup g b = true) : inGroup h b = false := by
  rw [← Bool.not_eq_true, inGroup_iff]
  rw [inGroup_iff] at first
  rintro ⟨dir, package⟩
  rcases apart with differ | differ
  · exact differ (Option.some.inj (first.1.symm.trans dir))
  · exact differ (Option.some.inj (first.2.symm.trans package))

/-- Deleting builds of one group leaves the builds of another. -/
theorem Deletes.other_group {after : CleaningTables} {rows : List BuildRow}
    (deletes : Deletes db after rows) (listed : ∀ b ∈ rows, b ∈ db.builds ∧ inGroup g b = true)
    (apart : Apart g h) : after.deleteBuilds h = db.deleteBuilds h := by
  have same : after.builds.filter (inGroup h) = db.builds.filter (inGroup h) := by
    rw [deletes.builds, List.filter_filter]
    refine List.filter_congr fun c member => ?_
    by_cases grouped : inGroup h c = true
    · have stays : c.id ∉ rows.map BuildRow.id := by
        intro gone
        obtain ⟨b, row, same⟩ := List.mem_map.mp gone
        obtain ⟨inside, other⟩ := listed b row
        obtain rfl := db.eq_of_id inside member same
        rw [apart.not_both other] at grouped
        contradiction
      simp [grouped, stays]
    · simp [grouped]
  rw [deleteBuilds, deleteBuilds, same]

/-- The rows that the loop over groups deletes. -/
def deletedRows (db : CleaningTables) (groups : List BuildGroup) : List BuildRow :=
  groups.flatMap fun g => (db.deleteBuilds g).filter BuildRow.finished

/-- The loop over different groups runs through when no build behind the newest ones is of a
persistent project. -/
theorem cleanGroups_ok {groups : List BuildGroup} (apart : groups.Pairwise Apart)
    (free : ∀ g ∈ groups, ∀ b ∈ db.deleteBuilds g, b.persistent = false) :
    ∃ after, cleanGroups groups db = .ok after ∧ Deletes db after (db.deletedRows groups) := by
  induction groups generalizing db with
  | nil => exact ⟨db, rfl, by simp [deletedRows], by simp [deletedRows], rfl⟩
  | cons g rest ih =>
    obtain ⟨alone, apart⟩ := List.pairwise_cons.mp apart
    obtain ⟨mid, cleaned, first⟩ := cleanBuilds_ok (free g List.mem_cons_self) db
    have unchanged : ∀ h ∈ rest, mid.deleteBuilds h = db.deleteBuilds h := by
      intro h member
      refine first.other_group (fun b row => ?_) (alone h member)
      have listed := mem_deleteBuilds.mp (List.mem_of_mem_filter row)
      exact ⟨listed.1, listed.2.1⟩
    have rows : mid.deletedRows rest = db.deletedRows rest :=
      List.flatMap_congr fun h member => by rw [unchanged h member]
    obtain ⟨after, others, second⟩ := ih apart fun h member b row =>
      free h (List.mem_cons_of_mem _ member) b (unchanged h member ▸ row)
    refine ⟨after, ?_, ?_⟩
    · simp only [cleanGroups, cleaned, bind, Except.bind]
      exact others
    · rw [rows] at second
      exact first.trans second

/-- Otherwise the exception ends it. -/
theorem cleanGroups_error {groups : List BuildGroup} (apart : groups.Pairwise Apart)
    (persistent : ∃ g ∈ groups, ∃ b ∈ db.deleteBuilds g, b.persistent = true) :
    cleanGroups groups db = .error .insufficientRights := by
  induction groups generalizing db with
  | nil => simp at persistent
  | cons g rest ih =>
    obtain ⟨alone, apart⟩ := List.pairwise_cons.mp apart
    by_cases mine : ∃ b ∈ db.deleteBuilds g, b.persistent = true
    · simp only [cleanGroups, cleanBuilds_error mine db, bind, Except.bind]
    · have free : ∀ b ∈ db.deleteBuilds g, b.persistent = false := by
        intro b row
        rw [← Bool.not_eq_true]
        exact fun its => mine ⟨b, row, its⟩
      obtain ⟨mid, cleaned, first⟩ := cleanBuilds_ok free db
      have later : ∃ h ∈ rest, ∃ b ∈ mid.deleteBuilds h, b.persistent = true := by
        obtain ⟨h, member, b, row, its⟩ := persistent
        rcases List.mem_cons.mp member with rfl | member
        · exact absurd ⟨b, row, its⟩ mine
        · refine ⟨h, member, b, ?_, its⟩
          rw [first.other_group (fun b row => ?_) (alone h member)]
          · exact row
          · have listed := mem_deleteBuilds.mp (List.mem_of_mem_filter row)
            exact ⟨listed.1, listed.2.1⟩
      simp only [cleanGroups, cleaned, bind, Except.bind]
      exact ih apart later

/-! ## The groups that are found -/

/-- The group of a build that has a limit. -/
theorem limitOf_inGroup (found : db.limitOf b = some g) : inGroup g b = true := by
  unfold limitOf at found
  simp only [Option.bind_eq_bind, Option.bind_eq_some_iff] at found
  obtain ⟨dirId, dir, packageId, package, row, -, limit, -, found⟩ := found
  split at found
  · obtain rfl := Option.some.inj found
    exact inGroup_iff.mpr ⟨dir, package⟩
  · contradiction

/-- Builds of one directory and one package have one limit. -/
theorem limitOf_congr (dir : b.coprDirId = c.coprDirId) (package : b.packageId = c.packageId) :
    db.limitOf b = db.limitOf c := by
  unfold limitOf
  rw [dir, package]

/-- The limit of a group is that of its builds. -/
theorem limitOf_eq (found : db.limitOf c = some g) (grouped : inGroup g b = true) :
    db.limitOf b = some g := by
  obtain ⟨dir, package⟩ := inGroup_iff.mp grouped
  obtain ⟨dir', package'⟩ := inGroup_iff.mp (limitOf_inGroup found)
  exact (limitOf_congr (dir.trans dir'.symm) (package.trans package'.symm)).trans found

/-- A group is found for one of its builds when it has too many. -/
theorem mem_dirs : g ∈ db.dirs ↔
    (∃ b ∈ db.builds, db.limitOf b = some g) ∧ g.limit < db.builds.countP (inGroup g) := by
  simp [dirs, List.mem_filterMap]

/-- All groups that are found are of different directories or packages. -/
theorem dirs_apart {order : List BuildGroup} (queried : order.Perm db.dirs) :
    order.Pairwise Apart := by
  have distinct : order.Nodup :=
    queried.nodup_iff.mpr ((List.nodup_dedup _).sublist List.filter_sublist)
  refine distinct.imp_of_mem fun {g h} listed listed' differ => ?_
  obtain ⟨⟨b, -, found⟩, -⟩ := mem_dirs.mp (queried.subset listed)
  obtain ⟨⟨c, -, found'⟩, -⟩ := mem_dirs.mp (queried.subset listed')
  by_contra same
  rw [Apart, not_or, not_not, not_not] at same
  have grouped : inGroup g c = true := by
    obtain ⟨dir, package⟩ := inGroup_iff.mp (limitOf_inGroup found')
    exact inGroup_iff.mpr ⟨same.1 ▸ dir, same.2 ▸ package⟩
  exact differ (Option.some.inj ((limitOf_eq found grouped).symm.trans found'))

/-- The builds that are gone through are those beyond the newest ones. -/
theorem beyond_iff {order : List BuildGroup} (queried : order.Perm db.dirs) :
    (∃ g ∈ order, b ∈ db.deleteBuilds g) ↔ b ∈ db.builds ∧ db.Beyond b := by
  constructor
  · rintro ⟨g, listed, row⟩
    obtain ⟨⟨c, -, found⟩, -⟩ := mem_dirs.mp (queried.subset listed)
    obtain ⟨member, grouped, enough⟩ := mem_deleteBuilds.mp row
    exact ⟨member, g, limitOf_eq found grouped, enough⟩
  · rintro ⟨member, g, found, enough⟩
    have grouped := limitOf_inGroup found
    have several : db.newer b < db.builds.countP (inGroup g) := by
      -- The build itself is in the group, and it is not newer than itself.
      obtain ⟨dir, package⟩ := inGroup_iff.mp grouped
      have split := List.countP_eq_countP_filter_add db.builds (inGroup g) fun c =>
        decide (b.id < c.id)
      have newer_builds : db.newer b =
          (db.builds.filter fun c => decide (b.id < c.id)).countP (inGroup g) := by
        rw [List.countP_filter, newer, dir, package]
        rfl
      have itself : 0 < (db.builds.filter fun c => !decide (b.id < c.id)).countP (inGroup g) :=
        List.countP_pos_iff.mpr ⟨b, List.mem_filter.mpr ⟨member, by simp⟩, grouped⟩
      omega
    have listed : g ∈ db.dirs := mem_dirs.mpr ⟨⟨b, member, found⟩, by omega⟩
    exact ⟨g, queried.symm.subset listed, mem_deleteBuilds.mpr ⟨member, grouped, enough⟩⟩

/-- The rows to delete are different ones. -/
theorem deletedRows_nodup {groups : List BuildGroup} (apart : groups.Pairwise Apart) :
    (db.deletedRows groups).Nodup := by
  rw [deletedRows, List.nodup_flatMap]
  refine ⟨fun g _ => deleteBuilds_nodup.sublist List.filter_sublist, apart.imp ?_⟩
  intro g h differ b first second
  have inFirst := (mem_deleteBuilds.mp (List.mem_of_mem_filter first)).2.1
  have inSecond := (mem_deleteBuilds.mp (List.mem_of_mem_filter second)).2.1
  rw [differ.not_both inFirst] at inSecond
  contradiction

/-! ## The outcome -/

/-- No build of a persistent project is beyond the newest ones. -/
def NonePersistent (db : CleaningTables) : Prop :=
  ∀ b ∈ db.builds, db.Beyond b → b.persistent = false

/-- The loops run through exactly if no build of a persistent project is in the way; then exactly
the obsolete builds are deleted. -/
theorem cleanOldBuilds_spec {order : List BuildGroup} (queried : order.Perm db.dirs) :
    (db.NonePersistent ∧ ∃ after, db.cleanOldBuilds order = .ok after ∧ db.Cleaned after) ∨
      (¬ db.NonePersistent ∧ db.cleanOldBuilds order = .error .insufficientRights) := by
  have apart := dirs_apart queried
  by_cases free : db.NonePersistent
  · refine Or.inl ⟨free, ?_⟩
    have rows_free : ∀ g ∈ order, ∀ b ∈ db.deleteBuilds g, b.persistent = false := by
      intro g listed b row
      obtain ⟨member, beyond⟩ := (beyond_iff queried).mp ⟨g, listed, row⟩
      exact free b member beyond
    obtain ⟨after, cleaned, deletes⟩ := cleanGroups_ok apart rows_free
    have mem_rows : ∀ b, b ∈ db.deletedRows order ↔ b ∈ db.builds ∧ db.Obsolete b := by
      intro b
      have found := @beyond_iff db b order queried
      simp only [deletedRows, List.mem_flatMap, List.mem_filter]
      constructor
      · rintro ⟨g, listed, row, finished⟩
        obtain ⟨member, beyond⟩ := found.mp ⟨g, listed, row⟩
        exact ⟨member, beyond, free b member beyond, finished⟩
      · rintro ⟨member, beyond, -, finished⟩
        obtain ⟨g, listed, row⟩ := found.mpr ⟨member, beyond⟩
        exact ⟨g, listed, row, finished⟩
    refine ⟨after, cleaned, ?_, ?_, deletes.packages⟩
    · rw [deletes.builds]
      refine List.filter_congr fun c member => ?_
      have gone : c.id ∈ (db.deletedRows order).map BuildRow.id ↔ db.Obsolete c := by
        rw [List.mem_map]
        constructor
        · rintro ⟨b, row, same⟩
          obtain ⟨inside, obsolete⟩ := (mem_rows b).mp row
          exact db.eq_of_id inside member same ▸ obsolete
        · exact fun obsolete => ⟨c, (mem_rows c).mpr ⟨member, obsolete⟩, rfl⟩
      simp only [gone]
    · refine ⟨db.deletedRows order, ?_, deletes.actions⟩
      have rows : db.builds.Nodup := List.Nodup.of_map BuildRow.id db.distinct
      refine (List.perm_ext_iff_of_nodup (deletedRows_nodup apart)
        (rows.sublist List.filter_sublist)).mpr fun b => ?_
      rw [mem_rows, List.mem_filter, decide_eq_true_eq]
  · refine Or.inr ⟨free, cleanGroups_error apart ?_⟩
    simp only [NonePersistent, not_forall, Bool.not_eq_false] at free
    obtain ⟨b, member, beyond, persistent⟩ := free
    obtain ⟨g, listed, row⟩ := (beyond_iff queried).mpr ⟨member, beyond⟩
    exact ⟨g, listed, b, row, persistent⟩

/-- `clean_old_builds` returns exactly if no build of a persistent project is beyond the newest
ones of its group; and the command cleans the old builds exactly if that is so or there is nothing
to delete. -/
theorem cleanOldBuilds_iff {order : List BuildGroup} (queried : order.Perm db.dirs) :
    ((∃ after, db.cleanOldBuilds order = .ok after) ↔ db.NonePersistent) ∧
      (db.Cleaned (db.cleanOldBuildsCommand order) ↔
        db.NonePersistent ∨ ∀ b ∈ db.builds, ¬ db.Obsolete b) := by
  rcases cleanOldBuilds_spec queried with ⟨free, after, returned, cleaned⟩ | ⟨stuck, raised⟩
  · refine ⟨iff_of_true ⟨after, returned⟩ free, iff_of_true ?_ (Or.inl free)⟩
    rw [cleanOldBuildsCommand, returned]
    exact cleaned
  · have same : db.cleanOldBuildsCommand order = db := by rw [cleanOldBuildsCommand, raised]
    refine ⟨iff_of_false ?_ stuck, ?_⟩
    · rintro ⟨after, returned⟩
      rw [raised] at returned
      contradiction
    · rw [same]
      constructor
      · intro cleaned
        refine Or.inr fun b member obsolete => ?_
        have kept := cleaned.builds ▸ member
        simp [obsolete] at kept
      · intro nothing
        have empty := nothing.resolve_left stuck
        refine ⟨?_, ⟨[], ?_, by simp⟩, rfl⟩
        · exact (List.filter_eq_self.mpr fun b member => by simp [empty b member]).symm
        · rw [List.filter_eq_nil_iff.mpr fun b member => by simp [empty b member]]

/-- A finished build of the package 1 or 2 in the directory of the same number. -/
def sampleRow (id packageId : Nat) (persistent : Bool) : BuildRow where
  stored :=
    { build := { id := id, sourceStatus := .failed, buildChroots := [] }
      distinct := List.nodup_nil
      copr := ⟨"jdoe", "foo", false, false, .backend⟩
      coprDirname := some "foo" }
  coprDirId := some packageId
  packageId := some packageId
  persistent := persistent

/-- Two packages of which one build shall be kept, with two builds each; the project of the first
one may be persistent. -/
def sampleTables (persistent : Bool) : CleaningTables where
  builds := [sampleRow 1 1 persistent, sampleRow 2 1 persistent, sampleRow 3 2 false,
    sampleRow 4 2 false]
  distinct := by cases persistent <;> decide
  packages := [⟨1, some 1⟩, ⟨2, some 1⟩]
  actions := []

/-- Without a persistent project the old builds of both packages are cleaned. -/
theorem sampleTables_cleaned : (sampleTables false).Cleaned
    ((sampleTables false).cleanOldBuildsCommand (sampleTables false).dirs) :=
  (cleanOldBuilds_iff (List.Perm.refl (sampleTables false).dirs)).2.mpr
    (Or.inl (by decide : ∀ b ∈ (sampleTables false).builds, _))

/-- A build of a persistent project keeps the builds of another one from being cleaned. -/
theorem persistent_build_blocks : ¬ ∀ (db : CleaningTables) (order : List BuildGroup),
    order.Perm db.dirs → db.Cleaned (db.cleanOldBuildsCommand order) := by
  intro always
  have cleaned := always (sampleTables true) (sampleTables true).dirs (List.Perm.refl _)
  have kept := congrArg (List.map BuildRow.id) cleaned.builds
  revert kept
  decide

end CleaningTables

end Copr
