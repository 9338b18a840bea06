import Copr.Lib.Traces
import Copr.Frontend.ImportedSources
import Copr.Frontend.TaskIds
import Mathlib.Data.List.Flatten

/-!
# Cancel requests and their key

`what` is the primary key of `CancelRequest`. Requests are added when a user cancels builds and
when a mock chroot reaches the end of its life; the backend removes one when it has canceled the
task. A transaction that adds a request under a key that is taken fails and is rolled back.
-/

namespace Copr

open Traces

namespace BuildsLogic

/-- The message of the `BadRequest` of `cancel_builds`. -/
def cancelRefusal (noPermission notCancelable : List Nat) : String :=
  (if noPermission.isEmpty then ""
  else
    "You don't have permissions to cancel build(s) " ++
      ", ".intercalate (noPermission.map toString) ++ ".\n") ++
  (if notCancelable.isEmpty then ""
  else "Build(s) " ++ ", ".intercalate (notCancelable.map toString) ++ " cannot be canceled.\n")

/-- `cancel_builds`: all builds are canceled, or none. -/
def cancelBuilds (canBuildIn : Build → Bool) (buildIds : List Nat) (db : Database) :
    Except String Database :=
  let builds := db.builds.filter fun b => decide (b.id ∈ buildIds)
  let noPermission := builds.filter fun b => !canBuildIn b
  let notCancelable := builds.filter fun b => canBuildIn b && !b.cancelable
  let toCancel := builds.filter fun b => canBuildIn b && b.cancelable
  if noPermission.isEmpty && notCancelable.isEmpty then
    .ok
      { db with
        builds := db.builds.map fun b =>
          if b.id ∈ toCancel.map Build.id then { b with canceled := true } else b
        cancelRequests := db.cancelRequests ++ toCancel.flatMap cancelBuildRequests }
  else .error (cancelRefusal (noPermission.map Build.id) (notCancelable.map Build.id))

end BuildsLogic

/-- What is done in one transaction. -/
inductive Transaction
  /-- An operation on the builds; a user cancels one, a mock chroot reaches the end of its life,
  and the backend reports a canceled task by messages. -/
  | operation (op : Operation)
  /-- `cancel_builds` by a user who can build in the projects of some builds. -/
  | cancelBuilds (canBuildIn : Build → Bool) (buildIds : List Nat)

namespace Database

/-- What a transaction asks to commit; `none` is an error response before. -/
def prepare (db : Database) : Transaction → Option Database
  | .operation op => db.operate op
  | .cancelBuilds canBuildIn buildIds => (BuildsLogic.cancelBuilds canBuildIn buildIds db).toOption

/-- The primary key refuses what the transaction asks to commit. -/
def integrityError (db : Database) (t : Transaction) : Bool :=
  (db.prepare t).any fun db' => !decide db'.cancelRequests.Nodup

/-- The database after a transaction, which is rolled back on an integrity error. -/
def transact (db : Database) (t : Transaction) : Database :=
  if db.integrityError t then db else (db.prepare t).getD db

/-- The transaction cancels this chroot of a build: the user cancels the build, or the end of
life takes the chroot. -/
def cancels (db : Database) (t : Transaction) (b : Build) (c : BuildChroot) : Bool :=
  match t with
  | .operation (.message (.cancelBuild buildId)) => decide (b.id = buildId) && b.cancelable
  | .operation (.message (.cancelBuildChrootsByMock mockChroot)) =>
    BuildsLogic.canceledByMock mockChroot c
  | .operation _ => false
  | .cancelBuilds canBuildIn buildIds =>
    decide (b.id ∈ buildIds) && db.builds.all fun other =>
      !decide (other.id ∈ buildIds) || canBuildIn other && other.cancelable

/-- The backend has not answered an earlier cancelation of the chroot. -/
def Unanswered (db : Database) (b : Build) (c : BuildChroot) : Prop :=
  b.chrootTaskId c ∈ db.cancelRequests

/-- Every earlier cancelation of a chroot that is canceled now has been answered. -/
def EarlierAnswered (db : Database) (t : Transaction) : Prop :=
  ∀ b ∈ db.builds, ∀ c ∈ b.buildChroots, db.cancels t b c = true → ¬ db.Unanswered b c

/-- Whether the backend has answered is decided. -/
instance (db : Database) (b : Build) (c : BuildChroot) : Decidable (db.Unanswered b c) :=
  inferInstanceAs (Decidable (_ ∈ _))

/-- Whether earlier cancelations have been answered is decided. -/
instance (db : Database) (t : Transaction) : Decidable (db.EarlierAnswered t) :=
  inferInstanceAs (Decidable (∀ b ∈ db.builds, ∀ c ∈ b.buildChroots,
    db.cancels t b c = true → ¬ db.Unanswered b c))

/-- The requests that a transaction adds for a build. -/
def requested (t : Transaction) (b : Build) : List String :=
  match t with
  | .operation (.message m) => b.addedRequests m
  | .operation _ => []
  | .cancelBuilds _ buildIds => if b.id ∈ buildIds then BuildsLogic.cancelBuildRequests b else []

/-- The requests that a transaction leaves. -/
def keptRequests (db : Database) : Transaction → List String
  | .operation (.message (.buildTaskCanceled taskId)) =>
    db.cancelRequests.filter fun what => decide (what ≠ taskId)
  | _ => db.cancelRequests

variable {db db' : Database} {t : Transaction} {b : Build} {c : BuildChroot} {what : String}

/-- A build that can be canceled is not canceled yet. -/
theorem active_of_cancelable (cancelable : b.cancelable = true) : b.canceled = false := by
  by_contra flag
  rw [Bool.not_eq_false] at flag
  simp [Build.cancelable, Build.finished, Build.finishedEarly, flag] at cancelable

/-- All tasks of a build that can be canceled are requested. -/
theorem cancelBuildRequests_eq (b : Build) :
    BuildsLogic.cancelBuildRequests b = if b.cancelable then b.taskIds else [] := by
  unfold BuildsLogic.cancelBuildRequests
  by_cases cancelable : b.cancelable = true
  · rw [if_pos cancelable, active_of_cancelable cancelable, cancelable]
    rfl
  · rw [if_neg cancelable, Bool.eq_false_of_not_eq_true cancelable]
    rfl

/-- What the chosen entries of a list contribute. -/
theorem flatMap_of_filter {α β : Type*} (p : α → Bool) (f : α → List β) (l : List α) :
    (l.filter p).flatMap f = l.flatMap fun a => if p a then f a else [] := by
  induction l with
  | nil => rfl
  | cons a l ih =>
    rw [List.filter_cons, List.flatMap_cons, ← ih]
    split <;> simp

/-- `cancel_builds` goes through when all its builds may be canceled, and then takes them all. -/
theorem cancelBuilds_toOption (canBuildIn : Build → Bool) (buildIds : List Nat) :
    (BuildsLogic.cancelBuilds canBuildIn buildIds db).toOption =
      if (db.builds.all fun b =>
          !decide (b.id ∈ buildIds) || canBuildIn b && b.cancelable) = true then
        some { db with
          builds := db.builds.map fun b =>
            if b.id ∈ buildIds then { b with canceled := true } else b
          cancelRequests := db.cancelRequests ++
            db.builds.flatMap (requested (.cancelBuilds canBuildIn buildIds)) }
      else none := by
  have taken : ∀ b : Build, (!decide (b.id ∈ buildIds) || canBuildIn b && b.cancelable) = true ↔
      (b.id ∈ buildIds → canBuildIn b = true ∧ b.cancelable = true) := fun b => by
    simp [imp_iff_not_or]
  simp only [List.all_eq_true, taken]
  split
  · rename_i all
    have toCancel : ((db.builds.filter fun b => decide (b.id ∈ buildIds)).filter fun b =>
        canBuildIn b && b.cancelable) = db.builds.filter fun b => decide (b.id ∈ buildIds) := by
      refine List.filter_eq_self.mpr fun b listed => ?_
      obtain ⟨member, chosen⟩ := List.mem_filter.mp listed
      obtain ⟨permitted, cancelable⟩ := all b member (of_decide_eq_true chosen)
      rw [permitted, cancelable]
      rfl
    have noPermission : ((db.builds.filter fun b => decide (b.id ∈ buildIds)).filter fun b =>
        !canBuildIn b) = [] := by
      refine List.filter_eq_nil_iff.mpr fun b listed => ?_
      obtain ⟨member, chosen⟩ := List.mem_filter.mp listed
      simp [(all b member (of_decide_eq_true chosen)).1]
    have notCancelable : ((db.builds.filter fun b => decide (b.id ∈ buildIds)).filter fun b =>
        canBuildIn b && !b.cancelable) = [] := by
      refine List.filter_eq_nil_iff.mpr fun b listed => ?_
      obtain ⟨member, chosen⟩ := List.mem_filter.mp listed
      simp [(all b member (of_decide_eq_true chosen)).2]
    simp only [BuildsLogic.cancelBuilds, toCancel, noPermission, notCancelable]
    refine congrArg some (congrArg₂ (fun builds requests =>
      { db with
        builds := builds
        cancelRequests := db.cancelRequests ++ requests }) ?_ ?_)
    · refine List.map_congr_left fun b member => ?_
      have listed : b.id ∈ (db.builds.filter fun b => decide (b.id ∈ buildIds)).map Build.id ↔
          b.id ∈ buildIds := by
        constructor
        · intro there
          obtain ⟨other, chosen, same⟩ := List.mem_map.mp there
          exact same ▸ of_decide_eq_true (List.mem_filter.mp chosen).2
        · intro chosen
          exact List.mem_map_of_mem (List.mem_filter.mpr ⟨member, decide_eq_true chosen⟩)
      simp only [listed]
    · rw [flatMap_of_filter]
      simp only [decide_eq_true_eq]
      rfl
  · rename_i some_refuses
    push Not at some_refuses
    obtain ⟨b, member, chosen, refuses⟩ := some_refuses
    have listed : b ∈ db.builds.filter fun b => decide (b.id ∈ buildIds) :=
      List.mem_filter.mpr ⟨member, decide_eq_true chosen⟩
    simp only [BuildsLogic.cancelBuilds]
    rw [if_neg]
    · rfl
    · intro both
      obtain ⟨allowed, able⟩ := Bool.and_eq_true_iff.mp both
      rw [List.isEmpty_iff, List.filter_eq_nil_iff] at allowed able
      have permitted : canBuildIn b = true := by simpa using allowed b listed
      have cancelable := able b listed
      simp only [permitted, Bool.true_and] at cancelable
      exact refuses permitted (by simpa using cancelable)

/-- The table of requests that a transaction asks to commit. -/
theorem prepare_requests (prepared : db.prepare t = some db') :
    db'.cancelRequests = db.keptRequests t ++ db.builds.flatMap (requested t) := by
  have nothing : db.builds.flatMap (fun _ => ([] : List String)) = [] := by simp
  cases t with
  | operation op =>
    cases operate_operated prepared with
    | message m => cases m <;> rfl
    | add cached s grown batchId set =>
      show grown.cancelRequests = db.cancelRequests ++ db.builds.flatMap fun _ => []
      rw [nothing, List.append_nil, (setupBatch_rebatched set).cancelRequests]
    | fork b chroots member =>
      show db.cancelRequests = db.cancelRequests ++ db.builds.flatMap fun _ => []
      rw [nothing, List.append_nil]
    | rawhideToRelease buildId rawhide dest =>
      show db.cancelRequests = db.cancelRequests ++ db.builds.flatMap fun _ => []
      rw [nothing, List.append_nil]
    | markAsFailed buildId =>
      show db.cancelRequests = db.cancelRequests ++ db.builds.flatMap fun _ => []
      rw [nothing, List.append_nil]
    | deleteBuild buildId finished =>
      show db.cancelRequests = db.cancelRequests ++ db.builds.flatMap fun _ => []
      rw [nothing, List.append_nil]
  | cancelBuilds canBuildIn buildIds =>
    rw [prepare, cancelBuilds_toOption] at prepared
    split at prepared
    · obtain rfl := Option.some.inj prepared
      rfl
    · contradiction

/-- What is requested for a build are tasks of it, none twice. -/
theorem requested_sublist (t : Transaction) (b : Build) : (requested t b).Sublist b.taskIds := by
  have user : (BuildsLogic.cancelBuildRequests b).Sublist b.taskIds := by
    rw [cancelBuildRequests_eq]
    split
    · exact List.Sublist.refl _
    · exact List.nil_sublist _
  unfold requested
  split
  · rename_i m
    cases m with
    | cancelBuild buildId =>
      simp only [Build.addedRequests]
      split
      · exact user
      · exact List.nil_sublist _
    | cancelBuildChrootsByMock mockChroot =>
      exact (List.filter_sublist.map _).trans (List.sublist_cons_self _ _)
    | _ => exact List.nil_sublist _
  · exact List.nil_sublist _
  · split
    · exact user
    · exact List.nil_sublist _

/-- What is requested besides the source build, which is not canceled yet, are chroots that the
transaction cancels. -/
theorem cancels_of_requested (prepared : db.prepare t = some db') (asked : what ∈ requested t b) :
    (what = b.taskId ∧ b.canceled = false) ∨
      ∃ c ∈ b.buildChroots, db.cancels t b c = true ∧ what = b.chrootTaskId c := by
  have user : what ∈ BuildsLogic.cancelBuildRequests b → (∀ c, b.cancelable = true →
      db.cancels t b c = true) → (what = b.taskId ∧ b.canceled = false) ∨
        ∃ c ∈ b.buildChroots, db.cancels t b c = true ∧ what = b.chrootTaskId c := by
    intro listed takes
    have cancelable : b.cancelable = true := by
      by_contra finished
      rw [cancelBuildRequests_eq, if_neg finished] at listed
      contradiction
    rw [cancelBuildRequests_eq, if_pos cancelable] at listed
    rcases List.mem_cons.mp listed with source | chroot
    · exact .inl ⟨source, active_of_cancelable cancelable⟩
    · obtain ⟨c, inside, rfl⟩ := List.mem_map.mp chroot
      exact .inr ⟨c, inside, takes c cancelable, rfl⟩
  cases t with
  | operation op =>
    cases op with
    | message m =>
      cases m with
      | cancelBuild buildId =>
        simp only [requested, Build.addedRequests] at asked
        split at asked
        · rename_i same
          refine user asked fun c cancelable => ?_
          simp [cancels, same, cancelable]
        · contradiction
      | cancelBuildChrootsByMock mockChroot =>
        obtain ⟨c, taken, rfl⟩ := List.mem_map.mp asked
        exact .inr ⟨c, (List.mem_filter.mp taken).1, (List.mem_filter.mp taken).2, rfl⟩
      | _ => contradiction
    | _ => contradiction
  | cancelBuilds canBuildIn buildIds =>
    rw [prepare, cancelBuilds_toOption] at prepared
    split at prepared
    · rename_i all
      simp only [requested] at asked
      split at asked
      · rename_i chosen
        refine user asked fun c _ => ?_
        rw [cancels, all, decide_eq_true chosen]
        rfl
      · contradiction
    · contradiction

/-- Every chroot that a transaction cancels is requested, and the transaction is not refused
before. -/
theorem requested_of_cancels (member : b ∈ db.builds) (inside : c ∈ b.buildChroots)
    (takes : db.cancels t b c = true) :
    b.chrootTaskId c ∈ requested t b ∧ (db.prepare t).isSome = true ∧
      db.keptRequests t = db.cancelRequests := by
  have user : b.cancelable = true → b.chrootTaskId c ∈ BuildsLogic.cancelBuildRequests b := by
    intro cancelable
    rw [cancelBuildRequests_eq, if_pos cancelable]
    exact List.mem_cons_of_mem _ (List.mem_map_of_mem inside)
  cases t with
  | operation op =>
    cases op with
    | message m =>
      cases m with
      | cancelBuild buildId =>
        obtain ⟨same, cancelable⟩ := Bool.and_eq_true_iff.mp takes
        refine ⟨?_, rfl, rfl⟩
        simp only [requested, Build.addedRequests]
        rw [if_pos (of_decide_eq_true same)]
        exact user cancelable
      | cancelBuildChrootsByMock mockChroot =>
        exact ⟨List.mem_map_of_mem (List.mem_filter.mpr ⟨inside, takes⟩), rfl, rfl⟩
      | _ => contradiction
    | _ => contradiction
  | cancelBuilds canBuildIn buildIds =>
    obtain ⟨chosen, all⟩ := Bool.and_eq_true_iff.mp takes
    have own := List.all_eq_true.mp all b member
    rw [chosen, Bool.not_true, Bool.false_or] at own
    refine ⟨?_, ?_, rfl⟩
    · simp only [requested]
      rw [if_pos (of_decide_eq_true chosen)]
      exact user (Bool.and_eq_true_iff.mp own).2
    · rw [prepare, cancelBuilds_toOption, if_pos all]
      rfl

/-! ## What is known about the requests -/

/-- The keys of the tables, and that a source build is requested only once: its build is canceled
from then on, and stays so. -/
structure RequestsKnown (db : Database) : Prop where
  /-- The keys of builds. -/
  ids : db.IdsKnown
  /-- The constraint on chroots. -/
  chroots : db.Distinct
  /-- The primary key. -/
  key : db.cancelRequests.Nodup
  /-- The requests for source builds. -/
  sources : ∀ id : Nat, toString id ∈ db.cancelRequests →
    id < db.nextBuildId ∧ ∀ b ∈ db.builds, b.id = id → b.canceled = true

/-- The key refuses a transaction exactly if a chroot that it cancels waits for an answer. -/
theorem integrityError_iff (known : db.RequestsKnown) :
    db.integrityError t = false ↔ db.EarlierAnswered t := by
  cases prepared : db.prepare t with
  | none =>
    refine iff_of_true (by simp [integrityError, prepared]) fun b member c inside takes => ?_
    have there := (requested_of_cancels member inside takes).2.1
    rw [prepared] at there
    contradiction
  | some db' =>
    have added : (db.builds.flatMap (requested t)).Nodup :=
      (taskIds_nodup known.ids known.chroots).sublist
        (List.Sublist.flatMap_right _ fun b _ => requested_sublist t b)
    have kept : (db.keptRequests t).Sublist db.cancelRequests := by
      unfold keptRequests
      split
      · exact List.filter_sublist
      · exact List.Sublist.refl _
    have refused : db.integrityError t = false ↔ db'.cancelRequests.Nodup := by
      simp [integrityError, prepared]
    rw [refused, prepare_requests prepared, List.nodup_append]
    constructor
    · rintro ⟨-, -, apart⟩ b member c inside takes waiting
      obtain ⟨asked, -, all⟩ := requested_of_cancels member inside takes
      exact apart _ (all ▸ waiting) _ (List.mem_flatMap.mpr ⟨b, member, asked⟩) rfl
    · intro answered
      refine ⟨known.key.sublist kept, added, ?_⟩
      rintro what there _ new rfl
      obtain ⟨b, member, asked⟩ := List.mem_flatMap.mp new
      have waiting := kept.subset there
      rcases cancels_of_requested prepared asked with ⟨rfl, active⟩ | ⟨c, inside, takes, rfl⟩
      · have canceled := (known.sources b.id waiting).2 b member rfl
        rw [active] at canceled
        contradiction
      · exact answered b member c inside takes waiting

/-- What becomes of a row: it keeps its id and stays canceled, or it is new. -/
theorem operate_row {op : Operation} (operated : db.operate op = some db') :
    db.nextBuildId ≤ db'.nextBuildId ∧ ∀ b' ∈ db'.builds, b'.id = db.nextBuildId ∨
      ∃ b ∈ db.builds, b'.id = b.id ∧ (b.canceled = true → b'.canceled = true) := by
  cases operate_operated operated with
  | message m =>
    refine ⟨Nat.le_refl _, fun b' member => .inr ?_⟩
    obtain ⟨b, before, rfl⟩ := List.mem_map.mp member
    exact ⟨b, before, b.receive_id m, fun canceled => Build.receive_canceled canceled m⟩
  | add cached s grown batchId set =>
    have rebatched := setupBatch_rebatched set
    obtain ⟨batch, builds⟩ := rebatched.builds
    refine ⟨rebatched.nextBuildId ▸ Nat.le_succ _, fun b' member => ?_⟩
    rcases List.mem_append.mp member with old | new
    · rw [builds] at old
      obtain ⟨b, before, rfl⟩ := List.mem_map.mp old
      exact .inr ⟨b, before, rfl, id⟩
    · rw [List.mem_singleton.mp new]
      exact .inl rebatched.nextBuildId
  | fork b chroots inside =>
    refine ⟨Nat.le_succ _, fun b' member => ?_⟩
    rcases List.mem_append.mp member with old | new
    · exact .inr ⟨b', old, rfl, id⟩
    · rw [List.mem_singleton.mp new]
      exact .inl rfl
  | rawhideToRelease buildId rawhide dest =>
    refine ⟨Nat.le_refl _, fun b' member => .inr ?_⟩
    obtain ⟨b, before, rfl⟩ := List.mem_map.mp member
    obtain ⟨added, same⟩ := forkRawhideChroot_adds rawhide dest b
    refine ⟨b, before, ?_⟩
    split
    · rw [same]
      exact ⟨rfl, id⟩
    · exact ⟨rfl, id⟩
  | markAsFailed buildId =>
    refine ⟨Nat.le_refl _, fun b' member => .inr ?_⟩
    obtain ⟨b, before, rfl⟩ := List.mem_map.mp member
    refine ⟨b, before, ?_⟩
    split <;> exact ⟨rfl, id⟩
  | deleteBuild buildId finished =>
    exact ⟨Nat.le_refl _, fun b' member => .inr ⟨b', List.mem_of_mem_filter member, rfl, id⟩⟩

/-- A transaction that requests a source build cancels the build. -/
theorem canceled_of_requested (ids : db.IdsKnown) (prepared : db.prepare t = some db')
    (member : b ∈ db.builds) (asked : b.taskId ∈ requested t b) {b' : Build}
    (later : b' ∈ db'.builds) (same : b'.id = b.id) : b'.canceled = true := by
  have noChroot : ∀ c, b.taskId ≠ b.chrootTaskId c := toString_ne_chrootTaskId b.id b
  cases t with
  | operation op =>
    cases op with
    | message m =>
      obtain rfl := Option.some.inj prepared
      obtain ⟨old, before, rfl⟩ := List.mem_map.mp later
      obtain rfl := ids.eq before member ((old.receive_id m).symm.trans same)
      cases m with
      | cancelBuild buildId =>
        simp only [requested, Build.addedRequests] at asked
        split at asked
        · rename_i chosen
          rw [cancelBuildRequests_eq] at asked
          split at asked
          · rename_i cancelable
            simp [Build.receive, Build.addressed, Build.handle, BuildsLogic.cancelBuild, chosen,
              cancelable]
          · contradiction
        · contradiction
      | cancelBuildChrootsByMock mockChroot =>
        obtain ⟨c, -, chroot⟩ := List.mem_map.mp asked
        exact absurd chroot.symm (noChroot c)
      | _ => contradiction
    | _ => contradiction
  | cancelBuilds canBuildIn buildIds =>
    rw [prepare, cancelBuilds_toOption] at prepared
    split at prepared
    · obtain rfl := Option.some.inj prepared
      obtain ⟨old, before, rfl⟩ := List.mem_map.mp later
      have chosen : b.id ∈ buildIds := by
        by_contra other
        simp only [requested] at asked
        rw [if_neg other] at asked
        contradiction
      have own : old.id ∈ buildIds := by
        have kept : (if old.id ∈ buildIds then { old with canceled := true } else old).id =
            old.id := by split <;> rfl
        rw [← kept, same]
        exact chosen
      rw [if_pos own]
    · contradiction

/-- The keys of builds and the fate of rows after a transaction. -/
theorem prepare_rows (ids : db.IdsKnown) (distinct : db.Distinct)
    (prepared : db.prepare t = some db') :
    db'.IdsKnown ∧ db'.Distinct ∧ db.nextBuildId ≤ db'.nextBuildId ∧
      ∀ b' ∈ db'.builds, b'.id = db.nextBuildId ∨
        ∃ b ∈ db.builds, b'.id = b.id ∧ (b.canceled = true → b'.canceled = true) := by
  cases t with
  | operation op =>
    exact ⟨operate_idsKnown ids prepared, operate_distinct distinct prepared,
      operate_row prepared⟩
  | cancelBuilds canBuildIn buildIds =>
    rw [prepare, cancelBuilds_toOption] at prepared
    split at prepared
    · obtain rfl := Option.some.inj prepared
      have row : ∀ b : Build,
          (if b.id ∈ buildIds then { b with canceled := true } else b).id = b.id := by
        intro b
        split <;> rfl
      refine ⟨ids.map row rfl rfl, fun b' member => ?_, Nat.le_refl _, fun b' member => .inr ?_⟩
      · obtain ⟨b, before, rfl⟩ := List.mem_map.mp member
        have chroots := distinct b before
        split <;> exact chroots
      · obtain ⟨b, before, rfl⟩ := List.mem_map.mp member
        refine ⟨b, before, row b, fun canceled => ?_⟩
        split
        · rfl
        · exact canceled
    · contradiction

/-- A transaction that the key lets pass leaves what is known. -/
theorem prepare_known (known : db.RequestsKnown) (prepared : db.prepare t = some db')
    (key : db'.cancelRequests.Nodup) : db'.RequestsKnown := by
  obtain ⟨ids, chroots, grows, rows⟩ := prepare_rows known.ids known.chroots prepared
  refine ⟨ids, chroots, key, fun id there => ?_⟩
  rw [prepare_requests prepared] at there
  rcases List.mem_append.mp there with kept | added
  · have before : toString id ∈ db.cancelRequests := by
      unfold keptRequests at kept
      split at kept
      · exact List.mem_of_mem_filter kept
      · exact kept
    obtain ⟨bound, canceled⟩ := known.sources id before
    refine ⟨Nat.lt_of_lt_of_le bound grows, fun b' member same => ?_⟩
    rcases rows b' member with new | ⟨b, old, keeps, stays⟩
    · omega
    · exact stays (canceled b old (keeps.symm.trans same))
  · obtain ⟨b, member, asked⟩ := List.mem_flatMap.mp added
    rcases cancels_of_requested prepared asked with ⟨source, -⟩ | ⟨c, -, -, chroot⟩
    · obtain rfl : id = b.id := Text.toString_nat_inj source
      refine ⟨Nat.lt_of_lt_of_le (known.ids.bounded b member) grows, fun b' later same => ?_⟩
      exact canceled_of_requested known.ids prepared member asked later same
    · exact absurd chroot (toString_ne_chrootTaskId id b c)

/-- Every transaction leaves what is known. -/
theorem transact_known (known : db.RequestsKnown) (t : Transaction) :
    (db.transact t).RequestsKnown := by
  unfold transact
  split
  · exact known
  · rename_i passes
    cases prepared : db.prepare t with
    | none => exact known
    | some db' =>
      refine prepare_known known prepared ?_
      simpa [integrityError, prepared] using passes

end Database

namespace Sample

/-- The end of the life of the first mock chroot. -/
def endOfLife : Transaction := .operation (.message (.cancelBuildChrootsByMock fedora))

/-- A user cancels build 1. -/
def userCancel : Transaction := .operation (.message (.cancelBuild 1))

/-- A user cancels build 1, by a list. -/
def userCancels : Transaction := .cancelBuilds (fun _ => true) [1]

/-- The backend reports that the first chroot of build 1 is canceled. -/
def chrootAnswered : Transaction :=
  .operation (.message (.buildTaskCanceled "1-fedora-39-x86_64"))

end Sample

namespace Database

variable {db : Database}

/-- Along every list of transactions from a database without requests, none fails on the key of
cancel requests exactly if, whenever a chroot is canceled, every earlier cancelation of it has
been answered. -/
theorem cancel_never_conflicts_iff (ids : db.IdsKnown) (chroots : db.Distinct)
    (idle : db.cancelRequests = []) (ts : List Transaction) :
    EachStep transact (fun db t => db.integrityError t = false) db ts ↔
      EachStep transact EarlierAnswered db ts := by
  have start : db.RequestsKnown := by
    refine ⟨ids, chroots, ?_, fun id there => ?_⟩
    · rw [idle]
      exact List.nodup_nil
    · rw [idle] at there
      contradiction
  exact eachStep_congr (I := RequestsKnown) (fun _ t known => transact_known known t)
    (fun _ _ known => integrityError_iff known) start

/-- The empty database has no builds with the same id. -/
theorem empty_idsKnown : empty.IdsKnown := ⟨List.nodup_nil, List.forall_mem_nil _⟩

/-- The empty database has no chroots. -/
theorem empty_distinct : empty.Distinct := List.forall_mem_nil _

/-- The condition is met when the backend answers in between. -/
theorem cancel_never_conflicts_answered :
    EachStep transact (fun db t => db.integrityError t = false) empty
      [.operation Sample.submitted, Sample.endOfLife, Sample.chrootAnswered, Sample.userCancels,
        Sample.chrootAnswered, Sample.endOfLife] :=
  (cancel_never_conflicts_iff empty_idsKnown empty_distinct rfl _).mpr (by decide)

/-- A mock chroot reaches the end of its life, and a user cancels a build whose canceled chroot the
backend has not answered yet: the cancelation fails, and the build stays as it is. -/
theorem user_cancel_after_end_of_life :
    ¬ ∀ (db : Database) (ts : List Transaction), db.IdsKnown → db.Distinct →
      db.cancelRequests = [] →
      EachStep transact (fun db t => db.integrityError t = false) db ts := by
  intro never
  have fails := never empty [.operation Sample.submitted, Sample.endOfLife, Sample.userCancel]
    empty_idsKnown empty_distinct rfl
  revert fails
  decide

/-- So does the end of life after a cancelation by a user. -/
example : ¬ EachStep transact (fun db t => db.integrityError t = false) empty
    [.operation Sample.submitted, Sample.userCancel, Sample.endOfLife] := by decide

end Database

end Copr
