import Copr.Lib.Traces
import Copr.Frontend.DeletionStatus

/-!
# Whether chroots are removed without a notice

Besides what its users have unclicked, data of a chroot may be deleted only after its users were
notified in the current preservation period. `delete_notify` says that somebody was notified once;
it is described which operations have to find it unset so that it says this about the current
period and about the users of the chroot itself.
-/

namespace Copr

open Tables Traces

/-- What has happened, the newest operation first, with the database before each. -/
abbrev EolPast := List (EolDatabase × ChrootOperation)

/-- A database with what has happened to it. -/
structure EolHistory where
  /-- What has happened. -/
  past : EolPast
  /-- The database. -/
  db : EolDatabase

/-- One more operation happens. -/
def EolHistory.step (cfg : EolConfig) (h : EolHistory) (op : ChrootOperation) : EolHistory where
  past := (h.db, op) :: h.past
  db := h.db.step cfg op

namespace EolDatabase

variable (cfg : EolConfig) (db : EolDatabase) (k : ChrootKey)

/-- `alter-chroot` makes a chroot EOL. -/
def eols : ChrootOperation → Bool
  | .alterChroot .eol name _ =>
    decide (k.mockChroot = name) && (db.coprChroots.find k).any fun c => !c.deleted
  | _ => false

/-- `alter-chroot` activates the mock chroot of a chroot. -/
def activates : ChrootOperation → Bool
  | .alterChroot .activate name _ => decide (k.mockChroot = name)
  | _ => false

/-- The users of a project unclick a chroot. -/
def unclicks : ChrootOperation → Bool
  | .updateFromNames copr names unfinished _ =>
    !db.conflicts copr (db.mockChrootsFromNames names) unfinished &&
      (db.coprChroots.find k).any fun c =>
        db.toRemove copr (db.mockChrootsFromNames names) c && !c.deleted
  | _ => false

/-- The users of a project re-click a chroot. -/
def reClicks : ChrootOperation → Bool
  | .updateFromNames copr names unfinished _ =>
    !db.conflicts copr (db.mockChrootsFromNames names) unfinished &&
      (db.coprChroots.find k).any fun c => reEnables copr (db.mockChrootsFromNames names) c
  | _ => false

/-- The rolling policy marks a chroot. -/
def marks : ChrootOperation → Bool
  | .triggerRollingEolPolicy now => (db.coprChroots.find k).any (db.lifeless cfg now)
  | _ => false

/-- `Notifier.notify` succeeds for a chroot, or `expire` is called on it. -/
def notifies : ChrootOperation → Bool
  | .expire k' _ => decide (k = k') && (db.coprChroots.find k).isSome
  | .notifyOutdatedChroots all emailFilter sendMail now =>
    decide (k ∈ db.notified cfg all emailFilter sendMail now)
  | _ => false

end EolDatabase

namespace EolPast

variable (cfg : EolConfig) (k : ChrootKey)

/-- The chroot is EOL. -/
def eol : EolPast → Bool := since (fun _ e => e.1.eols k e.2) fun _ e =>
  EolDatabase.activates k e.2

/-- Its users have unclicked the chroot. -/
def unclicked : EolPast → Bool :=
  since (fun _ e => e.1.unclicks k e.2) fun _ e => e.1.reClicks k e.2

/-- The chroot becomes EOL or is marked by the rolling policy. -/
def restarts (past : EolPast) (db : EolDatabase) (op : ChrootOperation) : Bool :=
  db.eols k op && !eol k past || db.marks cfg k op

/-- Its users were notified since the chroot last became EOL or was last marked. -/
def noticed : EolPast → Bool :=
  since (fun _ e => e.1.notifies cfg k e.2) fun past e => restarts cfg k past e.1 e.2

end EolPast

/-- The chroot that a delete action is for. -/
def DeleteChroot.key (a : DeleteChroot) : ChrootKey := ⟨a.coprId, a.chrootname⟩

namespace EolHistory

variable (cfg : EolConfig) (h : EolHistory)

/-- No unexpected removals: whenever `delete-outdated-chroots` is run, it sends delete actions only
for chroots that their users have unclicked or were notified about. -/
def NoUnexpectedRemovals : Prop :=
  ∀ now, ∀ a ∈ (h.db.deleteOutdatedChroots now).deleteActions.drop h.db.deleteActions.length,
    EolPast.unclicked a.key h.past = false → EolPast.noticed cfg a.key h.past = true

/-- An operation does not take an old notice, or one for another chroot, for a new one. -/
def Careful : ChrootOperation → Prop
  | .alterChroot .eol name _ =>
    ∀ c ∈ h.db.coprChroots.rows, c.mockChroot = name → c.deleted = false →
      EolPast.eol c.key h.past = false → c.deleteNotify = none
  | .triggerRollingEolPolicy now =>
    ∀ c ∈ h.db.coprChroots.rows, h.db.lifeless cfg now c = true →
      c.deleteNotify = none ∧ (c.deleted = true → EolPast.unclicked c.key h.past = true)
  | .forkProject copr id _ _ _ =>
    (h.db.coprs.find copr).isSome = true → h.db.coprs.find id = none →
      ∀ c ∈ h.db.activeCoprChroots copr, c.deleteNotify = none
  | .rawhideToRelease copr rawhide dest freshBuilds _ =>
    h.db.Known dest → h.db.coprChroots.find ⟨copr, dest⟩ = none → freshBuilds = false →
      ∀ c, h.db.coprChroots.find ⟨copr, rawhide⟩ = some c →
        c.deleteNotify = none ∧ (c.deleted = true → c.deleteAfter = none)
  | .extend k _ =>
    ∀ c, h.db.coprChroots.find k = some c → c.deleted = true →
      EolPast.unclicked k h.past = false → c.deleteNotify ≠ none
  | _ => True

/-- What is known about a chroot whose users were notified or not, and have unclicked it or not: a
notice is theirs, and if it is going to be deleted although they have not unclicked it there is
one. -/
structure RowSound (c : CoprChroot) (noticed unclicked : Bool) : Prop where
  /-- `delete_notify` is about them and about the current period. -/
  notice : c.deleteNotify ≠ none → noticed = true
  /-- A chroot that was deleted is not deleted again without one. -/
  again : c.deleted = true → unclicked = false → c.deleteAfter ≠ none → noticed = true

/-- The invariant. -/
def Sound : Prop :=
  ∀ k c, h.db.coprChroots.find k = some c →
    RowSound c (EolPast.noticed cfg k h.past) (EolPast.unclicked k h.past)

variable {cfg h}

/-- Users who were notified are owed nothing. -/
theorem RowSound.of_noticed {c : CoprChroot} {unclicked : Bool} : RowSound c true unclicked :=
  ⟨fun _ => rfl, fun _ _ _ => rfl⟩

/-- Nothing is owed for a chroot without a notice that is not deleted or not going to be deleted. -/
theorem RowSound.of_unset {c : CoprChroot} {noticed unclicked : Bool}
    (notice : c.deleteNotify = none) (kept : c.deleted = false ∨ c.deleteAfter = none) :
    RowSound c noticed unclicked := by
  refine ⟨fun set => absurd notice set, fun deleted _ set => ?_⟩
  rcases kept with enabled | unset
  · rw [enabled] at deleted
    cases deleted
  · exact absurd unset set

/-- Only expired chroots are deleted, so the invariant rules out unexpected removals. -/
theorem Sound.noUnexpectedRemovals (sound : h.Sound cfg) : h.NoUnexpectedRemovals cfg := by
  intro now a sent unclicked
  simp only [EolDatabase.deleteOutdatedChroots, EolDatabase.updateChroots] at sent
  rw [List.drop_left] at sent
  obtain ⟨c, deleted, action⟩ := List.mem_filterMap.mp sent
  obtain ⟨row, expired⟩ := EolDatabase.mem_deletedChroots deleted
  have key : a.key = c.key := by
    obtain ⟨copr, found, rfl⟩ := Option.map_eq_some_iff.mp action
    have named : copr.id = c.copr := (Table.find_eq_some.mp found).2
    simp [DeleteChroot.key, CoprChroot.key, named]
  rw [key] at unclicked ⊢
  have here := sound c.key c (Table.find_of_mem row)
  obtain ⟨scheduled, reason⟩ := CoprChroot.deleteStatus_expired expired
  rcases reason with gone | notice
  · exact here.again gone unclicked (Option.isSome_iff_ne_none.mp scheduled)
  · exact here.notice (Option.isSome_iff_ne_none.mp notice)

section Step

variable {k : ChrootKey} {c : CoprChroot} {op : ChrootOperation}

/-- What is known about a chroot after an operation. -/
abbrev RowSoundAfter (cfg : EolConfig) (h : EolHistory) (op : ChrootOperation) (k : ChrootKey)
    (c : CoprChroot) : Prop :=
  RowSound c (EolPast.noticed cfg k (h.step cfg op).past) (EolPast.unclicked k (h.step cfg op).past)

/-- An operation that neither notifies nor starts a period keeps what is known about notices. -/
theorem noticed_step (silent : h.db.notifies cfg k op = false)
    (same : EolPast.restarts cfg k h.past h.db op = false) :
    EolPast.noticed cfg k (h.step cfg op).past = EolPast.noticed cfg k h.past :=
  since_cons_of_neither silent same

/-- An operation with which nothing is clicked keeps what is known about clicks. -/
theorem unclicked_step (still : h.db.unclicks k op = false) (same : h.db.reClicks k op = false) :
    EolPast.unclicked k (h.step cfg op).past = EolPast.unclicked k h.past :=
  since_cons_of_neither still same

/-- After an operation that does none of this, what has to be known is what was known. -/
theorem rowSoundAfter_iff (silent : h.db.notifies cfg k op = false)
    (same : EolPast.restarts cfg k h.past h.db op = false) (still : h.db.unclicks k op = false)
    (kept : h.db.reClicks k op = false) : RowSoundAfter cfg h op k c ↔
      RowSound c (EolPast.noticed cfg k h.past) (EolPast.unclicked k h.past) := by
  unfold RowSoundAfter
  rw [noticed_step silent same, unclicked_step still kept]

/-- The step for `alter-chroot`. -/
theorem rowSound_alterChroot {action : AlterChrootAction} {name : String} {now : DateTime}
    (there : h.db.coprChroots.find k = some c)
    (sound : RowSound c (EolPast.noticed cfg k h.past) (EolPast.unclicked k h.past))
    (careful : h.Careful cfg (.alterChroot action name now)) :
    RowSoundAfter cfg h (.alterChroot action name now) k
      (h.db.change cfg c (.alterChroot action name now)) := by
  obtain ⟨row, rfl⟩ := Table.find_eq_some.mp there
  have known := h.db.references c row
  unfold RowSoundAfter
  rw [unclicked_step rfl rfl]
  simp only [EolDatabase.change]
  cases action with
  | activate =>
    rw [noticed_step rfl rfl]
    split
    · exact .of_unset rfl (Or.inr rfl)
    · exact sound
  | deactivate =>
    rw [noticed_step rfl rfl]
    split
    · exact sound
    · exact sound
  | eol =>
    split
    · rename_i altered
      obtain ⟨_, named, enabled⟩ := altered
      cases before : EolPast.eol c.key h.past with
      | false => exact .of_unset (careful c row named enabled before) (Or.inl enabled)
      | true =>
        have same :
            EolPast.restarts cfg c.key h.past h.db (.alterChroot .eol name now) = false := by
          simp [EolPast.restarts, before, EolDatabase.marks]
        rw [noticed_step rfl same]
        refine ⟨sound.notice, fun deleted _ _ => ?_⟩
        rw [show c.deleted = true from deleted] at enabled
        cases enabled
    · rename_i kept
      have same : EolPast.restarts cfg c.key h.past h.db (.alterChroot .eol name now) = false := by
        have untouched : h.db.eols c.key (.alterChroot .eol name now) = false := by
          have mock : c.key.mockChroot = c.mockChroot := rfl
          simp only [EolDatabase.eols, there, Option.any_some, mock]
          by_cases named : c.mockChroot = name
          · cases enabled : c.deleted with
            | true => simp
            | false => exact absurd ⟨named ▸ known, named, enabled⟩ kept
          · simp [named]
        simp [EolPast.restarts, untouched, EolDatabase.marks]
      rw [noticed_step rfl same]
      exact sound

/-- The step for `update_from_names`. -/
theorem rowSound_updateFromNames {copr : Nat} {names : List String} {unfinished : String → Bool}
    {now : DateTime} (there : h.db.coprChroots.find k = some c)
    (sound : RowSound c (EolPast.noticed cfg k h.past) (EolPast.unclicked k h.past)) :
    RowSoundAfter cfg h (.updateFromNames copr names unfinished now) k
      (h.db.change cfg c (.updateFromNames copr names unfinished now)) := by
  unfold RowSoundAfter
  rw [noticed_step rfl rfl]
  simp only [EolDatabase.change]
  split
  · rename_i conflict
    rw [unclicked_step (by simp [EolDatabase.unclicks, conflict])
      (by simp [EolDatabase.reClicks, conflict])]
    exact sound
  · rename_i agreed
    split
    · exact ⟨sound.notice, fun deleted => absurd deleted Bool.false_ne_true⟩
    · rename_i kept
      split
      · rename_i removed
        have clicked : EolPast.unclicked k
            (h.step cfg (.updateFromNames copr names unfinished now)).past = true := by
          simp only [EolHistory.step, EolPast.unclicked, since, EolDatabase.unclicks, agreed, there,
            Option.any_some, removed]
          rfl
        rw [clicked]
        exact ⟨sound.notice, fun _ unclicked => absurd unclicked.symm Bool.false_ne_true⟩
      · rename_i untouched
        rw [unclicked_step (by simp [EolDatabase.unclicks, there, untouched])
          (by simp [EolDatabase.reClicks, there, kept])]
        exact sound

/-- The step for a chroot that is there. -/
theorem rowSound_change (there : h.db.coprChroots.find k = some c)
    (sound : RowSound c (EolPast.noticed cfg k h.past) (EolPast.unclicked k h.past))
    (careful : h.Careful cfg op) : RowSoundAfter cfg h op k (h.db.change cfg c op) := by
  obtain ⟨row, named⟩ := Table.find_eq_some.mp there
  cases op with
  | alterChroot action name now => exact rowSound_alterChroot there sound careful
  | updateFromNames copr names unfinished now => exact rowSound_updateFromNames there sound
  | createMockChroot | addProject | forkProject | updatePermissions | deleteProject =>
    rw [rowSoundAfter_iff rfl rfl rfl rfl]
    exact sound
  | updateChroot k' args =>
    rw [rowSoundAfter_iff rfl rfl rfl rfl]
    simp only [EolDatabase.change]
    split
    · exact ⟨sound.notice, sound.again⟩
    · exact sound
  | extend k' now =>
    rw [rowSoundAfter_iff rfl rfl rfl rfl]
    simp only [EolDatabase.change]
    split
    · rename_i same
      refine ⟨sound.notice, fun deleted unclicked _ => sound.notice ?_⟩
      obtain rfl := same.symm.trans named
      exact careful c there deleted unclicked
    · exact sound
  | expire k' now =>
    unfold RowSoundAfter
    simp only [EolDatabase.change]
    split
    · rename_i same
      have notified : EolPast.noticed cfg k (h.step cfg (.expire k' now)).past = true := by
        have here : k = k' := named.symm.trans same
        simp [EolHistory.step, EolPast.noticed, since, EolDatabase.notifies, here ▸ there, here]
      rw [notified]
      exact .of_noticed
    · rename_i other
      have different : k ≠ k' := fun same => other (named.trans same)
      have silent : h.db.notifies cfg k (.expire k' now) = false := by
        simp [EolDatabase.notifies, different]
      rw [noticed_step silent rfl, unclicked_step rfl rfl]
      exact sound
  | buildSubmitted k' now =>
    rw [rowSoundAfter_iff rfl rfl rfl rfl]
    simp only [EolDatabase.change]
    split
    · exact .of_unset rfl (Or.inr rfl)
    · exact sound
  | triggerRollingEolPolicy now =>
    unfold RowSoundAfter
    simp only [EolDatabase.change]
    split
    · rename_i marked
      obtain ⟨unset, clicked⟩ := careful c row marked
      refine ⟨fun set => absurd unset set, fun deleted unclicked _ => ?_⟩
      rw [unclicked_step rfl rfl, ← named, clicked deleted] at unclicked
      cases unclicked
    · rename_i other
      have same : EolPast.restarts cfg k h.past h.db (.triggerRollingEolPolicy now) = false := by
        simp [EolPast.restarts, EolDatabase.eols, EolDatabase.marks, there, other]
      rw [noticed_step rfl same, unclicked_step rfl rfl]
      exact sound
  | rawhideToRelease copr rawhide dest freshBuilds now =>
    rw [rowSoundAfter_iff rfl rfl rfl rfl]
    simp only [EolDatabase.change]
    split
    · exact .of_unset rfl (Or.inr rfl)
    · exact sound
  | notifyOutdatedChroots all emailFilter sendMail now =>
    unfold RowSoundAfter
    simp only [EolDatabase.change, named]
    split
    · rename_i mailed
      have notified : EolPast.noticed cfg k
          (h.step cfg (.notifyOutdatedChroots all emailFilter sendMail now)).past = true := by
        simp [EolHistory.step, EolPast.noticed, since, EolDatabase.notifies, mailed]
      rw [notified]
      exact .of_noticed
    · rename_i other
      have silent : h.db.notifies cfg k (.notifyOutdatedChroots all emailFilter sendMail now) =
          false := by
        simp [EolDatabase.notifies, other]
      rw [noticed_step silent rfl, unclicked_step rfl rfl]
      exact sound
  | fixupUnnoticedChroots deleteAfterDays prolongDays now =>
    rw [rowSoundAfter_iff rfl rfl rfl rfl]
    simp only [EolDatabase.change]
    split
    · rename_i unnoticed
      simp only [EolDatabase.shouldAlreadyBeNoticed, Bool.and_eq_true, Bool.not_eq_true',
        Option.isNone_iff_eq_none] at unnoticed
      exact .of_unset unnoticed.1.1.2 (Or.inl unnoticed.1.1.1.2)
    · exact sound
  | deleteOutdatedChroots now =>
    rw [rowSoundAfter_iff rfl rfl rfl rfl]
    simp only [EolDatabase.change]
    split
    · exact ⟨sound.notice, fun _ _ set => absurd rfl set⟩
    · exact sound

/-- The step for a chroot that is created. -/
theorem rowSound_created {noticed unclicked : Bool} (careful : h.Careful cfg op)
    (created : c ∈ h.db.created op) : RowSound c noticed unclicked := by
  cases EolDatabase.origin_of_created created with
  | new _ enabled unset => exact .of_unset unset.2 (Or.inl enabled)
  | @forked copr id user ownerName name source found unused member =>
    have enabled : source.deleted = false := by
      have active := (List.mem_filter.mp member).2
      simp only [Bool.and_eq_true, Bool.not_eq_true'] at active
      exact active.2.2
    exact .of_unset (careful found unused source member) (Or.inl enabled)
  | built => exact .of_unset rfl (Or.inr rfl)
  | @branched copr rawhide dest now source known unused found =>
    obtain ⟨unset, kept⟩ := careful known unused rfl source found
    cases enabled : source.deleted with
    | false => exact .of_unset unset (Or.inl enabled)
    | true => exact .of_unset unset (Or.inr (kept enabled))

/-- A careful operation keeps the invariant. -/
theorem Sound.step (sound : h.Sound cfg) (careful : h.Careful cfg op) :
    (h.step cfg op).Sound cfg := by
  intro k c found
  rcases EolDatabase.find_step_eq_some.mp found with ⟨before, there, rfl⟩ | ⟨_, created⟩
  · exact rowSound_change there (sound k before there) careful
  · exact rowSound_created careful (List.mem_of_find?_eq_some created)

end Step

end EolHistory

/-- In every run of careful operations there are no unexpected removals. -/
theorem no_unexpected_removals (cfg : EolConfig) (start : EolDatabase)
    (empty : start.coprChroots.rows = []) (ops : List ChrootOperation)
    (careful : EachStep (EolHistory.step cfg) (EolHistory.Careful cfg) ⟨[], start⟩ ops) :
    Always (EolHistory.step cfg) (EolHistory.NoUnexpectedRemovals cfg) ⟨[], start⟩ ops := by
  have sound : (EolHistory.mk [] start).Sound cfg := by
    intro k c found
    have member := (Table.find_eq_some.mp found).1
    rw [show (EolHistory.mk [] start).db.coprChroots.rows = [] from empty] at member
    cases member
  have always := always_of_eachStep (fun _ _ sound careful => EolHistory.Sound.step sound careful)
    sound careful
  exact always.imp fun _ sound => sound.noUnexpectedRemovals

namespace Sample

/-- The policy marks the re-clicked chroot again, and the mail about it cannot be sent. -/
def markedAgain : List ChrootOperation :=
  lifelessProject ++ reClicked ++
    [.triggerRollingEolPolicy (daysLong 204),
      .notifyOutdatedChroots false (fun _ => true) (fun _ => false) (daysLong 300)]

end Sample

/-- The first period of a rolling chroot is careful. -/
theorem no_unexpected_removals_lifeless :
    Always (EolHistory.step {}) (EolHistory.NoUnexpectedRemovals {}) ⟨[], Sample.rollingChroot⟩
      Sample.lifelessProject := by
  refine no_unexpected_removals {} Sample.rollingChroot rfl _
    ⟨trivial, trivial, fun c row _ => ?_, trivial, trivial⟩
  have unset : ∀ c ∈ ((Sample.lifelessProject.take 2).foldl (EolDatabase.step {})
      Sample.rollingChroot).coprChroots.rows, c.deleteNotify = none ∧ c.deleted = false := by
    decide +kernel
  obtain ⟨notice, enabled⟩ := unset c row
  refine ⟨notice, fun deleted => ?_⟩
  rw [enabled] at deleted
  cases deleted

/-- A rolling chroot is removed although its users were not notified since it was marked: the
notice before it was unclicked and re-clicked is taken for a new one. -/
theorem unexpected_removal :
    ¬ ∀ (start : EolDatabase) (ops : List ChrootOperation), start.coprChroots.rows = [] →
      Always (EolHistory.step {}) (EolHistory.NoUnexpectedRemovals {}) ⟨[], start⟩ ops := by
  intro claimed
  have last := (claimed Sample.rollingChroot Sample.markedAgain rfl).last
  let h := Sample.markedAgain.foldl (EolHistory.step {}) ⟨[], Sample.rollingChroot⟩
  have sent : (h.db.deleteOutdatedChroots (daysLong 400)).deleteActions.drop
      h.db.deleteActions.length =
        [⟨"owner", "project", "fedora-rawhide-x86_64", .backend, 1⟩] := by
    decide +kernel
  have unclicked : EolPast.unclicked Sample.rawhideChroot h.past = false := by
    decide +kernel
  have unnoticed : EolPast.noticed {} Sample.rawhideChroot h.past = false := by
    decide +kernel
  have noticed := last (daysLong 400) ⟨"owner", "project", "fedora-rawhide-x86_64", .backend, 1⟩
    (sent ▸ List.mem_singleton_self _) unclicked
  exact absurd (unnoticed.symm.trans noticed) (by decide)

end Copr
