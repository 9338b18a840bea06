import Copr.Lib.Traces
import Copr.Frontend.ChrootSteps

/-!
# Whether chroots have a deletion status

`delete_status` raises for an active chroot with a timestamp, unless it is a rolling one that is
going to be deleted. It is described exactly which operations bring a chroot into this state.
-/

namespace Copr

open Tables Traces

/-- A notification about a chroot that is going to be deleted does no harm. -/
theorem CoprChroot.Defined.notify {c : CoprChroot} {isActive rolling : Bool} {now : DateTime}
    (defined : c.Defined isActive rolling) (scheduled : c.deleteAfter.isSome = true) :
    (c.notify now).Defined isActive rolling := by
  rcases defined with deleted | inactive | ⟨unset, _⟩ | marked
  · exact Or.inl deleted
  · exact Or.inr (Or.inl inactive)
  · simp [unset] at scheduled
  · exact Or.inr (Or.inr (Or.inr marked))

/-- Another time for a chroot that is going to be deleted does no harm. -/
theorem CoprChroot.Defined.prolong {c : CoprChroot} {isActive rolling : Bool}
    {prolongDays : Int} {now : DateTime} (defined : c.Defined isActive rolling)
    (scheduled : c.deleteAfter.isSome = true) :
    (c.prolong prolongDays now).Defined isActive rolling := by
  rcases defined with deleted | inactive | ⟨unset, _⟩ | ⟨_, rolling⟩
  · exact Or.inl deleted
  · exact Or.inr (Or.inl inactive)
  · simp [unset] at scheduled
  · exact Or.inr (Or.inr (Or.inr ⟨Option.some_ne_none _, rolling⟩))

namespace EolDatabase

/-- Every chroot has a status, whatever the time. -/
def StatusDefined (db : EolDatabase) : Prop :=
  ∀ c ∈ db.coprChroots.rows, ∀ now, (db.deleteStatus c now).isSome = true

/-- An operation leaves a chroot with a status: a chroot of an active mock chroot that is
re-enabled has no leftover `delete_notify`, and a chroot that is extended or expired is unclicked,
inactive or rolling. -/
def HarmlessFor (db : EolDatabase) (c : CoprChroot) : ChrootOperation → Prop
  | .updateFromNames copr names unfinished _ =>
    db.conflicts copr (db.mockChrootsFromNames names) unfinished = false →
      reEnables copr (db.mockChrootsFromNames names) c = true →
        db.isActive c.mockChroot = true → c.deleteNotify = none
  | .extend k _ | .expire k _ =>
    c.key = k → c.deleted = true ∨ db.isActive c.mockChroot = false ∨
      db.rolling c.mockChroot = true
  | _ => True

/-- Branching leaves the new chroot with a status: a build is forked, the rawhide chroot is
unclicked or has no timestamps, or the new mock chroot is not active yet or rolling, too. -/
def HarmlessClone (db : EolDatabase) : ChrootOperation → Prop
  | .rawhideToRelease copr rawhide dest freshBuilds _ =>
    db.Known dest → db.coprChroots.find ⟨copr, dest⟩ = none → freshBuilds = false →
      ∀ c, db.coprChroots.find ⟨copr, rawhide⟩ = some c →
        c.Defined (db.isActive dest) (db.rolling dest)
  | _ => True

/-- An operation leaves every chroot with a status. -/
def Harmless (db : EolDatabase) (op : ChrootOperation) : Prop :=
  (∀ c ∈ db.coprChroots.rows, db.HarmlessFor c op) ∧ db.HarmlessClone op

variable {cfg : EolConfig} {db : EolDatabase} {op : ChrootOperation}

/-- Every chroot has a status when each of them is defined. -/
theorem statusDefined_iff : db.StatusDefined ↔ ∀ k c, db.coprChroots.find k = some c →
    c.Defined (db.isActive c.mockChroot) (db.rolling c.mockChroot) := by
  constructor
  · intro defined k c found
    exact CoprChroot.deleteStatus_isSome.mp (defined c (Table.find_eq_some.mp found).1 0)
  · intro defined c member now
    exact CoprChroot.deleteStatus_isSome.mpr (defined c.key c (Table.find_of_mem member))

/-- Whether an operation leaves a chroot with a status. -/
theorem change_defined_iff {c : CoprChroot} (member : c ∈ db.coprChroots.rows)
    (defined : c.Defined (db.isActive c.mockChroot) (db.rolling c.mockChroot)) :
    (db.change cfg c op).Defined ((db.step cfg op).isActive c.mockChroot)
      ((db.step cfg op).rolling c.mockChroot) ↔ db.HarmlessFor c op := by
  rw [rolling_step op (db.references c member), isActive_step op (db.references c member)]
  cases op with
  | alterChroot action name now =>
    refine iff_true_intro ?_
    have known := db.references c member
    simp only [change]
    split
    · rename_i altered
      rw [if_pos altered.2.1]
      cases action with
      | activate => exact Or.inr (Or.inr (Or.inl ⟨rfl, rfl⟩))
      | deactivate => exact Or.inr (Or.inl rfl)
      | eol => exact Or.inr (Or.inl rfl)
    · rename_i kept
      by_cases same : c.mockChroot = name
      · have deleted : c.deleted = true := by
          by_contra enabled
          exact kept ⟨same ▸ known, same, Bool.eq_false_iff.mpr enabled⟩
        exact Or.inl deleted
      · rw [if_neg same]
        exact defined
  | updateFromNames copr names unfinished now =>
    simp only [change, HarmlessFor]
    by_cases conflict : db.conflicts copr (db.mockChrootsFromNames names) unfinished = true
    · simp [conflict, defined]
    · by_cases enabled : reEnables copr (db.mockChrootsFromNames names) c = true
      · cases active : db.isActive c.mockChroot <;>
          simp [conflict, enabled, CoprChroot.Defined, CoprChroot.enable]
      · simp only [conflict, enabled, Bool.false_eq_true, if_false, false_implies, implies_true,
          iff_true]
        split
        · exact Or.inl rfl
        · exact defined
  | updateChroot k args =>
    refine iff_true_intro ?_
    simp only [change]
    split
    · exact defined
    · exact defined
  | extend k now =>
    simp only [change, HarmlessFor]
    split
    · rename_i same
      simp [CoprChroot.Defined, CoprChroot.extend, CoprChroot.updateCoprChroot,
        CoprChroot.updateChroot, same]
    · rename_i other
      simp [other, defined]
  | expire k now =>
    simp only [change, HarmlessFor]
    split
    · rename_i same
      simp [CoprChroot.Defined, CoprChroot.expire, CoprChroot.updateCoprChroot,
        CoprChroot.updateChroot, same]
    · rename_i other
      simp [other, defined]
  | buildSubmitted k now =>
    refine iff_true_intro ?_
    simp only [change]
    split
    · exact Or.inr (Or.inr (Or.inl ⟨rfl, rfl⟩))
    · exact defined
  | triggerRollingEolPolicy now =>
    refine iff_true_intro ?_
    simp only [change]
    split
    · rename_i marked
      have rolling : db.rolling c.mockChroot = true := (Bool.and_eq_true_iff.mp marked).1
      exact Or.inr (Or.inr (Or.inr ⟨Option.some_ne_none _, rolling⟩))
    · exact defined
  | rawhideToRelease copr rawhide dest freshBuilds now =>
    refine iff_true_intro ?_
    simp only [change]
    split
    · exact Or.inr (Or.inr (Or.inl ⟨rfl, rfl⟩))
    · exact defined
  | notifyOutdatedChroots all emailFilter sendMail now =>
    refine iff_true_intro ?_
    simp only [change]
    split
    · rename_i notified
      obtain ⟨row, found, scheduled, _⟩ := mem_notified notified
      obtain rfl := Option.some.inj ((Table.find_of_mem member).symm.trans found)
      exact defined.notify scheduled
    · exact defined
  | fixupUnnoticedChroots deleteAfterDays prolongDays now =>
    refine iff_true_intro ?_
    simp only [change]
    split
    · rename_i unnoticed
      simp only [shouldAlreadyBeNoticed, Bool.and_eq_true] at unnoticed
      exact defined.prolong (Option.isSome_of_any unnoticed.1.1.1.1)
    · exact defined
  | deleteOutdatedChroots now =>
    refine iff_true_intro ?_
    simp only [change]
    split
    · exact Or.inl rfl
    · exact defined
  | createMockChroot | addProject | forkProject | updatePermissions | deleteProject =>
    exact iff_true_intro defined

/-- Which operations create chroots with a status. -/
theorem created_defined (defined : db.StatusDefined) (clone : db.HarmlessClone op) {c : CoprChroot}
    (created : c ∈ db.created op) :
    c.Defined (db.isActive c.mockChroot) (db.rolling c.mockChroot) := by
  cases origin_of_created created with
  | new _ _ unset => exact Or.inr (Or.inr (Or.inl unset))
  | @forked _ _ _ _ _ source _ _ member =>
    have row := List.mem_of_mem_filter member
    exact statusDefined_iff.mp defined source.key source (Table.find_of_mem row)
  | built => exact Or.inr (Or.inr (Or.inl ⟨rfl, rfl⟩))
  | @branched copr rawhide dest now source known unused found =>
    exact clone known unused rfl source found

/-- Exactly the harmless operations leave every chroot with a status. -/
theorem statusDefined_step_iff (defined : db.StatusDefined) :
    (db.step cfg op).StatusDefined ↔ db.Harmless op := by
  have each := statusDefined_iff.mp defined
  constructor
  · intro after
    have later := statusDefined_iff.mp after
    refine ⟨fun c member => ?_, ?_⟩
    · have found : (db.step cfg op).coprChroots.find c.key = some (db.change cfg c op) :=
        find_step_eq_some.mpr (Or.inl ⟨c, Table.find_of_mem member, rfl⟩)
      have same : (db.change cfg c op).mockChroot = c.mockChroot :=
        congrArg ChrootKey.mockChroot (Table.find_eq_some.mp found).2
      have kept := later c.key _ found
      rw [same] at kept
      exact (change_defined_iff member (each c.key c (Table.find_of_mem member))).mp kept
    · cases op with
      | rawhideToRelease copr rawhide dest freshBuilds now =>
        rintro known unused rfl c found
        have created : createChrootFrom c none (some dest) ∈ db.branchedChroot copr rawhide dest :=
          mem_branchedChroot.mpr ⟨unused, c, found, rfl⟩
        have kept : c.Defined
            ((db.step cfg (.rawhideToRelease copr rawhide dest false now)).isActive dest)
            ((db.step cfg (.rawhideToRelease copr rawhide dest false now)).rolling dest) :=
          later _ _ (find_branched known created)
        rwa [rolling_step _ known, isActive_step _ known] at kept
      | _ => trivial
  · rintro ⟨rows, clone⟩
    refine statusDefined_iff.mpr fun k c found => ?_
    rcases find_step_eq_some.mp found with ⟨before, there, rfl⟩ | ⟨_, created⟩
    · have member := (Table.find_eq_some.mp there).1
      have same : (db.change cfg before op).mockChroot = before.mockChroot :=
        congrArg ChrootKey.mockChroot
          ((Table.find_eq_some.mp found).2.trans (Table.find_eq_some.mp there).2.symm)
      rw [same]
      exact (change_defined_iff member (each k before there)).mpr (rows before member)
    · have member := List.mem_of_find?_eq_some created
      rw [isActive_of_created member, rolling_step op (known_of_created member)]
      exact created_defined defined clone member

end EolDatabase

/-- In every run every chroot has a status all the time exactly when every operation is harmless
where it stands. -/
theorem delete_status_defined_iff (cfg : EolConfig) (start : EolDatabase)
    (defined : start.StatusDefined) (ops : List ChrootOperation) :
    Always (EolDatabase.step cfg) EolDatabase.StatusDefined start ops ↔
      EachStep (EolDatabase.step cfg) EolDatabase.Harmless start ops :=
  always_iff_eachStep (fun _ _ _ defined => EolDatabase.statusDefined_step_iff defined) defined

namespace Sample

/-- There is a rolling mock chroot, but no project. -/
def rollingChroot : EolDatabase where
  mockChroots := Table.empty.insert ⟨"fedora-rawhide-x86_64", true, true⟩
  coprs := Table.empty
  coprChroots := Table.empty
  references := fun _ member => nomatch member

/-- The chroot of the project. -/
def rawhideChroot : ChrootKey := ⟨1, "fedora-rawhide-x86_64"⟩

/-- Nothing is built in the project for a long time, so its user is notified. -/
def lifelessProject : List ChrootOperation :=
  [.addProject ⟨1, "owner", "project", "owner", [], .backend, false, false⟩
      ["fedora-rawhide-x86_64"],
    .buildSubmitted rawhideChroot 0, .triggerRollingEolPolicy (daysLong 200),
    .notifyOutdatedChroots false (fun _ => true) (fun _ => true) (daysLong 201)]

/-- The user unclicks the chroot and changes their mind. -/
def reClicked : List ChrootOperation :=
  [.updateFromNames 1 [] (fun _ => false) (daysLong 202),
    .updateFromNames 1 ["fedora-rawhide-x86_64"] (fun _ => false) (daysLong 203)]

end Sample

/-- As long as the chroot is not re-clicked every operation is harmless. -/
theorem delete_status_defined_iff_lifeless :
    Always (EolDatabase.step {}) EolDatabase.StatusDefined Sample.rollingChroot
      Sample.lifelessProject :=
  (delete_status_defined_iff {} Sample.rollingChroot (fun _ member => nomatch member) _).mpr
    ⟨⟨fun _ _ => trivial, trivial⟩, ⟨fun _ _ => trivial, trivial⟩, ⟨fun _ _ => trivial, trivial⟩,
      ⟨fun _ _ => trivial, trivial⟩, trivial⟩

/-- A rolling chroot whose user was notified has no status after it was unclicked and re-clicked:
`delete_notify` is left. -/
theorem delete_status_undefined :
    ¬ ∀ (start : EolDatabase) (ops : List ChrootOperation), start.coprChroots.rows = [] →
      Always (EolDatabase.step {}) EolDatabase.StatusDefined start ops := by
  intro claimed
  have always := claimed Sample.rollingChroot (Sample.lifelessProject ++ Sample.reClicked) rfl
  let last := (Sample.lifelessProject ++ Sample.reClicked).foldl (EolDatabase.step {})
    Sample.rollingChroot
  have raises : (last.coprChroots.rows.map fun c => last.deleteStatus c (daysLong 204)) =
      [none] := by
    decide +kernel
  have defined : last.StatusDefined := always.last
  obtain ⟨c, member, raised⟩ := List.mem_map.mp
    (raises ▸ List.mem_singleton_self _ : none ∈
      last.coprChroots.rows.map fun c => last.deleteStatus c (daysLong 204))
  have status := defined c member (daysLong 204)
  rw [raised] at status
  cases status

end Copr
