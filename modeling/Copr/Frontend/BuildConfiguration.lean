import Copr.Lib.Traces
import Copr.Frontend.ChrootSteps

/-!
# Whether the life cycle keeps build configurations

Extending, expiring and the policy for rolling chroots set `delete_after` with `update_chroot`,
whose defaults also overwrite three options of the build configuration. The other operations of the
life cycle leave it alone.
-/

namespace Copr

open Tables Traces

/-- The operations of the life cycle: all but those with which a user changes the configuration or
builds, and branching, which builds. -/
def ChrootOperation.LifeCycle : ChrootOperation → Prop
  | .updateChroot _ _ | .buildSubmitted _ _ | .rawhideToRelease _ _ _ _ _ => False
  | _ => True

/-- The options that `update_chroot` overwrites by default have their default values. -/
def BuildConfig.Unset (config : BuildConfig) : Prop :=
  config.withOpts = "" ∧ config.withoutOpts = "" ∧ config.moduleToggle = some ""

/-- Setting `delete_after` keeps exactly the configurations without these options. -/
theorem BuildConfig.update_eq_self_iff {config : BuildConfig} {deleteAfter : Option DateTime} :
    config.update { deleteAfter := deleteAfter } = config ↔ config.Unset := by
  rw [BuildConfig.update_default, Unset]
  obtain ⟨_, _, _, _, withOpts, withoutOpts, moduleToggle, _, _, _⟩ := config
  simp [eq_comm]

/-- Setting `delete_after` with `update_chroot` changes nothing else in such a chroot, and something
else in every other. -/
theorem CoprChroot.updateCoprChroot_config {c : CoprChroot} {period now : DateTime} :
    (c.updateCoprChroot period now).config = c.config ↔ c.config.Unset :=
  BuildConfig.update_eq_self_iff

namespace EolDatabase

/-- The chroot with a key is as a given one, except for `deleted`, `delete_after` and
`delete_notify`. -/
def Keeps (k : ChrootKey) (c : CoprChroot) (db : EolDatabase) : Prop :=
  ∃ now, db.coprChroots.find k = some now ∧ now.config = c.config ∧
    now.lastBuildTimestamp = c.lastBuildTimestamp

/-- An operation does not set `delete_after` of a chroot with `update_chroot`, or the three options
have their default values. -/
def Spares (k : ChrootKey) (db : EolDatabase) (cfg : EolConfig) : ChrootOperation → Prop
  | .extend k' _ | .expire k' _ =>
    k = k' → ∀ c, db.coprChroots.find k = some c → c.config.Unset
  | .triggerRollingEolPolicy now =>
    ∀ c, db.coprChroots.find k = some c → db.lifeless cfg now c = true → c.config.Unset
  | _ => True

variable {cfg : EolConfig} {db : EolDatabase} {op : ChrootOperation} {k : ChrootKey}

/-- Whether an operation of the life cycle keeps a chroot. -/
theorem change_keeps_iff (lifeCycle : op.LifeCycle) {c : CoprChroot}
    (there : db.coprChroots.find k = some c) :
    (db.change cfg c op).config = c.config ∧
        (db.change cfg c op).lastBuildTimestamp = c.lastBuildTimestamp ↔
      db.Spares k cfg op := by
  have named : c.key = k := (Table.find_eq_some.mp there).2
  cases op with
  | updateChroot | buildSubmitted | rawhideToRelease => exact lifeCycle.elim
  | extend k' now =>
    simp only [change, Spares, named, there, Option.some.injEq, forall_eq']
    split
    · rename_i same
      simp only [same, forall_const]
      exact (and_iff_left rfl).trans CoprChroot.updateCoprChroot_config
    · rename_i other
      simp [other]
  | expire k' now =>
    simp only [change, Spares, named, there, Option.some.injEq, forall_eq']
    split
    · rename_i same
      simp only [same, forall_const]
      exact (and_iff_left rfl).trans CoprChroot.updateCoprChroot_config
    · rename_i other
      simp [other]
  | triggerRollingEolPolicy now =>
    simp only [change, Spares, there, Option.some.injEq, forall_eq']
    split
    · rename_i marked
      simp only [marked, forall_const]
      exact (and_iff_left rfl).trans CoprChroot.updateCoprChroot_config
    · rename_i other
      simp [other]
  | alterChroot action name now =>
    refine iff_true_intro ?_
    simp only [change]
    split
    · cases action <;> exact ⟨rfl, rfl⟩
    · exact ⟨rfl, rfl⟩
  | updateFromNames copr names unfinished now =>
    refine iff_true_intro ?_
    simp only [change]
    split
    · exact ⟨rfl, rfl⟩
    · split
      · exact ⟨rfl, rfl⟩
      · split <;> exact ⟨rfl, rfl⟩
  | notifyOutdatedChroots | fixupUnnoticedChroots | deleteOutdatedChroots =>
    refine iff_true_intro ?_
    simp only [change]
    split <;> exact ⟨rfl, rfl⟩
  | createMockChroot | addProject | forkProject | updatePermissions | deleteProject =>
    exact iff_true_intro ⟨rfl, rfl⟩

/-- Exactly the operations that spare a chroot keep it. -/
theorem keeps_step_iff (lifeCycle : op.LifeCycle) {c : CoprChroot} (keeps : db.Keeps k c) :
    (db.step cfg op).Keeps k c ↔ db.Spares k cfg op := by
  obtain ⟨row, there, config, lastBuild⟩ := keeps
  have found : (db.step cfg op).coprChroots.find k = some (db.change cfg row op) :=
    find_step_eq_some.mpr (Or.inl ⟨row, there, rfl⟩)
  rw [← change_keeps_iff lifeCycle there, config, lastBuild]
  constructor
  · rintro ⟨now, listed, same⟩
    obtain rfl := Option.some.inj (found.symm.trans listed)
    exact same
  · intro same
    exact ⟨_, found, same⟩

end EolDatabase

/-- In every run of the life cycle every chroot keeps its build configuration exactly when no
operation sets `delete_after` of it with `update_chroot` while one of three options is set. -/
theorem build_config_kept_iff (cfg : EolConfig) (start : EolDatabase) (k : ChrootKey)
    (c : CoprChroot) (there : start.coprChroots.find k = some c) (ops : List ChrootOperation)
    (lifeCycle : ∀ op ∈ ops, op.LifeCycle) :
    Always (EolDatabase.step cfg) (EolDatabase.Keeps k c) start ops ↔
      EachStep (EolDatabase.step cfg) (fun db op => db.Spares k cfg op) start ops :=
  always_iff_eachStep
    (fun _ op member keeps => EolDatabase.keeps_step_iff (lifeCycle op member) keeps)
    ⟨c, there, rfl, rfl⟩

namespace Sample

/-- There is a mock chroot, but no project. -/
def fedoraChroot : EolDatabase where
  mockChroots := Table.empty.insert ⟨"fedora-42-x86_64", true, false⟩
  coprs := Table.empty
  coprChroots := Table.empty
  references := fun _ member => nomatch member

/-- The chroot of the project. -/
def fedoraKey : ChrootKey := ⟨1, "fedora-42-x86_64"⟩

/-- A project whose user has set build options, before the mock chroot is made EOL. -/
def configured : List ChrootOperation :=
  [.addProject ⟨1, "owner", "project", "owner", [], .backend, false, false⟩ ["fedora-42-x86_64"],
    .updateChroot fedoraKey
      { withOpts := some "tests"
        moduleToggle := some "nodejs:20" }]

/-- The database then. -/
def configuredProject : EolDatabase := configured.foldl (EolDatabase.step {}) fedoraChroot

/-- The chroot then. -/
def configuredChroot : CoprChroot where
  copr := 1
  mockChroot := "fedora-42-x86_64"
  config :=
    { withOpts := "tests"
      moduleToggle := some "nodejs:20" }

/-- The chroot is in the project. -/
theorem configuredChroot_there :
    configuredProject.coprChroots.find fedoraKey = some configuredChroot := by
  decide +kernel

end Sample

/-- EOL, a notification and activation keep the options. -/
theorem build_config_kept_iff_eol :
    Always (EolDatabase.step {}) (EolDatabase.Keeps Sample.fedoraKey Sample.configuredChroot)
      Sample.configuredProject
      [.alterChroot .eol "fedora-42-x86_64" (daysLong 10),
        .notifyOutdatedChroots false (fun _ => true) (fun _ => true) (daysLong 11),
        .alterChroot .activate "fedora-42-x86_64" (daysLong 12)] :=
  (build_config_kept_iff {} Sample.configuredProject Sample.fedoraKey Sample.configuredChroot
    Sample.configuredChroot_there _ (by simp [ChrootOperation.LifeCycle])).mpr
      ⟨trivial, trivial, trivial, trivial⟩

/-- Extending the preservation period of an EOL chroot drops its options. -/
theorem build_config_not_kept :
    ¬ ∀ (start : EolDatabase) (k : ChrootKey) (c : CoprChroot) (ops : List ChrootOperation),
      start.coprChroots.find k = some c → (∀ op ∈ ops, op.LifeCycle) →
        Always (EolDatabase.step {}) (EolDatabase.Keeps k c) start ops := by
  intro claimed
  have always := claimed Sample.configuredProject Sample.fedoraKey Sample.configuredChroot
    [.alterChroot .eol "fedora-42-x86_64" (daysLong 10), .extend Sample.fedoraKey (daysLong 11)]
    Sample.configuredChroot_there (by simp [ChrootOperation.LifeCycle])
  obtain ⟨c, found, config, _⟩ := always.last
  have dropped : (([.alterChroot .eol "fedora-42-x86_64" (daysLong 10),
      .extend Sample.fedoraKey (daysLong 11)].foldl (EolDatabase.step {})
        Sample.configuredProject).coprChroots.find Sample.fedoraKey).map
          (fun c => c.config.withOpts) = some "" := by
    decide +kernel
  rw [found, Option.map_some, config] at dropped
  exact absurd (Option.some.inj dropped) (by decide)

end Copr
