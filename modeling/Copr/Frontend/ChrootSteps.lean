import Copr.Frontend.OutdatedChroots

/-!
# What an operation does to a chroot

Every operation on chroots is described by what it makes of each chroot that is there, by the
chroots that it creates, and by what it does to the mock chroots. Whatever is proved about a
chroot in the course of time rests on these descriptions only.
-/

namespace Copr

open Tables

namespace EolDatabase

variable (cfg : EolConfig) (db : EolDatabase)

/-- What an operation makes of a chroot. -/
def change (c : CoprChroot) : ChrootOperation → CoprChroot
  | .alterChroot action name now =>
    if db.Known name ∧ c.mockChroot = name ∧ c.deleted = false then action.alter cfg now c else c
  | .updateFromNames copr names unfinished now =>
    let newMockChroots := db.mockChrootsFromNames names
    if db.conflicts copr newMockChroots unfinished then c
    else if reEnables copr newMockChroots c then c.enable
    else if db.toRemove copr newMockChroots c && !c.deleted then c.remove now
    else c
  | .updateChroot k args =>
    if c.key = k then
      c.updateChroot
        { args with
          deleteAfter := none
          deleteNotify := none }
    else c
  | .extend k now => if c.key = k then c.extend cfg now else c
  | .expire k now => if c.key = k then c.expire cfg now else c
  | .buildSubmitted k now => if c.key = k then c.buildSubmitted now else c
  | .triggerRollingEolPolicy now => if db.lifeless cfg now c then c.mark cfg now else c
  | .rawhideToRelease copr rawhide dest freshBuilds now =>
    if (db.Known dest ∧ (db.coprChroots.find ⟨copr, rawhide⟩).isSome) ∧ freshBuilds ∧
        c.key = ⟨copr, dest⟩ then
      c.buildSubmitted now
    else c
  | .notifyOutdatedChroots all emailFilter sendMail now =>
    if c.key ∈ db.notified cfg all emailFilter sendMail now then c.notify now else c
  | .fixupUnnoticedChroots deleteAfterDays prolongDays now =>
    if db.shouldAlreadyBeNoticed deleteAfterDays now c then c.prolong prolongDays now else c
  | .deleteOutdatedChroots now => if c ∈ db.deletedChroots now then c.delete else c
  | _ => c

/-- What an operation makes of a mock chroot. -/
def changeMock (m : MockChrootRow) : ChrootOperation → MockChrootRow
  | .alterChroot action name _ =>
    if m.name = name then { m with isActive := decide (action = .activate) } else m
  | _ => m

/-- The chroots that an operation creates. -/
def created : ChrootOperation → List CoprChroot
  | .addProject copr selectedChroots =>
    if (db.coprs.find copr.id).isSome then []
    else
      (db.mockChrootsFromNames selectedChroots).map fun name =>
        { copr := copr.id
          mockChroot := name }
  | .forkProject copr id _ _ _ =>
    match db.coprs.find copr, db.coprs.find id with
    | some _, none =>
      (db.activeCoprChroots copr).map fun chroot =>
        createChrootFrom chroot (some id) (some chroot.mockChroot)
    | _, _ => []
  | .updateFromNames copr names unfinished _ =>
    let newMockChroots := db.mockChrootsFromNames names
    if db.conflicts copr newMockChroots unfinished then []
    else newMockChroots.map fun name => (createChroot copr name).enable
  | .rawhideToRelease copr rawhide dest freshBuilds now =>
    if db.Known dest ∧ (db.coprChroots.find ⟨copr, rawhide⟩).isSome then
      (db.branchedChroot copr rawhide dest).map fun c =>
        if freshBuilds then c.buildSubmitted now else c
    else []
  | _ => []

variable {cfg db}

/-- What is under a key after some chroots were changed. -/
theorem find_updateChroots {selected : CoprChroot → Bool} {change : CoprChroot → CoprChroot}
    {keeps : ∀ c, (change c).key = c.key} {k : ChrootKey} :
    (db.updateChroots selected change keeps).coprChroots.find k =
      (db.coprChroots.find k).map fun c => if selected c then change c else c :=
  @Table.find_update _ _ _ _ _ _ _ _ keeps

/-- What is under a key after one chroot was changed. -/
theorem find_updateChrootAt {k k' : ChrootKey} {change : CoprChroot → CoprChroot}
    {keeps : ∀ c, (change c).key = c.key} :
    (db.updateChrootAt k' change keeps).coprChroots.find k =
      (db.coprChroots.find k).map fun c => if c.key = k' then change c else c := by
  simp only [updateChrootAt, find_updateChroots, decide_eq_true_eq]

/-- What is under a key after chroots were added. -/
theorem find_addChroots {added : List CoprChroot}
    {known : ∀ c ∈ added, db.Known c.mockChroot} {k : ChrootKey} :
    (db.addChroots added known).coprChroots.find k =
      (db.coprChroots.find k).or (added.find? fun c => decide (c.key = k)) :=
  Table.find_insertAll

/-- What is under a key after the user has selected chroots. -/
theorem find_updateFromNames {copr : Nat} {names : List String} {unfinished : String → Bool}
    {now : DateTime} {k : ChrootKey} :
    (db.updateFromNames copr names unfinished now).coprChroots.find k =
      ((db.coprChroots.find k).map fun c =>
        db.change cfg c (.updateFromNames copr names unfinished now)).or
        ((db.created (.updateFromNames copr names unfinished now)).find? fun c =>
          decide (c.key = k)) := by
  unfold updateFromNames change created
  by_cases conflict : db.conflicts copr (db.mockChrootsFromNames names) unfinished
  · simp [conflict]
  · simp only [conflict, Bool.false_eq_true, if_false, find_updateChroots, find_addChroots,
      Option.map_or]
    congr 1
    · rw [Option.map_map]
      refine Option.map_congr fun c _ => ?_
      by_cases enabled : reEnables copr (db.mockChrootsFromNames names) c = true
      · have listed : c.mockChroot ∈ db.mockChrootsFromNames names := by
          simp only [reEnables, Bool.and_eq_true, decide_eq_true_eq] at enabled
          exact enabled.1.2
        simp [enabled, toRemove, CoprChroot.enable, listed]
      · simp [enabled]
    · cases found : ((db.mockChrootsFromNames names).map fun name =>
          (createChroot copr name).enable).find? fun c => decide (c.key = k) with
      | none => rfl
      | some c =>
        obtain ⟨name, listed, rfl⟩ := List.mem_map.mp (List.mem_of_find?_eq_some found)
        simp [toRemove, createChroot, CoprChroot.updateChroot, CoprChroot.enable, listed]

/-- What is under a key after a project was branched. -/
theorem find_rawhideToRelease {copr : Nat} {rawhide dest : String} {freshBuilds : Bool}
    {now : DateTime} {k : ChrootKey} :
    (db.rawhideToRelease copr rawhide dest freshBuilds now).coprChroots.find k =
      ((db.coprChroots.find k).map fun c =>
        db.change cfg c (.rawhideToRelease copr rawhide dest freshBuilds now)).or
        ((db.created (.rawhideToRelease copr rawhide dest freshBuilds now)).find? fun c =>
          decide (c.key = k)) := by
  by_cases branched : db.Known dest ∧ (db.coprChroots.find ⟨copr, rawhide⟩).isSome
  · have clones : ((db.branchedChroot copr rawhide dest).map fun c =>
        if freshBuilds then c.buildSubmitted now else c).find? (fun c => decide (c.key = k)) =
          ((db.branchedChroot copr rawhide dest).find? fun c => decide (c.key = k)).map fun c =>
            if freshBuilds then c.buildSubmitted now else c := by
      have same : ∀ c : CoprChroot,
          (if freshBuilds then c.buildSubmitted now else c).key = c.key := by
        intro c
        cases freshBuilds <;> rfl
      simp only [List.find?_map, Function.comp_def, same]
    have creates : db.created (.rawhideToRelease copr rawhide dest freshBuilds now) =
        (db.branchedChroot copr rawhide dest).map fun c =>
          if freshBuilds then c.buildSubmitted now else c := if_pos branched
    rw [rawhideToRelease, dif_pos branched, creates, clones]
    cases freshBuilds with
    | false => simp [change, turnOnTheChrootForCopr, find_addChroots]
    | true =>
      simp only [change, branched, turnOnTheChrootForCopr, if_true, find_updateChrootAt,
        find_addChroots, Option.map_or, true_and]
      congr 1
      refine Option.map_congr fun c found => ?_
      exact if_pos (key_of_branchedChroot (List.mem_of_find?_eq_some found))
  · rw [rawhideToRelease, dif_neg branched]
    simp [change, created, branched]

/-- What is under a key after an operation. -/
theorem find_step (op : ChrootOperation) (k : ChrootKey) :
    (db.step cfg op).coprChroots.find k =
      ((db.coprChroots.find k).map fun c => db.change cfg c op).or
        ((db.created op).find? fun c => decide (c.key = k)) := by
  cases op with
  | updateFromNames copr names unfinished now => exact find_updateFromNames
  | rawhideToRelease copr rawhide dest freshBuilds now => exact find_rawhideToRelease
  | createMockChroot name activated =>
    simp [step, createMockChroot, change, created]
  | alterChroot action name now =>
    simp only [step, funcAlterChroot, change, created, List.find?_nil, Option.or_none]
    by_cases known : db.Known name
    · rw [if_neg (not_not_intro known), find_updateChroots]
      simp [known]
    · simp [known]
  | addProject copr selectedChroots =>
    simp only [step, addProject, change, created, newFromNames, Option.map_id']
    split
    · simp
    · rw [find_addChroots]
      rfl
  | forkProject copr id user ownerName name =>
    simp only [step, forkProject, change, created, Option.map_id']
    cases db.coprs.find copr with
    | none => simp
    | some source =>
      cases db.coprs.find id with
      | none => simp [find_addChroots]
      | some taken => simp
  | updatePermissions copr approvedAdmins =>
    simp [step, updatePermissions, change, created]
  | deleteProject copr => simp [step, deleteProject, change, created]
  | updateChroot k' args => simp [step, change, created, find_updateChrootAt]
  | extend k' now => simp [step, change, created, find_updateChrootAt]
  | expire k' now => simp [step, change, created, find_updateChrootAt]
  | buildSubmitted k' now => simp [step, change, created, find_updateChrootAt]
  | triggerRollingEolPolicy now =>
    simp [step, triggerRollingEolPolicy, change, created, find_updateChroots]
  | notifyOutdatedChroots all emailFilter sendMail now =>
    simp [step, notifyOutdatedChroots, change, created, find_updateChroots]
  | fixupUnnoticedChroots deleteAfterDays prolongDays now =>
    simp [step, fixupUnnoticedChroots, change, created, find_updateChroots]
  | deleteOutdatedChroots now =>
    simp [step, deleteOutdatedChroots, change, created, find_updateChroots]

/-- What is known of a chroot after an operation: it was changed or created. -/
theorem find_step_eq_some {op : ChrootOperation} {k : ChrootKey} {c : CoprChroot} :
    (db.step cfg op).coprChroots.find k = some c ↔
      (∃ before, db.coprChroots.find k = some before ∧ db.change cfg before op = c) ∨
        db.coprChroots.find k = none ∧
          (db.created op).find? (fun c => decide (c.key = k)) = some c := by
  rw [find_step, Option.or_eq_some_iff, Option.map_eq_some_iff, Option.map_eq_none_iff]

/-- What an operation does to a mock chroot that is there. -/
theorem findMock_step (op : ChrootOperation) {name : String} (known : db.Known name) :
    (db.step cfg op).mockChroots.find name =
      (db.mockChroots.find name).map fun m => changeMock m op := by
  cases op with
  | createMockChroot name' activated =>
    obtain ⟨m, found⟩ := Option.isSome_iff_exists.mp known
    simp [step, createMockChroot, changeMock, found]
  | alterChroot action name' now =>
    simp only [step, funcAlterChroot, changeMock]
    by_cases there : db.Known name'
    · rw [if_neg (not_not_intro there)]
      simp [updateChroots]
    · rw [if_pos there]
      have other : name ≠ name' := fun same => there (same ▸ known)
      cases found : db.mockChroots.find name with
      | none => rfl
      | some m =>
        rw [Option.map_some, if_neg ((Table.find_eq_some.mp found).2 ▸ other)]
  | addProject copr selectedChroots =>
    simp only [step, addProject, changeMock, Option.map_id']
    split <;> rfl
  | forkProject copr id user ownerName name' =>
    simp only [step, forkProject, changeMock, Option.map_id']
    split <;> rfl
  | updateFromNames copr names unfinished now =>
    simp only [step, updateFromNames, changeMock, Option.map_id']
    split <;> rfl
  | rawhideToRelease copr rawhide dest freshBuilds now =>
    simp only [step, rawhideToRelease, changeMock, Option.map_id']
    split
    · split <;> rfl
    · rfl
  | updatePermissions | deleteProject | updateChroot | extend | expire | buildSubmitted
  | triggerRollingEolPolicy | notifyOutdatedChroots | fixupUnnoticedChroots
  | deleteOutdatedChroots =>
    simp only [changeMock, Option.map_id']
    rfl

/-- No operation makes a mock chroot rolling. -/
theorem rolling_step (op : ChrootOperation) {name : String} (known : db.Known name) :
    (db.step cfg op).rolling name = db.rolling name := by
  have same : ∀ m, (changeMock m op).rolling = m.rolling := by
    intro m
    unfold changeMock
    split
    · split <;> rfl
    · rfl
  rw [rolling, findMock_step op known, Option.any_map]
  exact congrArg (fun f => (db.mockChroots.find name).any f) (funext same)

/-- Whether a mock chroot is active after an operation. -/
theorem isActive_step (op : ChrootOperation) {name : String} (known : db.Known name) :
    (db.step cfg op).isActive name =
      match op with
      | .alterChroot action name' _ =>
        if name = name' then decide (action = .activate) else db.isActive name
      | _ => db.isActive name := by
  rw [isActive, findMock_step op known, Option.any_map]
  cases op with
  | alterChroot action name' now =>
    obtain ⟨m, found⟩ := Option.isSome_iff_exists.mp known
    have named : m.name = name := (Table.find_eq_some.mp found).2
    simp only [isActive, found, Option.any_some, changeMock, named]
    split <;> rfl
  | _ => rfl

variable (db) in
/-- Where a chroot that an operation creates comes from. -/
inductive Origin : ChrootOperation → CoprChroot → Prop
  /-- It is new, and nothing is set. -/
  | new {op : ChrootOperation} {c : CoprChroot} (known : db.Known c.mockChroot)
      (enabled : c.deleted = false) (unset : c.deleteAfter = none ∧ c.deleteNotify = none) :
      Origin op c
  /-- It is the clone of a chroot for a fork. -/
  | forked {copr id : Nat} {user ownerName name : String} {source : CoprChroot}
      (found : (db.coprs.find copr).isSome = true) (unused : db.coprs.find id = none)
      (member : source ∈ db.activeCoprChroots copr) :
      Origin (.forkProject copr id user ownerName name)
        (createChrootFrom source (some id) (some source.mockChroot))
  /-- It is the clone of a rawhide chroot, for a build. -/
  | built {copr : Nat} {rawhide dest : String} {now : DateTime} {source : CoprChroot}
      (known : db.Known dest) :
      Origin (.rawhideToRelease copr rawhide dest true now)
        ((createChrootFrom source none (some dest)).buildSubmitted now)
  /-- It is the clone of a rawhide chroot, without a build. -/
  | branched {copr : Nat} {rawhide dest : String} {now : DateTime} {source : CoprChroot}
      (known : db.Known dest) (unused : db.coprChroots.find ⟨copr, dest⟩ = none)
      (found : db.coprChroots.find ⟨copr, rawhide⟩ = some source) :
      Origin (.rawhideToRelease copr rawhide dest false now)
        (createChrootFrom source none (some dest))

/-- Every chroot that is created has such an origin. -/
theorem origin_of_created {op : ChrootOperation} {c : CoprChroot} (created : c ∈ db.created op) :
    db.Origin op c := by
  cases op with
  | addProject copr selectedChroots =>
    simp only [EolDatabase.created] at created
    split at created
    · cases created
    · obtain ⟨name, listed, rfl⟩ := List.mem_map.mp created
      exact .new (known_of_mem listed) rfl ⟨rfl, rfl⟩
  | forkProject copr id user ownerName name =>
    simp only [EolDatabase.created] at created
    split at created
    · rename_i source found unused
      obtain ⟨chroot, member, rfl⟩ := List.mem_map.mp created
      exact .forked (by rw [found]; rfl) unused member
    · cases created
  | updateFromNames copr names unfinished now =>
    simp only [EolDatabase.created] at created
    split at created
    · cases created
    · obtain ⟨name, listed, rfl⟩ := List.mem_map.mp created
      exact .new (known_of_mem listed) rfl ⟨rfl, rfl⟩
  | rawhideToRelease copr rawhide dest freshBuilds now =>
    simp only [EolDatabase.created] at created
    split at created
    · rename_i branched
      obtain ⟨clone, member, rfl⟩ := List.mem_map.mp created
      obtain ⟨unused, source, found, rfl⟩ := mem_branchedChroot.mp member
      cases freshBuilds with
      | true => exact .built branched.1
      | false => exact .branched branched.1 unused found
    · cases created
  | _ => cases created

/-- Chroots are created for known mock chroots. -/
theorem known_of_created {op : ChrootOperation} {c : CoprChroot} (created : c ∈ db.created op) :
    db.Known c.mockChroot := by
  cases origin_of_created created with
  | new known => exact known
  | @forked _ _ _ _ _ source _ _ member =>
    exact db.references source (List.mem_of_mem_filter member)
  | built known => exact known
  | branched known => exact known

/-- The operations that create chroots leave their mock chroots as they are. -/
theorem isActive_of_created {op : ChrootOperation} {c : CoprChroot}
    (created : c ∈ db.created op) :
    (db.step cfg op).isActive c.mockChroot = db.isActive c.mockChroot := by
  rw [isActive_step op (known_of_created created)]
  cases op with
  | alterChroot action name now => cases created
  | _ => rfl

/-- The clone is there after branching, unless it is for a build. -/
theorem find_branched {copr : Nat} {rawhide dest : String} {now : DateTime} {c : CoprChroot}
    (known : db.Known dest) (clone : c ∈ db.branchedChroot copr rawhide dest) :
    (db.step cfg (.rawhideToRelease copr rawhide dest false now)).coprChroots.find ⟨copr, dest⟩ =
      some c := by
  obtain ⟨unused, rawhideChroot, found, rfl⟩ := mem_branchedChroot.mp clone
  have single : db.branchedChroot copr rawhide dest =
      [createChrootFrom rawhideChroot none (some dest)] := by
    simp [branchedChroot, unused, found]
  refine find_step_eq_some.mpr (Or.inr ⟨unused, ?_⟩)
  simp [created, known, found, single, key_of_branchedChroot clone]

/-! ## Which chroots are notified and deleted -/

/-- Mails are sent about chroots that the users are responsible for. -/
theorem mem_notifyUsers {all : Bool} {sendMail : String → Bool} {now : DateTime}
    {groups : List (String × List ChrootKey)} {notified : List ChrootKey} {k : ChrootKey}
    (member : k ∈ db.notifyUsers cfg all sendMail now groups notified) :
    k ∈ notified ∨ ∃ group ∈ groups, k ∈ group.2 := by
  induction groups generalizing notified with
  | nil => exact Or.inl member
  | cons group rest ih =>
    simp only [notifyUsers] at member
    split at member
    · rcases ih member with before | ⟨other, listed, inside⟩
      · exact Or.inl before
      · exact Or.inr ⟨other, List.mem_cons_of_mem _ listed, inside⟩
    · rcases ih member with before | ⟨other, listed, inside⟩
      · rcases List.mem_append.mp before with earlier | due
        · exact Or.inl earlier
        · exact Or.inr ⟨group, List.mem_cons_self, List.mem_of_mem_filter due⟩
      · exact Or.inr ⟨other, List.mem_cons_of_mem _ listed, inside⟩

/-- Mails are sent about chroots that are going to be deleted and were not unclicked. -/
theorem mem_notified {all : Bool} {emailFilter sendMail : String → Bool} {now : DateTime}
    {k : ChrootKey} (member : k ∈ db.notified cfg all emailFilter sendMail now) :
    ∃ c, db.coprChroots.find k = some c ∧ c.deleteAfter.isSome = true ∧ c.deleted = false := by
  rcases mem_notifyUsers member with none_ | ⟨⟨user, keys⟩, listed, inside⟩
  · cases none_
  · have pair := Dicts.mem_group.mp ⟨keys, listed, inside⟩
    obtain ⟨c, outdated, mapped⟩ := List.mem_flatMap.mp pair
    obtain ⟨_, _, same⟩ := List.mem_map.mp mapped
    obtain ⟨row, conditions⟩ := List.mem_filter.mp outdated
    simp only [Bool.and_eq_true, Bool.not_eq_true'] at conditions
    refine ⟨c, Table.find_eq_some.mpr ⟨row, congrArg Prod.snd same⟩, ?_, conditions.1.1.2⟩
    exact Option.isSome_of_any conditions.1.1.1

/-- Only expired chroots are deleted. -/
theorem mem_deleteLoop {now : DateTime} {chroots : List (CoprChroot × Nat)}
    {committed pending : List CoprChroot} {c : CoprChroot}
    (member : c ∈ db.deleteLoop now chroots committed pending) :
    c ∈ committed ∨ c ∈ pending ∨
      c ∈ chroots.map Prod.fst ∧ db.deleteStatus c now = some .expired := by
  induction chroots generalizing committed pending with
  | nil =>
    rcases List.mem_append.mp member with before | now_
    · exact Or.inl before
    · exact Or.inr (Or.inl now_)
  | cons chroot rest ih =>
    have later : c ∈ rest.map Prod.fst ∧ db.deleteStatus c now = some .expired →
        c ∈ (chroot :: rest).map Prod.fst ∧ db.deleteStatus c now = some .expired :=
      And.imp_left (List.mem_cons_of_mem _)
    unfold deleteLoop at member
    split at member
    · exact Or.inl member
    · rename_i status found
      have here : ∀ expired : ¬ status ≠ .expired, c = chroot.1 →
          c ∈ (chroot :: rest).map Prod.fst ∧ db.deleteStatus c now = some .expired := by
        rintro expired rfl
        exact ⟨List.mem_cons_self, found.trans (congrArg some (not_not.mp expired))⟩
      split at member
      · exact (ih member).imp id (Or.imp id later)
      · rename_i expired
        split at member
        · rcases ih member with done | single | rest
          · exact (List.mem_append.mp done).imp id Or.inl
          · exact Or.inr (Or.inr (here expired (List.mem_singleton.mp single)))
          · exact Or.inr (Or.inr (later rest))
        · rcases ih member with done | waiting | rest
          · exact Or.inl done
          · rcases List.mem_append.mp waiting with before | single
            · exact Or.inr (Or.inl before)
            · exact Or.inr (Or.inr (here expired (List.mem_singleton.mp single)))
          · exact Or.inr (Or.inr (later rest))

/-- The chroots that are deleted are there and expired. -/
theorem mem_deletedChroots {now : DateTime} {c : CoprChroot}
    (member : c ∈ db.deletedChroots now) :
    c ∈ db.coprChroots.rows ∧ db.deleteStatus c now = some .expired := by
  rcases mem_deleteLoop member with none_ | none_ | ⟨listed, expired⟩
  · cases none_
  · cases none_
  · rw [List.zipIdx_map_fst] at listed
    exact ⟨List.mem_of_mem_filter listed, expired⟩

end EolDatabase

end Copr
