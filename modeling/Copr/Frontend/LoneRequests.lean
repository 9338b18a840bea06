import Copr.Frontend.AcknowledgedUpdates
import Copr.Frontend.Reports

/-!
# A request alone

When no other session takes a step, what the session writes back is the row that
`update_state_from_dict` gives for the row in the table, the package being there or being
created on the way. So a request that runs alone is a message of the sequential model.
-/

namespace Copr

open BuildTables Histories Runs Tables

/-! ## Writing back the row that was loaded -/

/-- A column is written back as the session has it, when it is as it was loaded. -/
@[simp] theorem flushed_loaded {α : Type} [DecidableEq α] (loaded updated : α) :
    flushed loaded updated loaded = updated := by
  unfold flushed
  split
  · rename_i same
    exact same.symm
  · rfl

/-- A message keeps what a chroot is and adds to its results. -/
def BuildChroot.Grows (c d : BuildChroot) : Prop :=
  d.mockChroot = c.mockChroot ∧ ∃ packages, d.results = c.results ++ packages

/-- The row of a chroot is written back. -/
theorem BuildChroot.flush_loaded {c d : BuildChroot} (grows : c.Grows d) : c.flush d c = d := by
  obtain ⟨mock, packages, results⟩ := grows
  cases d
  change _ = c.mockChroot at mock
  change _ = c.results ++ packages at results
  subst mock results
  simp [flush]

namespace BuildsLogic

/-- A message about the source build lets chroots grow. -/
theorem sourceChroot_grows (env : Surroundings) (upd : UpdDict) (c : BuildChroot) :
    c.Grows (sourceChroot env upd c) := by
  obtain ⟨mock, results⟩ := sourceChroot_keeps env upd c
  exact ⟨mock, [], by rw [results, List.append_nil]⟩

/-- A message about a chroot lets chroots grow. -/
theorem updateChroot_grows (env : Surroundings) (upd : UpdDict) (c : BuildChroot) :
    c.Grows (updateChroot env upd c) := by
  unfold updateChroot
  split
  · refine ⟨rfl, if upd.status.Terminal then upd.packages else [], ?_⟩
    show (if upd.status.Terminal then c.results ++ upd.packages else c.results) = _
    split
    · rfl
    · rw [List.append_nil]
  · exact ⟨rfl, [], (List.append_nil _).symm⟩

/-- What a message changes: some columns of the build, and its chroots one by one, unless they
are allocated. -/
theorem updateAssigned_rewrites {env : Surroundings} {b updated : Build} {upd : UpdDict}
    (computed : updateAssigned env b upd = some updated) :
    updated = { b with
      builtPackages := updated.builtPackages
      srpmUrl := updated.srpmUrl
      pkgVersion := updated.pkgVersion
      resultDir := updated.resultDir
      sourceStatus := updated.sourceStatus
      failType := updated.failType
      buildChroots := updated.buildChroots } ∧
    (b.buildChroots = [] ∨ ∃ change : BuildChroot → BuildChroot,
      (∀ c : BuildChroot, c.Grows (change c)) ∧
        updated.buildChroots = b.buildChroots.map change) := by
  unfold updateAssigned at computed
  split at computed
  · rw [updateSource_eq] at computed
    split at computed
    · obtain rfl := Option.some.inj computed
      refine ⟨rfl, ?_⟩
      by_cases empty : b.buildChroots = []
      · exact Or.inl empty
      · right
        refine ⟨sourceChroot env upd, sourceChroot_grows env upd, ?_⟩
        show (sourceChroots env (setAttributes b upd) upd).map _ = _
        have kept : sourceChroots env (setAttributes b upd) upd = b.buildChroots := by
          rw [sourceChroots]
          exact if_neg fun both => empty both.2
        rw [kept]
    · contradiction
  · obtain rfl := Option.some.inj computed
    exact ⟨rfl, Or.inr ⟨updateChroot env upd, updateChroot_grows env upd, rfl⟩⟩

end BuildsLogic

namespace PendingWrite

variable {write : PendingWrite}

/-- A row is written back to the row that was loaded. -/
theorem flush_loaded {env : Surroundings} {package : Option String}
    (distinct : write.loaded.Distinct)
    (computed : BuildsLogic.updateAssigned env { write.loaded with package := package }
      write.upd = some write.updated) : write.flush write.loaded = write.updated := by
  obtain ⟨row, chroots⟩ := BuildsLogic.updateAssigned_rewrites computed
  have same : write.loaded.buildChroots.map write.flushChroot ++ write.addedChroots =
      write.updated.buildChroots := by
    rcases chroots with empty | ⟨change, grows, becomes⟩
    · have fresh : ∀ c ∈ write.updated.buildChroots,
          (write.loaded.chrootNamed c.name).isNone = true := by
        intro c _
        change write.loaded.buildChroots = [] at empty
        rw [Build.chrootNamed, empty]
        rfl
      change write.loaded.buildChroots = [] at empty
      rw [empty, List.map_nil, List.nil_append, addedChroots, List.filter_eq_self.mpr fresh]
    · change write.updated.buildChroots = write.loaded.buildChroots.map change at becomes
      have names : ∀ c, (change c).name = c.name := fun c => congrArg MockChroot.name (grows c).1
      let rows : Table BuildChroot.name := ⟨write.loaded.buildChroots, distinct⟩
      have found : ∀ c ∈ write.loaded.buildChroots,
          write.loaded.chrootNamed c.name = some c := fun c member =>
        (Table.find_of_mem member : rows.find c.name = some c)
      have changed : ∀ name, write.updated.chrootNamed name =
          (write.loaded.chrootNamed name).map change := by
        intro name
        rw [Build.chrootNamed, becomes, List.find?_map]
        simp only [Function.comp_def, names]
        rfl
      have none_added : write.addedChroots = [] := by
        refine List.filter_eq_nil_iff.mpr fun d listed => ?_
        rw [becomes] at listed
        obtain ⟨c, member, rfl⟩ := List.mem_map.mp listed
        rw [names, found c member]
        exact Bool.false_ne_true
      rw [none_added, List.append_nil, becomes]
      refine List.map_congr_left fun c member => ?_
      rw [flushChroot, changed, found c member]
      exact BuildChroot.flush_loaded (grows c)
  rw [flush, same, row]
  simp

end PendingWrite

namespace BuildTables

variable {tables : BuildTables} {b : Build}

/-- A session that has changed a build commits this row. -/
theorem flush_alone (write : PendingWrite) (here : tables.builds.find b.id = some b)
    (loaded : write.loaded = b) :
    ∃ next, tables.flush [write] = some next ∧
      next.builds.find b.id = some (write.flush b) := by
  have calm : ¬ tables.builds.rows.any (rowConflicts [write]) = true := by
    rw [List.any_eq_true]
    rintro ⟨row, listed, conflict⟩
    unfold rowConflicts at conflict
    by_cases own : b.id = row.id
    · have same : row = b :=
        Table.eq_of_key listed (Table.find_eq_some.mp here).1 own.symm
      rw [same, List.find?_cons_of_pos (by rw [loaded]; exact decide_eq_true rfl)] at conflict
      obtain ⟨c, added, there⟩ := List.any_eq_true.mp conflict
      have fresh := (List.mem_filter.mp added).2
      rw [loaded] at fresh
      rw [Option.isNone_iff_eq_none.mp fresh] at there
      contradiction
    · rw [List.find?_cons_of_neg (by rw [loaded]; simpa using own)] at conflict
      contradiction
  refine ⟨_, if_neg calm, ?_⟩
  have flushed : Flushes tables [write] _ := flushes_of_flush (if_neg calm)
  rw [flushed, here, Option.map_some, flushRow,
    List.find?_cons_of_pos (by rw [loaded]; exact decide_eq_true rfl)]

end BuildTables

namespace ConcurrentFrontend

variable {w : ConcurrentFrontend} {sid id : Nat} {s : Session} {b updated : Build}
  {upd : UpdDict} {env : Surroundings}

/-- A step of a session without an answer is its own event. -/
theorem step_session {e : SessionEvent} (session : w.sessions sid = some s)
    (unanswered : s.answer = none) : step w (sid, e) = w.advance sid s e := by
  simp [step, session, unanswered]

/-- A session is what it has become. -/
@[simp] theorem sessions_resume : (w.resume sid s).sessions sid = some s :=
  Function.update_self sid _ _

/-- A session that goes on has committed nothing. -/
@[simp] theorem tables_resume : (w.resume sid s).tables = w.tables := rfl

/-- An event of a session without an answer is a step of the frontend. -/
theorem move {w' : ConcurrentFrontend} {e : SessionEvent} (session : w.sessions sid = some s)
    (unanswered : s.answer = none) (advanced : w.advance sid s e = some w') :
    Move step anyEvent w w' :=
  ⟨(sid, e), trivial, (step_session session unanswered).trans advanced⟩

/-- A session that has settled the package of its only message applies it and answers. -/
theorem lone_rest {assign : Option String} (session : w.sessions sid = some s)
    (unanswered : s.answer = none) (stage : s.stage = .settled assign)
    (todo : s.todo = [(id, upd)]) (written : s.written = [])
    (here : w.tables.builds.find id = some b) (row : s.row w.tables id = some b)
    (distinct : b.Distinct)
    (computed : BuildsLogic.updateAssigned env
      { b with package := w.tables.assignedPackage b assign } upd = some updated) :
    ∃ w', Run step anyEvent w w' ∧ w'.exchange sid = some (s.request, some s.reply) ∧
      w'.tables.builds.find id = some updated := by
  obtain rfl := (Table.find_eq_some.mp here).2
  let write : PendingWrite := ⟨upd, env, b, updated⟩
  let applied : Session :=
    { s with todo := [], stage := .entered, loaded := b :: s.loaded, written := [write] }
  have first : w.advance sid s (.update env) = some (w.resume sid applied) := by
    simp only [advance, stage, todo, update, row, here, Option.bind_eq_bind, Option.bind_some,
      computed, written, List.nil_append]
    rfl
  obtain ⟨next, flushed, after⟩ := flush_alone write here rfl
  have written_back : write.flush b = updated := PendingWrite.flush_loaded distinct computed
  rw [written_back] at after
  have last : (w.resume sid applied).advance sid applied .respond = some
      ((w.resume sid applied).commit sid applied
        { applied.committed with answer := some applied.reply } next) := by
    show (w.tables.flush [write]).map _ = _
    rw [flushed]
    rfl
  refine ⟨_, .tail (.tail .refl (move session unanswered first))
    (move sessions_resume unanswered last), ?_, after⟩
  simp [exchange, commit, Session.committed, Session.reply, applied]

/-- The package of a name is the one that exists. -/
theorem getPackage_of_exists {tables : BuildTables} {name : String}
    (there : tables.packageExists id name = true) : tables.getPackage id name = some name := by
  obtain ⟨key, found⟩ := Option.isSome_iff_exists.mp there
  have same : key = (tables.coprId id, name) := (Table.find_eq_some.mp found).2
  rw [getPackage, found, same]
  rfl

/-- The package of a name is there after its commit. -/
theorem getPackage_inserted (tables : BuildTables) (name : String) :
    (tables.insertPackage id name).getPackage id name = some name := by
  apply getPackage_of_exists
  show ((tables.packages.insert _).find (tables.coprId id, name)).isSome = true
  rw [Table.find_insert, if_pos rfl, Option.isSome_or, Option.isSome_some, Bool.or_true]

/-- A commit without changes leaves all builds as they are. -/
theorem flush_nil (tables : BuildTables) :
    ∃ next, tables.flush [] = some next ∧ ∀ id, next.builds.find id = tables.builds.find id := by
  have calm : ¬ tables.builds.rows.any (rowConflicts []) = true := by
    rw [List.any_eq_true]
    rintro ⟨row, -, conflict⟩
    contradiction
  have flushed : tables.flush [] = some _ := if_neg calm
  refine ⟨_, flushed, fun id => ?_⟩
  rw [flushes_of_flush flushed id]
  exact congrFun Option.map_id (tables.builds.find id)

/-- A session that is about to create the package of its only message commits it, applies the
message and answers. -/
theorem lone_create {name : String} (session : w.sessions sid = some s)
    (unanswered : s.answer = none) (stage : s.stage = .added name)
    (todo : s.todo = [(b.id, upd)]) (written : s.written = [])
    (missing : ¬ w.tables.packageExists b.id name = true)
    (here : w.tables.builds.find b.id = some b) (distinct : b.Distinct)
    (computed : BuildsLogic.updateAssigned env { b with package := some name } upd =
      some updated) :
    ∃ w', Run step anyEvent w w' ∧ w'.exchange sid = some (s.request, some s.reply) ∧
      w'.tables.builds.find b.id = some updated := by
  obtain ⟨next, flushed, same⟩ := flush_nil w.tables
  let created : Session := { s.committed with stage := .settled (some name) }
  let grown := w.commit sid s created (next.insertPackage b.id name)
  have creates : w.advance sid s .createPackage = some grown := by
    simp only [advance, stage, todo, createPackage, if_neg missing, written, flushed]
    rfl
  have stored : grown.tables.builds.find b.id = some b := (same b.id).trans here
  have assigned : grown.tables.assignedPackage b (some name) = some name :=
    getPackage_inserted next name
  obtain ⟨w', run, done⟩ := lone_rest (w := grown) (s := created) (Function.update_self sid _ _)
    unanswered rfl todo rfl stored stored distinct (by rw [assigned]; exact computed)
  exact ⟨w', .head (move session unanswered creates) run, done⟩

/-- `update_state_from_dict` in a session alone: whatever becomes of the package, the message is
applied to the row and the request is answered. -/
theorem lone_session (session : w.sessions sid = some s) (unanswered : s.answer = none)
    (stage : s.stage = .entered) (todo : s.todo = [(b.id, upd)]) (written : s.written = [])
    (here : w.tables.builds.find b.id = some b) (row : s.row w.tables b.id = some b)
    (distinct : b.Distinct) (present : env.packageLookup = .present)
    (computed : BuildsLogic.updateStateFromDict env b upd = some updated) :
    ∃ w', Run step anyEvent w w' ∧ w'.exchange sid = some (s.request, some s.reply) ∧
      w'.tables.builds.find b.id = some updated := by
  let looked (stage : UpdateStage) : Session :=
    { s with loaded := b :: s.loaded, stage := stage }
  have rowLooked (stage : UpdateStage) : (looked stage).row w.tables b.id = some b := by
    simp [looked, Session.row]
  have settles (assign : Option String)
      (settled : w.advance sid s .lookUp = some (w.resume sid (looked (.settled assign))))
      (rest : BuildsLogic.updateAssigned env
        { b with package := w.tables.assignedPackage b assign } upd = some updated) :
      ∃ w', Run step anyEvent w w' ∧ w'.exchange sid = some (s.request, some s.reply) ∧
        w'.tables.builds.find b.id = some updated := by
    obtain ⟨w', run, done⟩ := lone_rest (w := w.resume sid (looked (.settled assign)))
      sessions_resume unanswered rfl todo written here (rowLooked _) distinct rest
    exact ⟨w', .head (move session unanswered settled) run, done⟩
  rw [BuildsLogic.updateStateFromDict] at computed
  cases package : b.package with
  | some own =>
    rw [package] at computed
    apply settles none _ computed
    simp [advance, stage, todo, lookUp, row, package, looked]
  | none =>
    cases named : truthyText upd.pkgName with
    | none =>
      rw [package, named] at computed
      apply settles none _ computed
      simp [advance, stage, todo, lookUp, row, named, looked]
    | some name =>
      simp only [package, named, present] at computed
      by_cases there : w.tables.packageExists b.id name = true
      · apply settles (some name)
        · simp [advance, stage, todo, lookUp, row, package, named, looked, there]
        · rw [assignedPackage, getPackage_of_exists there]
          exact computed
      · let first := w.resume sid (looked (.missing name))
        let added : Session := { looked (.missing name) with stage := .added name }
        have looks : w.advance sid s .lookUp = some first := by
          simp [advance, stage, todo, lookUp, row, package, named, looked, there, first]
        have adds : first.advance sid (looked (.missing name)) .add =
            some (first.resume sid added) := by
          simp [advance, looked, todo, add, first, there, added]
        obtain ⟨w', run, done⟩ := lone_create (w := first.resume sid added) (s := added)
          sessions_resume unanswered rfl todo written there here distinct computed
        exact ⟨w', .head (move session unanswered looks)
          (.head (move sessions_resume unanswered adds) run), done⟩

/-- A request of `starting_build` that runs alone does what the message does. -/
theorem lone_startingBuild {tables : BuildTables} (sid : Nat)
    (here : tables.builds.find id = some b) (distinct : b.Distinct)
    (present : env.packageLookup = .present)
    (starts : b.startingBuild env upd = some (true, updated)) :
    ∃ w, Run step anyEvent (start tables) w ∧
      w.exchange sid = some (.startingBuild id upd, some (.canStart true)) ∧
      w.tables.builds.find id = some updated := by
  unfold Build.startingBuild at starts
  split at starts
  · simp at starts
  · rename_i going
    obtain ⟨result, computed, same⟩ := Option.map_eq_some_iff.mp starts
    obtain rfl := (Prod.mk.inj same).2
    obtain rfl := (Table.find_eq_some.mp here).2
    let s : Session :=
      { request := .startingBuild b.id upd, since := 0, existing := [b.id],
        todo := [(b.id, upd)], loaded := [b] }
    have receives : Session.receive tables 0 (.startingBuild b.id upd) = s := by
      simp only [Session.receive, here, if_neg going]
      rfl
    have first : Move step anyEvent (start tables) ((start tables).resume sid s) :=
      ⟨(sid, .receive (.startingBuild b.id upd)), trivial, by
        show some ((start tables).resume sid (Session.receive tables 0 _)) = _
        rw [receives]⟩
    have row : s.row tables b.id = some b := by simp [Session.row, s]
    obtain ⟨w, run, answered, after⟩ := lone_session (w := (start tables).resume sid s)
      sessions_resume rfl rfl rfl rfl here row distinct present computed
    exact ⟨w, .head first run, answered, after⟩

end ConcurrentFrontend

end Copr
