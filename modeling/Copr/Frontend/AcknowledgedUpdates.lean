import Copr.Frontend.BackendGeneral
import Copr.Frontend.FlushedBuilds

/-!
# Acknowledged updates

Sessions are interleaved in any way. As long as a session does not lose the race for a package
that it has found missing, the messages that its answer acknowledges have been applied. A
session that loses the race rolls back and is answered as if it had not.
-/

namespace Copr

open BuildTables Histories Runs Tables

namespace ConcurrentFrontend

variable {w w' : ConcurrentFrontend} {sid : Nat} {s next : Session} {e : SessionEvent}

/-! ## What a step does -/

/-- A session steps. -/
inductive Moves (w : ConcurrentFrontend) (sid : Nat) (s : Session) :
    SessionEvent → ConcurrentFrontend → Prop
  /-- The package was looked up, or is not needed. -/
  | looked {buildId : Nat} {b : Build} {stage : UpdateStage}
      (found : s.row w.tables buildId = some b) :
      Moves w sid s .lookUp (w.resume sid { s with loaded := b :: s.loaded, stage := stage })
  /-- The package was created by another session meanwhile. -/
  | raced {e : SessionEvent} (race : e = .add ∨ e = .createPackage)
      (lost : w.losesRace sid = true) : Moves w sid s e (w.resume sid s.rollback)
  /-- The package was added to the session. -/
  | added {name : String} : Moves w sid s .add (w.resume sid { s with stage := .added name })
  /-- The package was committed. -/
  | created {buildId : Nat} {name : String} {tables : BuildTables}
      (flushed : w.tables.flush s.written = some tables) :
      Moves w sid s .createPackage
        (w.commit sid s { s.committed with stage := .settled (some name) }
          (tables.insertPackage buildId name))
  /-- The message was applied in the session. -/
  | updated {env : Surroundings} {buildId : Nat} {upd : UpdDict} {rest : List (Nat × UpdDict)}
      {b current updated : Build} {package : Option String}
      (item : s.todo = (buildId, upd) :: rest) (found : s.row w.tables buildId = some b)
      (here : w.tables.builds.find buildId = some current)
      (computed : BuildsLogic.updateAssigned env
        { b with buildChroots := current.buildChroots, package := package } upd = some updated) :
      Moves w sid s (.update env) (w.resume sid { s with
        todo := rest
        stage := .entered
        loaded := b :: s.loaded
        written := s.written ++
          [⟨upd, env, { b with buildChroots := current.buildChroots }, updated⟩] })
  /-- The request was answered. -/
  | responded {tables : BuildTables} (done : s.todo = [])
      (flushed : w.tables.flush s.written = some tables) :
      Moves w sid s .respond (w.commit sid s { s.committed with answer := some s.reply } tables)
  /-- The request has failed. -/
  | failed : Moves w sid s .fail (w.resume sid { s with answer := some .failed })

/-- Every step of a session is one of these. -/
theorem moves_of_step (session : w.sessions sid = some s) (stepped : step w (sid, e) = some w') :
    s.answer = none ∧ Moves w sid s e w' := by
  simp only [step, session] at stepped
  by_cases answered : s.answer.isSome
  · rw [if_pos answered] at stepped
    contradiction
  rw [if_neg answered] at stepped
  refine ⟨by simpa using answered, ?_⟩
  cases e with
  | receive request => contradiction
  | lookUp =>
    simp only [advance] at stepped
    split at stepped
    · obtain ⟨b, found, rfl⟩ := Option.map_eq_some_iff.mp stepped
      exact .looked found
    · contradiction
  | add =>
    simp only [advance] at stepped
    split at stepped
    · rename_i name buildId upd rest stage todo
      obtain rfl := Option.some.inj stepped
      unfold add
      split
      · rename_i there
        have lost : w.losesRace sid = true := by
          rw [losesRace, session]
          simp only [stage, todo, there]
        exact .raced (Or.inl rfl) lost
      · exact .added
    · contradiction
  | createPackage =>
    simp only [advance, createPackage] at stepped
    split at stepped
    · rename_i name buildId upd rest stage todo
      split at stepped
      · rename_i there
        obtain rfl := Option.some.inj stepped
        have lost : w.losesRace sid = true := by
          rw [losesRace, session]
          simp only [stage, todo, there]
        exact .raced (Or.inr rfl) lost
      · obtain ⟨tables, flushed, rfl⟩ := Option.map_eq_some_iff.mp stepped
        exact .created flushed
    · contradiction
  | update env =>
    simp only [advance, update] at stepped
    split at stepped
    · rename_i assign buildId upd rest stage todo
      obtain ⟨b, found, later⟩ := Option.bind_eq_some_iff.mp stepped
      obtain ⟨current, here, last⟩ := Option.bind_eq_some_iff.mp later
      obtain ⟨updated, computed, done⟩ := Option.bind_eq_some_iff.mp last
      obtain rfl := Option.some.inj done
      rw [todo, List.tail_cons]
      exact .updated todo found here computed
    · contradiction
  | respond =>
    simp only [advance, respond] at stepped
    split at stepped
    · rename_i done
      obtain ⟨tables, flushed, rfl⟩ := Option.map_eq_some_iff.mp stepped
      exact .responded done flushed
    · contradiction
  | fail =>
    obtain rfl := Option.some.inj stepped
    exact .failed

/-- A step changes its own session only, and the tables by the changes of the session. -/
theorem other_session {event : Nat × SessionEvent} (other : sid ≠ event.1)
    (stepped : step w event = some w') :
    w'.sessions sid = w.sessions sid ∧
      (w'.history = w.history ∨ ∃ writes tables, Flushes w.tables writes tables ∧
        w'.history = w.history.commit writes tables) := by
  obtain ⟨own, e⟩ := event
  have apart : ∀ next : Session, Function.update w.sessions own (some next) sid =
      w.sessions sid := fun next => Function.update_of_ne other _ _
  cases session : w.sessions own with
  | none =>
    simp only [step, session] at stepped
    cases e with
    | receive request =>
      obtain rfl := Option.some.inj stepped
      exact ⟨apart _, Or.inl rfl⟩
    | lookUp | add | createPackage | update | respond | fail => contradiction
  | some s =>
    cases (moves_of_step session stepped).2 with
    | looked | raced | added | updated | failed => exact ⟨apart _, Or.inl rfl⟩
    | created flushed =>
      have done := (flushes_of_flush flushed).insertPackage
      exact ⟨apart _, Or.inr ⟨s.written, _, done _ _, rfl⟩⟩
    | responded _ flushed =>
      exact ⟨apart _, Or.inr ⟨s.written, _, flushes_of_flush flushed, rfl⟩⟩

end ConcurrentFrontend

/-! ## What a session has done with its messages -/

/-- The answer of a request acknowledges its message for a build. -/
def Session.Acknowledged (s : Session) (buildId : Nat) (upd : UpdDict) : Prop :=
  s.request.message buildId = some upd ∧
    match s.answer with
    | some (.updated updatedBuildsIds _) => buildId ∈ updatedBuildsIds
    | some (.canStart canStart) => canStart = true
    | _ => False

/-- What the session has read and written is held, and the messages for existing builds are to
do, written or applied. -/
structure Tracked (history : CommitHistory) (s : Session) : Prop where
  /-- The request came in the past. -/
  begun : s.since ≤ history.length
  /-- No build occurs twice. -/
  distinct : (s.written.map (fun write => write.loaded.id) ++ s.todo.map Prod.fst).Nodup
  /-- The rows of the session were read. -/
  loaded : ∀ b ∈ s.loaded, RowRead history s.since b
  /-- The changes of the session are as the messages say. -/
  written : ∀ write ∈ s.written, Pending history s.since write
  /-- No message is lost. -/
  accounted : ∀ buildId upd, s.request.message buildId = some upd → buildId ∈ s.existing →
    (buildId, upd) ∈ s.todo ∨
      (∃ write ∈ s.written, write.loaded.id = buildId ∧ write.upd = upd) ∨
      Applied history s.since buildId upd

/-- The answer fits what the session has done. -/
structure Session.Answers (s : Session) : Prop where
  /-- A build that is starting exists. -/
  started : ∀ buildId upd, s.request = .startingBuild buildId upd → s.answer = none →
    buildId ∈ s.existing
  /-- A request that acknowledges messages is done. -/
  done : ∀ buildId upd, s.Acknowledged buildId upd →
    buildId ∈ s.existing ∧ s.todo = [] ∧ s.written = []

namespace Tracked

variable {history : CommitHistory} {s : Session} {writes : List PendingWrite}
  {next : BuildTables}

/-- A commit of another session keeps what this session has read and written. -/
theorem commit (tracked : Tracked history s) (flushed : Flushes history.now writes next) :
    Tracked (history.commit writes next) s where
  begun := Nat.le_succ_of_le tracked.begun
  distinct := tracked.distinct
  loaded b member := (tracked.loaded b member).commit flushed
  written write member := (tracked.written write member).commit flushed
  accounted buildId upd message there :=
    (tracked.accounted buildId upd message there).imp_right fun either =>
      either.imp_right fun applied => applied.commit flushed

/-- The session commits its changes. -/
theorem committed (tracked : Tracked history s) (flushed : Flushes history.now s.written next)
    (stage : UpdateStage) (answer : Option RequestAnswer) :
    Tracked (history.commit s.written next)
      { s.committed with stage := stage, answer := answer } where
  begun := Nat.le_succ_of_le tracked.begun
  distinct := (List.nodup_append.mp tracked.distinct).2.1
  loaded b member := absurd member List.not_mem_nil
  written write member := absurd member List.not_mem_nil
  accounted buildId upd message there := by
    rcases tracked.accounted buildId upd message there with todo | ⟨write, member, rfl, rfl⟩ |
      applied
    · exact Or.inl todo
    · right
      right
      have apart := (List.nodup_append.mp tracked.distinct).1
      let rows : Table fun write : PendingWrite => write.loaded.id := ⟨s.written, apart⟩
      have own : rows.find write.loaded.id = some write := Table.find_of_mem member
      exact (tracked.written write member).applied tracked.begun flushed own
    · exact Or.inr (Or.inr (applied.commit flushed))

/-- A row that the session loads was read. -/
theorem rowRead (tracked : Tracked history s) {buildId : Nat} {b : Build}
    (found : s.row history.now buildId = some b) :
    b.id = buildId ∧ RowRead history s.since b := by
  rcases Option.or_eq_some_iff.mp found with loaded | ⟨-, stored⟩
  · have own : b.id = buildId := by simpa using List.find?_some loaded
    exact ⟨own, tracked.loaded b (List.mem_of_find?_eq_some loaded)⟩
  · have own := (Table.find_eq_some.mp stored).2
    subst own
    exact ⟨rfl, rowRead_now tracked.begun stored⟩

/-- A session that loads a row of the present has read it. -/
theorem looked (tracked : Tracked history s) {buildId : Nat} {b : Build} {stage : UpdateStage}
    (found : s.row history.now buildId = some b) :
    Tracked history { s with loaded := b :: s.loaded, stage := stage } where
  begun := tracked.begun
  distinct := tracked.distinct
  loaded c member := by
    rcases List.mem_cons.mp member with rfl | before
    · exact (tracked.rowRead found).2
    · exact tracked.loaded c before
  written := tracked.written
  accounted := tracked.accounted

/-- The session applies a message to its row. -/
theorem updated (tracked : Tracked history s) {env : Surroundings} {buildId : Nat}
    {upd : UpdDict} {rest : List (Nat × UpdDict)} {b current result : Build}
    {package : Option String} (item : s.todo = (buildId, upd) :: rest)
    (found : s.row history.now buildId = some b)
    (here : history.now.builds.find buildId = some current)
    (computed : BuildsLogic.updateAssigned env
      { b with buildChroots := current.buildChroots, package := package } upd = some result) :
    Tracked history { s with
      todo := rest
      stage := .entered
      loaded := b :: s.loaded
      written := s.written ++
        [⟨upd, env, { b with buildChroots := current.buildChroots }, result⟩] } where
  begun := tracked.begun
  distinct := by
    have own := (tracked.rowRead found).1
    have before := tracked.distinct
    rw [item, List.map_cons] at before
    rw [List.map_append, List.append_assoc, List.map_singleton, List.singleton_append]
    rw [← own] at before
    exact before
  loaded c member := by
    rcases List.mem_cons.mp member with rfl | before
    · exact (tracked.rowRead found).2
    · exact tracked.loaded c before
  written write member := by
    rcases List.mem_append.mp member with before | last
    · exact tracked.written write before
    · obtain rfl := List.mem_singleton.mp last
      obtain ⟨own, read⟩ := tracked.rowRead found
      subst own
      constructor
      · intro P changes only lasting holds
        exact read P changes only lasting ((only b _).mp holds)
      · intro P changes only lasting holds
        have same := only { b with buildChroots := current.buildChroots } current rfl
        exact held_now tracked.begun here (same.mp holds)
      · exact ⟨current, here, fun name loaded => loaded⟩
      · exact ⟨package, computed⟩
  accounted id message known there := by
    rcases tracked.accounted id message known there with todo | ⟨write, member, same⟩ | applied
    · rw [item] at todo
      rcases List.mem_cons.mp todo with head | later
      · obtain ⟨rfl, rfl⟩ := Prod.mk.inj head
        have own := (tracked.rowRead found).1
        exact Or.inr (Or.inl ⟨_, List.mem_append_right _ (List.mem_singleton_self _), own, rfl⟩)
      · exact Or.inl later
    · exact Or.inr (Or.inl ⟨write, List.mem_append_left _ member, same⟩)
    · exact Or.inr (Or.inr applied)

end Tracked

namespace Session

variable {s : Session}

/-- A request without an answer acknowledges nothing. -/
theorem not_acknowledged (unanswered : s.answer = none) (buildId : Nat) (upd : UpdDict) :
    ¬ s.Acknowledged buildId upd := by
  intro acknowledged
  have shown := acknowledged.2
  rw [unanswered] at shown
  exact shown

/-- A session without an answer only has to know the build that it starts. -/
theorem Answers.unanswered (answers : s.Answers) (before : s.answer = none) {t : Session}
    (request : t.request = s.request) (existing : t.existing = s.existing)
    (after : t.answer = none) : t.Answers where
  started buildId upd own _ := by
    rw [existing]
    exact answers.started buildId upd (request ▸ own) before
  done buildId upd acknowledged := absurd acknowledged (t.not_acknowledged after buildId upd)

/-- The messages of an `/update/` for the builds that exist. -/
def existingMessages (tables : BuildTables) (request : BackendRequest) : List (Nat × UpdDict) :=
  (tables.builds.rows.filter fun b => (request.message b.id).isSome).filterMap fun b =>
    (request.message b.id).map fun upd => (b.id, upd)

/-- They are for the builds that have a message. -/
theorem existingMessages_ids (tables : BuildTables) (request : BackendRequest) :
    (existingMessages tables request).map Prod.fst =
      (tables.builds.rows.filter fun b => (request.message b.id).isSome).map Build.id := by
  unfold existingMessages
  induction tables.builds.rows with
  | nil => rfl
  | cons b rest ih =>
    cases message : request.message b.id with
    | none => simp [message, ih]
    | some upd => simp [message, ih]

/-- `starting_build` is refused, or has loaded the build. -/
theorem receive_startingBuild (tables : BuildTables) (since id : Nat) (upd : UpdDict) :
    receive tables since (.startingBuild id upd) =
        { request := .startingBuild id upd, since := since, answer := some (.canStart false) } ∨
      ∃ b, tables.builds.find id = some b ∧
        receive tables since (.startingBuild id upd) =
          { request := .startingBuild id upd, since := since, existing := [id],
            todo := [(id, upd)], loaded := [b] } := by
  simp only [receive]
  cases tables.builds.find id with
  | none => exact Or.inl rfl
  | some b =>
    by_cases canceled : b.canceled = true
    · exact Or.inl (if_pos canceled)
    · exact Or.inr ⟨b, rfl, if_neg canceled⟩

/-- A new session has read its builds and has done nothing. -/
theorem receive_tracked (history : CommitHistory) (request : BackendRequest) :
    Tracked history (receive history.now history.length request) := by
  cases request with
  | update builds =>
    have ids := existingMessages_ids history.now (.update builds)
    constructor
    · exact Nat.le_refl _
    · show ((existingMessages history.now (.update builds)).map Prod.fst).Nodup
      rw [ids]
      exact history.now.builds.distinct.sublist (List.filter_sublist.map Build.id)
    · intro b member
      have stored := List.mem_of_mem_filter member
      exact rowRead_now (Nat.le_refl _) (Table.find_of_mem stored)
    · intro write member
      exact absurd member List.not_mem_nil
    · intro buildId upd message there
      left
      obtain ⟨b, listed, rfl⟩ := List.mem_map.mp there
      change (BackendRequest.update builds).message b.id = some upd at message
      exact List.mem_filterMap.mpr ⟨b, listed, by rw [message]; rfl⟩
  | startingBuild id upd =>
    have either := receive_startingBuild history.now history.length id upd
    rcases either with refused | ⟨b, found, loads⟩
    · rw [refused]
      constructor
      · exact Nat.le_refl _
      · exact List.nodup_nil
      · exact fun _ member => absurd member List.not_mem_nil
      · exact fun _ member => absurd member List.not_mem_nil
      · exact fun _ _ _ there => absurd there List.not_mem_nil
    · rw [loads]
      constructor
      · exact Nat.le_refl _
      · exact List.nodup_singleton _
      · intro c member
        obtain rfl := List.mem_singleton.mp member
        have own := (Table.find_eq_some.mp found).2
        subst own
        exact rowRead_now (Nat.le_refl _) found
      · exact fun _ member => absurd member List.not_mem_nil
      · intro buildId message known there
        left
        obtain rfl := List.mem_singleton.mp there
        have same : some upd = some message := (if_pos rfl).symm.trans known
        rw [Option.some.inj same]
        exact List.mem_singleton_self _

/-- A new session has not acknowledged a message. -/
theorem receive_answers (tables : BuildTables) (since : Nat) (request : BackendRequest) :
    (receive tables since request).Answers := by
  cases request with
  | update builds =>
    constructor
    · intro buildId upd own _
      contradiction
    · intro buildId upd acknowledged
      exact absurd acknowledged (not_acknowledged rfl buildId upd)
  | startingBuild id upd =>
    rcases receive_startingBuild tables since id upd with refused | ⟨b, -, loads⟩
    · rw [refused]
      constructor
      · intro buildId message _ unanswered
        contradiction
      · intro buildId message acknowledged
        exact absurd acknowledged.2 Bool.false_ne_true
    · rw [loads]
      constructor
      · intro buildId message own _
        obtain ⟨rfl, rfl⟩ := BackendRequest.startingBuild.inj own
        exact List.mem_singleton_self _
      · intro buildId message acknowledged
        exact absurd acknowledged (not_acknowledged rfl buildId message)

/-- The answer of a session that is done. -/
theorem reply_answers (answers : s.Answers) (unanswered : s.answer = none) (done : s.todo = []) :
    Session.Answers { s.committed with answer := some s.reply } where
  started _ _ _ none_ := absurd none_ (by simp)
  done buildId upd acknowledged := by
    obtain ⟨message, shown⟩ := acknowledged
    refine ⟨?_, done, rfl⟩
    change s.request.message buildId = some upd at message
    show buildId ∈ s.existing
    simp only [reply] at shown
    cases request : s.request with
    | update builds =>
      rw [request] at shown
      exact shown
    | startingBuild id own =>
      have same : id = buildId := by
        rw [request, BackendRequest.message] at message
        by_contra other
        rw [if_neg other] at message
        contradiction
      exact same ▸ answers.started id own request unanswered

end Session

/-! ## Runs -/

namespace ConcurrentFrontend

variable {w w' : ConcurrentFrontend} {sid : Nat} {s : Session}

/-- The package that the session has found missing is still missing when the session adds it and
when the session commits it. -/
def KeepsRace (sid : Nat) (w : ConcurrentFrontend) (event : Nat × SessionEvent) : Prop :=
  event.1 = sid → event.2 = .add ∨ event.2 = .createPackage → w.losesRace sid = false

instance (w : ConcurrentFrontend) (event : Nat × SessionEvent) :
    Decidable (KeepsRace sid w event) :=
  inferInstanceAs (Decidable (_ → _ → _))

/-- No message of the session is lost, and its answer is right. -/
def Trusted (sid : Nat) (w : ConcurrentFrontend) : Prop :=
  ∀ s, w.sessions sid = some s → Tracked w.history s ∧ s.Answers

/-- A step of the session keeps its messages, unless it loses the race. -/
theorem moves_trusted {e : SessionEvent} (tracked : Tracked w.history s) (answers : s.Answers)
    (unanswered : s.answer = none)
    (keeps : e = .add ∨ e = .createPackage → w.losesRace sid = false)
    (moves : Moves w sid s e w') : Trusted sid w' := by
  have own : ∀ (next : Session), Tracked w'.history next ∧ next.Answers →
      w'.sessions sid = some next → Trusted sid w' := by
    intro next both session t found
    rw [session, Option.some.injEq] at found
    exact found ▸ both
  have same (next : Session) : Function.update w.sessions sid (some next) sid = some next :=
    Function.update_self sid _ _
  cases moves with
  | looked found =>
    exact own _ ⟨tracked.looked found,
      answers.unanswered unanswered rfl rfl unanswered⟩ (same _)
  | raced race lost =>
    rw [keeps race] at lost
    contradiction
  | added =>
    have kept (name : String) : Tracked w.history { s with stage := .added name } :=
      ⟨tracked.begun, tracked.distinct, tracked.loaded, tracked.written, tracked.accounted⟩
    exact own _ ⟨kept _, answers.unanswered unanswered rfl rfl unanswered⟩ (same _)
  | created flushed =>
    have done := (flushes_of_flush flushed).insertPackage
    exact own _ ⟨tracked.committed (done _ _) _ s.answer,
      answers.unanswered unanswered rfl rfl unanswered⟩ (same _)
  | updated item found here computed =>
    exact own _ ⟨tracked.updated item found here computed,
      answers.unanswered unanswered rfl rfl unanswered⟩ (same _)
  | responded done flushed =>
    exact own _ ⟨tracked.committed (flushes_of_flush flushed) s.stage (some s.reply),
      Session.reply_answers answers unanswered done⟩ (same _)
  | failed =>
    have failing : Session.Answers { s with answer := some .failed } :=
      ⟨fun _ _ _ none_ => absurd none_ (by simp), fun _ _ acknowledged => acknowledged.2.elim⟩
    have kept : Tracked w.history { s with answer := some .failed } :=
      ⟨tracked.begun, tracked.distinct, tracked.loaded, tracked.written, tracked.accounted⟩
    exact own _ ⟨kept, failing⟩ (same _)

/-- A step keeps the messages of a session, unless the session loses the race in it. -/
theorem step_trusted {event : Nat × SessionEvent} (trusted : Trusted sid w)
    (keeps : KeepsRace sid w event) (stepped : step w event = some w') : Trusted sid w' := by
  obtain ⟨own, e⟩ := event
  by_cases mine : own = sid
  · subst mine
    cases session : w.sessions own with
    | none =>
      simp only [step, session] at stepped
      cases e with
      | receive request =>
        obtain rfl := Option.some.inj stepped
        intro s found
        have new := (Function.update_self own _ w.sessions).symm.trans found
        obtain rfl := Option.some.inj new
        exact ⟨Session.receive_tracked w.history request,
          Session.receive_answers w.tables w.history.length request⟩
      | lookUp | add | createPackage | update | respond | fail => contradiction
    | some s =>
      obtain ⟨unanswered, moves⟩ := moves_of_step session stepped
      obtain ⟨tracked, answers⟩ := trusted s session
      exact moves_trusted tracked answers unanswered (keeps rfl) moves
  · obtain ⟨same, history⟩ := other_session (Ne.symm mine) stepped
    intro s found
    rw [same] at found
    obtain ⟨tracked, answers⟩ := trusted s found
    rcases history with unchanged | ⟨writes, tables, flushed, committed⟩
    · rw [unchanged]
      exact ⟨tracked, answers⟩
    · rw [committed]
      exact ⟨tracked.commit flushed, answers⟩

end ConcurrentFrontend

namespace Sample

/-- A build whose source build is running. -/
def sourceBuild (id : Nat) : Build where
  id := id
  sourceStatus := .running
  buildChroots := [{ mockChroot := fedora }]

/-- Two builds of a project without packages. -/
def firstBuilds : BuildTables where
  builds := (Table.empty.insert (sourceBuild 1)).insert (sourceBuild 2)
  coprId := fun _ => 7
  packages := Table.empty

/-- The source build has succeeded. -/
def sourceDone (id : Nat) : UpdDict where
  taskId := toString id
  chroot := some "srpm-builds"
  status := .succeeded
  pkgName := some "hello"
  resultDir := some "hello"

/-- The message is sent in an `/update/`. -/
def sends (id : Nat) : Nat × SessionEvent := (id, .receive (.update [(id, sourceDone id)]))

/-- Both builds are of a package that the project does not have. -/
def racing : List (Nat × SessionEvent) :=
  [sends 1, sends 2, (1, .lookUp), (2, .lookUp), (1, .add), (2, .add), (1, .createPackage),
    (2, .createPackage), (1, .update project), (1, .respond), (2, .respond)]

end Sample

namespace ConcurrentFrontend

variable {w : ConcurrentFrontend} {sid : Nat}

/-- The request and the answer of a session. -/
def exchange (w : ConcurrentFrontend) (sid : Nat) :
    Option (BackendRequest × Option RequestAnswer) :=
  (w.sessions sid).map fun s => (s.request, s.answer)

/-- `result_dir` of a build after each commit, the last one first. -/
def resultDirs (w : ConcurrentFrontend) (buildId : Nat) : List (Option String) :=
  (w.history.commits.map Prod.snd ++ [w.history.start]).map fun tables =>
    (tables.builds.find buildId).map Build.resultDir

/-- A message that is acknowledged with its build. -/
theorem acknowledged_of_exchange {request : BackendRequest} {ids missing : List Nat}
    (exchanged : w.exchange sid = some (request, some (.updated ids missing))) {buildId : Nat}
    {upd : UpdDict} (message : request.message buildId = some upd) (listed : buildId ∈ ids) :
    ∃ s, w.sessions sid = some s ∧ s.Acknowledged buildId upd := by
  obtain ⟨s, session, both⟩ := Option.map_eq_some_iff.mp exchanged
  obtain ⟨rfl, answer⟩ := Prod.mk.inj both
  refine ⟨s, session, message, ?_⟩
  rw [answer]
  exact listed

end ConcurrentFrontend

end Copr
