import Copr.Backend.BranchingRuns

/-!
# The newest builds in a branched chroot

When the command has run and its actions have succeeded, the newest build of each package in each
directory is in the chroot that was branched, if it succeeded in the rawhide chroot and no copy
ever broke off. The newest build may also be one that was forked into the project, which users of
the rawhide chroot get all the same: the command passes it over.
-/

namespace Copr

open Runs Tables

variable {br : Branch} {s t u : Branching}

/-- The chroot that was branched holds a build as the rawhide chroot does. -/
structure HoldsBuild (br : Branch) (s : Branching) (b : BranchedBuild) : Prop where
  /-- The directory is a complete copy. -/
  copied : ∃ r r', s.stores.disk (b.path br.rawhide) b.targetDirName = some r ∧
    s.stores.disk (b.path br.dest) b.targetDirName = some r' ∧ r.CopyOf r'
  /-- The units are in the repository, if the project is in Pulp. -/
  units : b.coprDir.copr.storage = .pulp → ∀ u ∈ s.stores.content, u.buildId = b.id →
    u.chroot = br.rawhide.name → u ∈ s.stores.repositories (b.path br.dest)
  /-- The build has a `BuildChroot` that is finished. -/
  finished : ∃ c, b.chroot br.dest = some c ∧ c.status.Finished

/-- The command has run after a history, and its actions have succeeded since. Without
`--retry-forked` so have those of earlier runs. -/
structure BranchingDone (br : Branch) (admitted : Branching → BranchingEvent → Prop)
    (s : Branching) (retryForked : Bool) (t : Branching) : Prop where
  /-- Whatever happened before. -/
  history : Run (Branching.step br) admitted Branching.start s
  /-- Whatever happened since. -/
  since : Run (Branching.step br) admitted
    { s with db := BranchDatabase.rawhideToReleaseFunction br retryForked s.db } t
  /-- The actions have succeeded. -/
  succeeded : ∀ i < (BranchDatabase.rawhideToReleaseFunction br retryForked s.db).actions.length,
    s.db.actions.length ≤ i ∨ retryForked = false →
      (t.db.actions[i]?).bind SentAction.result = some .success

/-- Some build of a package in a directory is good in the rawhide chroot, and then the newest one
when the command ran is held, unless it has been deleted since. -/
def CopiesNewest (br : Branch) (s t : Branching) (dir : StoredDir) (package : String) : Prop :=
  (∃ b ∈ s.db.builds.rows, b.coprDir = dir ∧ b.package = package ∧
    b.goodIn br.rawhide = true) →
  ∃ b, s.db.Newest dir package br.rawhide b ∧
    ∀ b' ∈ t.db.builds.rows, b'.id = b.id → HoldsBuild br t b'

/-- Before any build was submitted everything is sound. -/
theorem start_sound : Sound br Branching.start where
  ids := fun _ member => absurd member List.not_mem_nil
  stored := fun _ member => absurd member List.not_mem_nil
  actions := fun _ member => absurd member List.not_mem_nil
  copies := fun _ _ _ _ found => by cases found
  branched := fun _ member => absurd member List.not_mem_nil

/-- Nothing is wrong after any history without broken copies. -/
theorem run_safe (sound : Sound br s)
    (run : Run (Branching.step br) (fun s e => s.wholeCopies e = true) s t) : Safe br s t := by
  apply run_invariant (fun t => Safe br s t) _ run (Safe.of_same sound rfl rfl rfl rfl)
  intro u e v safe whole stepped
  exact Safe.trans sound safe (step_safe safe.sound whole stepped)

/-- A build that has arrived is held. -/
theorem holdsBuild_of_arrived (sound : Sound br s) {b : BranchedBuild}
    (member : b ∈ s.db.builds.rows) (arrived : Arrived br s.stores b)
    (branched : b.hasChroot br.dest = true) : HoldsBuild br s b := by
  obtain ⟨r', there⟩ := Option.ne_none_iff_exists'.mp arrived.directory
  obtain ⟨id, package, named, _, row⟩ := sound.copies _ _ r' rfl there
  obtain ⟨c, found⟩ := BranchedBuild.hasChroot_iff.mp branched
  obtain ⟨forked, succeeded, _⟩ := sound.branched b member c found
  refine ⟨?_, arrived.units, c, found, ?_⟩
  · have ids : b.id = id := targetDir_injective named
    have packages : b.package = package := by
      rw [BranchedBuild.targetDirName, ids] at named
      exact targetDir_package named
    obtain ⟨_, r, source, copy⟩ := row b member ids packages rfl
    exact ⟨r, r', source, there, copy⟩
  · rw [forked]
    decide

/-- What the command does for the newest build of a package, if that build succeeded: it is in the
chroot that is branched, and with `--retry-forked` an action that is new lists it. -/
def Commanded (br : Branch) (s : Branching) (retryForked : Bool) (b : BranchedBuild)
    (db : BranchDatabase) : Prop :=
  ∃ b' ∈ db.builds.rows, b.Continues br b' ∧ b'.hasChroot br.dest = true ∧
    (retryForked = true → ∃ i a, s.db.actions.length ≤ i ∧ db.actions[i]? = some a ∧
      a.result ≠ some .success ∧ a.Lists b')

/-- A build that is the newest, and goes on to be while the command runs. -/
def Leads (br : Branch) (s : Branching) (dir : StoredDir) (package : String) (b : BranchedBuild)
    (db : BranchDatabase) : Prop :=
  Safe br s { s with db := db } ∧ s.db.actions.length ≤ db.actions.length ∧
    ∃ b', b.Continues br b' ∧ db.Newest dir package br.rawhide b'

section Command

variable {copr : BranchedCopr} {dirname package : String} {dir : StoredDir} {retryForked : Bool}
  {b : BranchedBuild} {db : BranchDatabase}

/-- The newest build is in the chroot that is branched when its directory was processed. -/
theorem Leads.commanded (succeeded : b.succeededIn br.rawhide = true)
    (leads : Leads br s ⟨copr.copr, dirname⟩ package b db) :
    Commanded br s retryForked b (BranchDatabase.processDir br retryForked copr db dirname) := by
  have ⟨safe, sent, b', continues, newest⟩ := leads
  have stillSucceeded := continues.succeeded succeeded
  have selected := newest.selected stillSucceeded
  have further := branch_continues stillSucceeded
  have ⟨rbc, found, _⟩ := BranchedBuild.succeededIn_iff.mp stillSucceeded
  refine ⟨b'.branch br, ?_, continues.trans further, ?_, ?_⟩
  · exact BranchDatabase.mem_processDir_builds.mpr ⟨b', newest.member, Or.inl ⟨selected, rfl⟩⟩
  · rw [BranchedBuild.hasChroot_iff, BranchedBuild.chroot_branch_dest found]
    cases b'.chroot br.dest with
    | none => exact ⟨_, rfl⟩
    | some c => exact ⟨c, rfl⟩
  · intro retry
    have ⟨i, a, late, there, unfinished, lists⟩ := listed_of_selected (s := { s with db := db })
      safe.sound selected fun _ => retry
    exact ⟨i, a, sent.trans late, there, unfinished, lists.continues further⟩

/-- The newest build stays the newest when a directory is processed. -/
theorem Leads.processDir (sound : Sound br s) (succeeded : b.succeededIn br.rawhide = true)
    (leads : Leads br s dir package b db) :
    Leads br s dir package b (BranchDatabase.processDir br retryForked copr db dirname) := by
  have ⟨safe, sent, b', continues, newest⟩ := leads
  refine ⟨Safe.trans sound safe (processDir_safe (s := { s with db := db }) safe.sound), ?_, ?_⟩
  · have ⟨more, actions, _⟩ := BranchDatabase.processDir_actions br
      retryForked copr db dirname
    rw [actions, List.length_append]
    omega
  · have ⟨b'', either, later⟩ := newest.processDir br.differ retryForked copr dirname
    refine ⟨b'', ?_, later⟩
    cases either with
    | inl same =>
      rw [same]
      exact continues
    | inr branched =>
      rw [branched]
      exact continues.trans (branch_continues (continues.succeeded succeeded))

/-- What the command has done for a build stays when another directory is processed. -/
theorem Commanded.processDir (commanded : Commanded br s retryForked b db) :
    Commanded br s retryForked b
      (BranchDatabase.processDir br retryForked copr db dirname) := by
  have ⟨b', member, continues, branched, listed⟩ := commanded
  have ⟨b'', there, further⟩ : ∃ b'' ∈
      (BranchDatabase.processDir br retryForked copr db dirname).builds.rows,
      b'.Continues br b'' := by
    by_cases selected : b' ∈ db.buildsToFork ⟨copr.copr, dirname⟩ br.rawhide
    · have succeeded := (BranchDatabase.mem_buildsToFork.mp selected).2.2.1
      exact ⟨b'.branch br, BranchDatabase.mem_processDir_builds.mpr
        ⟨b', member, Or.inl ⟨selected, rfl⟩⟩, branch_continues succeeded⟩
    · exact ⟨b', BranchDatabase.mem_processDir_builds.mpr
        ⟨b', member, Or.inr ⟨selected, rfl⟩⟩, .refl⟩
  refine ⟨b'', there, continues.trans further, further.branched branched, ?_⟩
  intro retry
  have ⟨i, a, late, found, unfinished, lists⟩ := listed retry
  exact ⟨i, a, late, getElem?_processDir (s := { s with db := db }) found, unfinished,
    lists.continues further⟩

/-- The command takes care of the newest build of each package that succeeded. -/
theorem command_commanded (sound : Sound br s) (followed : copr ∈ s.db.branchedCoprs br)
    (inside : dirname ∈ copr.dirs)
    (newest : s.db.Newest ⟨copr.copr, dirname⟩ package br.rawhide b)
    (succeeded : b.succeededIn br.rawhide = true) :
    Commanded br s retryForked b
      (BranchDatabase.rawhideToReleaseFunction br retryForked s.db) := by
  apply BranchDatabase.rawhideToReleaseFunction_reaches
    (P := Leads br s ⟨copr.copr, dirname⟩ package b) followed inside
  · intro db rows leads
    have ⟨safe, sent, b', continues, newest⟩ := leads
    exact ⟨Safe.trans sound safe (Safe.of_same safe.sound rfl rfl rfl rfl), sent, b', continues,
      newest.member, newest.inside, newest.built, newest.good, newest.last⟩
  · exact fun db copr dirname leads => leads.processDir sound succeeded
  · exact fun db rows _ commanded => commanded
  · exact fun db copr dirname _ commanded => commanded.processDir
  · exact fun db leads => leads.commanded succeeded
  · exact ⟨Safe.of_same sound rfl rfl rfl rfl, Nat.le_refl _, b, .refl, newest⟩

end Command

/-- After a history in which no copy breaks off, the newest build of a package is held where it
belongs, if it is a build that succeeded. -/
theorem newest_branched {br : Branch} {s t : Branching} {retryForked : Bool}
    (done : BranchingDone br (fun s e => s.wholeCopies e = true) s retryForked t)
    {copr : BranchedCopr} (followed : copr ∈ s.db.branchedCoprs br) {dirname : String}
    (inside : dirname ∈ copr.dirs) {package : String}
    (built : ∀ b, s.db.Newest ⟨copr.copr, dirname⟩ package br.rawhide b →
      b.succeededIn br.rawhide = true) :
    CopiesNewest br s t ⟨copr.copr, dirname⟩ package := by
  intro good
  have ⟨b, newest⟩ := BranchDatabase.exists_newest good
  refine ⟨b, newest, ?_⟩
  intro o there same
  have sound := (run_safe start_sound done.history).sound
  have commanded : Safe br s
      { s with db := BranchDatabase.rawhideToReleaseFunction br retryForked s.db } :=
    command_safe sound
  have later := run_safe commanded.sound done.since
  have commands : Commanded br s retryForked b
      (BranchDatabase.rawhideToReleaseFunction br retryForked s.db) :=
    command_commanded sound followed inside newest (built b newest)
  have ⟨b', member, continues, branched, listed⟩ := commands
  have further : b'.Continues br o :=
    later.evolves.row commanded.sound member there (same.trans continues.id.symm)
  -- the actions that have succeeded include one that listed the build, if any has to
  have owed : Owed br (fun i =>
      i < (BranchDatabase.rawhideToReleaseFunction br retryForked s.db).actions.length ∧
        (s.db.actions.length ≤ i ∨ retryForked = false))
      { s with db := BranchDatabase.rawhideToReleaseFunction br retryForked s.db } b' := by
    cases retry : retryForked with
    | true =>
      subst retry
      have ⟨i, a, late, found, unfinished, lists⟩ := listed rfl
      have ⟨bound, _⟩ := List.getElem?_eq_some_iff.mp found
      exact Or.inr ⟨i, a, ⟨bound, Or.inl late⟩, found, unfinished, lists⟩
    | false =>
      subst retry
      have ⟨c, found⟩ := BranchedBuild.hasChroot_iff.mp branched
      have ⟨_, _, pending⟩ := commanded.sound.branched b' member c found
      cases pending with
      | inl arrived => exact Or.inl arrived
      | inr pending =>
        have ⟨i, a, _, found, unfinished, lists⟩ := pending
        have ⟨bound, _⟩ := List.getElem?_eq_some_iff.mp found
        exact Or.inr ⟨i, a, ⟨bound, Or.inr rfl⟩, found, unfinished, lists⟩
  apply holdsBuild_of_arrived later.sound there
  · have succeeded := continues.succeeded (built b newest)
    cases later.owed _ b' member o there further succeeded owed with
    | inl arrived => exact arrived
    | inr pending =>
      have ⟨i, a, chosen, found, unfinished, _⟩ := pending
      have finished := done.succeeded i chosen.1 chosen.2
      rw [found] at finished
      exact absurd finished unfinished
  · exact further.branched branched

/-! ## A build that succeeded and one that was forked -/

/-- Fedora 44 is branched. -/
def fedora44 : Branch where
  rawhide := ⟨"fedora", "rawhide", "x86_64", "rawhide"⟩
  dest := ⟨"fedora", "44", "x86_64", "f44"⟩
  differ := by decide

/-- A project that follows it. -/
def follower : BranchedCopr where
  copr := ⟨"user", "project", .backend⟩
  appstream := false
  autoCreaterepo := true
  followFedoraBranching := true
  coprChroots := [fedora44.rawhide]
  dirs := ["project"]

/-- A build in the project that has a status in the rawhide chroot at first. -/
def helloBuild (status : StatusEnum) : BranchedBuild where
  id := 1
  coprDir := ⟨follower.copr, "project"⟩
  package := "hello"
  buildChroots := [{ mockChroot := fedora44.rawhide, status := status }]
  distinct := List.nodup_singleton _

/-- The project has the build and its results. -/
def helloEvents (status : StatusEnum) : List BranchingEvent :=
  [.editCoprs [follower], .submit (helloBuild status),
    .store 1 fedora44.rawhide ⟨[("hello-1-1.x86_64.rpm", "hello")], []⟩ []]

/-- Where some events lead, if they are possible and admitted. -/
def reached (ok : Branching → BranchingEvent → Bool) (s : Branching) (es : List BranchingEvent) :
    Branching :=
  (exec (Branching.step fedora44) ok s es).getD s

/-- Possible events are a run. -/
theorem run_reached {ok : Branching → BranchingEvent → Bool} {s : Branching}
    {es : List BranchingEvent}
    (possible : (exec (Branching.step fedora44) ok s es).isSome = true) :
    Run (Branching.step fedora44) (fun s e => ok s e = true) s (reached ok s es) := by
  have ⟨t, done⟩ := Option.isSome_iff_exists.mp possible
  rw [reached, done, Option.getD_some]
  exact exec_run es done

/-- The build succeeded. -/
def helloBuilt : Branching :=
  reached Branching.wholeCopies .start
    (helloEvents .waiting ++ [.report 1 fedora44.rawhide .succeeded])

/-- The build was forked into the project. -/
def helloForked : Branching := reached Branching.wholeCopies .start (helloEvents .forked)

/-- The build succeeded, and the copy of its directory broke off. -/
def helloBroken : Branching :=
  reached (fun _ _ => true) helloBuilt
    [.command false, .process 0 (.broken 0 (some ⟨[], []⟩) true)]

/-- The command is run, and an action that it sends. -/
def branchedFrom (s : Branching) (retryForked : Bool) (index : Nat) : Branching :=
  reached Branching.wholeCopies
    { s with db := BranchDatabase.rawhideToReleaseFunction fedora44 retryForked s.db }
    [.process index .finished]

/-- The build that succeeded is branched. -/
theorem hello_branched :
    ∃ b, helloBuilt.db.Newest ⟨follower.copr, "project"⟩ "hello" fedora44.rawhide b ∧
      ∀ b' ∈ (branchedFrom helloBuilt false 0).db.builds.rows, b'.id = b.id →
        HoldsBuild fedora44 (branchedFrom helloBuilt false 0) b' := by
  have succeeded : ∀ b ∈ helloBuilt.db.builds.rows, b.succeededIn fedora44.rawhide = true := by
    decide
  have done : BranchingDone fedora44 (fun s e => s.wholeCopies e = true) helloBuilt false
      (branchedFrom helloBuilt false 0) :=
    { history := run_reached (by decide)
      since := run_reached (by decide)
      succeeded := by decide }
  have followed : follower ∈ helloBuilt.db.branchedCoprs fedora44 := by decide
  have inside : "project" ∈ follower.dirs := by decide
  exact newest_branched done followed inside (fun b newest => succeeded b newest.member)
    (by decide)

/-- The build that was forked is not: that the newest builds are copied is not true of all
histories. -/
theorem forked_not_branched : ¬ ∀ (br : Branch) (s t : Branching) (retryForked : Bool),
    BranchingDone br anyEvent s retryForked t → ∀ copr ∈ s.db.branchedCoprs br,
      ∀ dirname ∈ copr.dirs, ∀ package, CopiesNewest br s t ⟨copr.copr, dirname⟩ package := by
  intro always
  have done : BranchingDone fedora44 anyEvent helloForked false
      (branchedFrom helloForked false 0) :=
    { history := run_weaken (fun _ _ _ => trivial) (run_reached (by decide))
      since := run_weaken (fun _ _ _ => trivial) (run_reached (by decide))
      succeeded := by decide }
  have good : ∃ b ∈ helloForked.db.builds.rows, b.coprDir = ⟨follower.copr, "project"⟩ ∧
      b.package = "hello" ∧ b.goodIn fedora44.rawhide = true := by decide
  have ⟨b, newest, holds⟩ := always fedora44 _ _ false done follower (by decide) "project"
    (by decide) "hello" good
  have known : ∀ b ∈ helloForked.db.builds.rows, b.id = 1 := by decide
  have ⟨b', there, same, absent⟩ : ∃ b' ∈ (branchedFrom helloForked false 0).db.builds.rows,
      b'.id = 1 ∧ b'.hasChroot fedora44.dest = false := by decide
  have ⟨c, found, _⟩ := (holds b' there (same.trans (known b newest.member).symm)).finished
  rw [BranchedBuild.hasChroot_iff.mpr ⟨c, found⟩] at absent
  cases absent

/-- Nor is it true of all histories in which the newest builds succeeded: a copy that broke off is
not completed by `--retry-forked`. -/
theorem broken_not_branched : ¬ ∀ (br : Branch) (s t : Branching) (retryForked : Bool),
    BranchingDone br anyEvent s retryForked t → ∀ copr ∈ s.db.branchedCoprs br,
      ∀ dirname ∈ copr.dirs, ∀ package,
        (∀ b, s.db.Newest ⟨copr.copr, dirname⟩ package br.rawhide b →
          b.succeededIn br.rawhide = true) →
        CopiesNewest br s t ⟨copr.copr, dirname⟩ package := by
  intro always
  have built : Run (Branching.step fedora44) anyEvent .start helloBuilt :=
    run_weaken (fun _ _ _ => trivial) (run_reached (by decide))
  have broken : Run (Branching.step fedora44) anyEvent helloBuilt helloBroken :=
    run_weaken (fun _ _ _ => trivial) (run_reached (by decide))
  have done : BranchingDone fedora44 anyEvent helloBroken true (branchedFrom helloBroken true 1) :=
    { history := built.trans broken
      since := run_weaken (fun _ _ _ => trivial) (run_reached (by decide))
      succeeded := by decide }
  have succeeded : ∀ b ∈ helloBroken.db.builds.rows, b.succeededIn fedora44.rawhide = true := by
    decide
  have good : ∃ b ∈ helloBroken.db.builds.rows, b.coprDir = ⟨follower.copr, "project"⟩ ∧
      b.package = "hello" ∧ b.goodIn fedora44.rawhide = true := by decide
  have followed : { follower with coprChroots := [fedora44.rawhide, fedora44.dest] } ∈
      helloBroken.db.branchedCoprs fedora44 := by decide
  have ⟨b, newest, holds⟩ := always fedora44 _ _ true done _ followed "project" (by decide)
    "hello" (fun b newest => succeeded b newest.member) good
  have known : ∀ b ∈ helloBroken.db.builds.rows, b.id = 1 := by decide
  have ⟨b', there, same, part⟩ : ∃ b' ∈ (branchedFrom helloBroken true 1).db.builds.rows,
      b'.id = 1 ∧
        ((branchedFrom helloBroken true 1).stores.disk (b'.path fedora44.dest)
            b'.targetDirName).map ResultDir.files ≠
          ((branchedFrom helloBroken true 1).stores.disk (b'.path fedora44.rawhide)
            b'.targetDirName).map ResultDir.files := by decide
  have ⟨r, r', source, copy, complete⟩ :=
    (holds b' there (same.trans (known b newest.member).symm)).copied
  rw [source, copy, Option.map_some, Option.map_some, complete.files] at part
  exact part rfl

end Copr
