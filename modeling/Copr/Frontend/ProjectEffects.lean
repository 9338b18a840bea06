import Copr.Frontend.Operations
import Copr.Frontend.ProjectBuilds

/-!
# The effects of events in projects

Directories and packages that an entry point creates on its way leave the builds alone. A new
build is one of `BuildsLogic.add`, with references of its own. Builds that disappear take their
references along.
-/

namespace Copr

open Tables Text

/-- What `create_new` passes on: chroots that are named, or that it finds itself, are taken as
they are unless the package narrows them down. -/
theorem BuildsLogic.createNewFor_spec {activeChroots packageActive : ChrootSet}
    {chrootNames : List String} {r : BuildRequest} {submission : Submission}
    (created : createNewFor activeChroots packageActive chrootNames r = some submission) :
    activeChroots.chroots ≠ [] ∧ submission.gitHashes = r.gitHashes ∧
      submission.skipImport = r.skipImport ∧ submission.skipped = r.skipped ∧
      (r.packageChrootsSubset = false →
        (chrootsOfNames activeChroots chrootNames r.skipImport).chroots ≠ [] →
          submission.chroots = chrootsOfNames activeChroots chrootNames r.skipImport) := by
  obtain ⟨active, same⟩ := Option.ite_none_left_eq_some.mp created
  obtain ⟨added, found, rfl⟩ := Option.map_eq_some_iff.mp same
  refine ⟨active, rfl, rfl, rfl, fun whole offered => ?_⟩
  unfold chrootsToAdd at found
  cases package : r.package with
  | none =>
    rw [package] at found
    exact (Option.some.inj found).symm
  | some p =>
    simp only [package, if_neg offered, whole, Bool.false_eq_true, if_false] at found
    exact (Option.some.inj found).symm

namespace ProjectDatabase

variable {chars : CharClasses} {s t : ProjectDatabase chars} {copr : NamedCopr chars}

/-- The builds, where they belong, and what was reported about them are the same. -/
structure SameBuilds (s t : ProjectDatabase chars) : Prop where
  /-- The builds. -/
  db : t.db = s.db
  /-- Where they belong. -/
  refs : t.refs = s.refs
  /-- What was reported. -/
  reported : t.reported = s.reported

/-- A database that has not changed has the same builds. -/
theorem SameBuilds.refl (s : ProjectDatabase chars) : s.SameBuilds s := ⟨rfl, rfl, rfl⟩

/-! ## Directories and packages -/

/-- The main directory of a project is in the project. -/
theorem mainDir_copr {d : CoprDir chars} (found : s.mainDir copr = some d) :
    d.copr.id = copr.id := by
  have both := List.find?_some found
  simp only [Bool.and_eq_true, decide_eq_true_eq] at both
  exact both.1

/-- A directory that is looked up or created is in the project. -/
theorem getOrCreateDir_same {dirname : String} {d : CoprDir chars}
    (got : s.getOrCreateDir copr dirname = some (d, t)) : d.copr.id = copr.id ∧ s.SameBuilds t := by
  obtain ⟨d, found, same⟩ := Option.map_eq_some_iff.mp got
  obtain ⟨rfl, rfl⟩ := Prod.mk.inj same
  have both := List.find?_some found
  simp only [Bool.and_eq_true, decide_eq_true_eq] at both
  exact ⟨both.1, rfl, rfl, rfl⟩

/-- The directory of a new build is in its project. -/
theorem newBuildDir_same {dirname : Option String} {d : CoprDir chars}
    (got : s.newBuildDir copr dirname = some (d, t)) : d.copr.id = copr.id ∧ s.SameBuilds t := by
  unfold newBuildDir at got
  split at got
  · exact getOrCreateDir_same got
  · obtain ⟨d, found, same⟩ := Option.map_eq_some_iff.mp got
    obtain ⟨rfl, rfl⟩ := Prod.mk.inj same
    exact ⟨mainDir_copr found, .refl s⟩

/-- A package that is looked up is in the project. -/
theorem getPackage_copr {name : String} {p : PackageRow chars}
    (found : s.getPackage copr name = some p) : p.package.copr.id = copr.id :=
  congrArg Prod.fst (Table.find_eq_some.mp found).2

/-- A package that is looked up or created is in the project. -/
theorem getOrCreatePackage_same {name : String} {denylist : Option String}
    {sourceType : BuildSourceEnum} {k : PackageKey chars}
    (got : s.getOrCreatePackage copr name denylist sourceType = some (k, t)) :
    k.copr.id = copr.id ∧ s.SameBuilds t := by
  obtain ⟨p, found, same⟩ := Option.map_eq_some_iff.mp got
  obtain ⟨rfl, rfl⟩ := Prod.mk.inj same
  refine ⟨getPackage_copr found, ?_⟩
  split
  · exact .refl s
  · exact ⟨rfl, rfl, rfl⟩

/-- The row of a package is about it. -/
@[simp] theorem packageRow_package (k : PackageKey chars) : (s.packageRow k).package = k := by
  unfold packageRow
  cases found : s.packages.rows.find? fun p => decide (p.package = k) with
  | none => rfl
  | some p => simpa using List.find?_some found

/-- A build that is found has its id, and so have its references. -/
theorem getBuild_spec {buildId : Nat} {b : Build} {r : BuildRefs chars}
    (found : s.getBuild buildId = some (b, r)) :
    b ∈ s.db.builds ∧ b.id = buildId ∧ r ∈ s.refs ∧ r.id = buildId := by
  obtain ⟨b, build, rest⟩ := Option.bind_eq_some_iff.mp found
  obtain ⟨r, refs, same⟩ := Option.map_eq_some_iff.mp rest
  obtain ⟨rfl, rfl⟩ := Prod.mk.inj same
  exact ⟨List.mem_of_find?_eq_some build, by simpa using List.find?_some build,
    List.mem_of_find?_eq_some refs, by simpa using List.find?_some refs⟩

/-! ## New builds -/

/-- A build was added: the rows are those of `BuildsLogic.add`, apart from package versions, and
it has these references. Some reports about another build count for it as well. -/
structure Added (s : ProjectDatabase chars) (copr : NamedCopr chars) (sources : Sources chars)
    (submission : Submission) (inherited : List (String × String)) (t : ProjectDatabase chars) :
    Prop where
  /-- The builds. -/
  db : ∃ cached db, s.db.add cached submission = some db ∧ t.db.nextBuildId = db.nextBuildId ∧
    ∃ version : Build → Option String,
      t.db.builds = db.builds.map fun b => { b with pkgVersion := version b }
  /-- Where they belong. -/
  refs : ∃ coprDir : CoprDir chars, coprDir.copr.id = copr.id ∧
    t.refs = s.refs ++ [
      { id := s.db.nextBuildId
        copr := copr
        coprDir := coprDir
        package := sources.package.map PackageRow.package
        sourceType := sources.sourceType
        srpmUrl := sources.srpmUrl
        resubmittedFromId := sources.resubmittedFromId }]
  /-- What was reported. -/
  reported : t.reported = s.reported ++ inherited.map fun e => (s.db.nextBuildId, e)

variable {sources : Sources chars} {submission : Submission} {inherited : List (String × String)}

/-- `BuildsLogic.add` adds a build. -/
theorem add_added {cached : Nat → Bool} {coprDirname : Option String}
    (done : s.add cached copr sources coprDirname submission = some t) :
    s.Added copr sources submission [] t := by
  obtain ⟨⟨coprDir, grown⟩, got, rest⟩ := Option.bind_eq_some_iff.mp done
  obtain ⟨db, added, rfl⟩ := Option.map_eq_some_iff.mp rest
  obtain ⟨inside, same⟩ := newBuildDir_same got
  refine ⟨⟨cached, db, added, rfl, Build.pkgVersion, (List.map_id _).symm⟩,
    ⟨coprDir, inside, rfl⟩, ?_⟩
  rw [List.map_nil, List.append_nil]
  exact same.reported

/-- The package version of a build does not matter here. -/
theorem Added.setPkgVersion (added : s.Added copr sources submission inherited t) (buildId : Nat)
    (pkgVersion : Option String) :
    s.Added copr sources submission inherited (t.setPkgVersion buildId pkgVersion) := by
  obtain ⟨cached, db, done, next, version, builds⟩ := added.db
  refine ⟨⟨cached, db, done, next,
    fun b => if b.id = buildId then pkgVersion else version b, ?_⟩, added.refs, added.reported⟩
  show t.db.builds.map _ = _
  rw [builds, List.map_map]
  refine List.map_congr_left fun b _ => ?_
  simp only [Function.comp_apply]
  split <;> rfl

/-- What was reported about the source build counts for the new one. -/
theorem Added.inheritReports (added : s.Added copr sources submission [] t) (sourceId : Nat) :
    s.Added copr sources submission
      ((s.reported.filter fun e => decide (e.1 = sourceId)).map Prod.snd)
      (t.inheritReports s.db.nextBuildId sourceId) := by
  have same : t.reported = s.reported := by
    rw [added.reported, List.map_nil, List.append_nil]
  refine ⟨added.db, added.refs, ?_⟩
  show t.reported ++ (t.reported.filter _).map _ = _
  rw [same, List.map_map]
  rfl

/-- `create_new` adds a build. -/
theorem createNew_added {cached : Nat → Bool} {project : ActiveProject chars}
    {patterns : ChrootPatterns} {options : BuildOptions}
    (done : s.createNew cached project patterns options sources = some t) :
    patterns.validate project.activeChroots.names = true ∧
      ∃ packageActive submission,
        BuildsLogic.createNewFor project.activeChroots packageActive
          (patterns.selectedChroots project.activeChroots.names)
          (sources.request patterns options) = some submission ∧
        s.Added project.copr sources submission [] t := by
  unfold createNew at done
  split at done
  · rename_i accepted
    obtain ⟨submission, created, added⟩ := Option.bind_eq_some_iff.mp done
    exact ⟨accepted, _, submission, created, add_added added⟩
  · contradiction

end ProjectDatabase

end Copr
