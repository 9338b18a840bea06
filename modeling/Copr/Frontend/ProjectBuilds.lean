import Copr.Frontend.ChrootPatterns
import Copr.Frontend.CoprDirs

/-!
# Builds in their projects

The entry points that create builds in projects: submissions through the forms and the API,
`create_new_from_other_build`, `batch_build`, `rebuild_package` for webhooks and `fork_build`. A
build refers to its project, its directory and its package, and knows its source type. What
dist-git has reported about the sources of a build is remembered.
-/

namespace Copr

open Tables Text

/-- `BuildSourceEnum`. -/
inductive BuildSourceEnum
  /-- `unset`. -/
  | unset
  /-- `link`: a URL. -/
  | link
  /-- `upload`: a file. -/
  | upload
  /-- `pypi`. -/
  | pypi
  /-- `rubygems`. -/
  | rubygems
  /-- `scm`. -/
  | scm
  /-- `custom`: a script. -/
  | custom
  /-- `distgit`. -/
  | distgit
  deriving DecidableEq, Repr

namespace Build

/-- `repeatable`, for a build of this source type. -/
def repeatable (b : Build) (sourceType : BuildSourceEnum) : Bool :=
  decide (b.sourceStatus = .succeeded) ||
    (decide (b.sourceStatus = .failed) && decide (b.failType = .srpmImportFailed) &&
      !decide (sourceType = .upload))

/-- `status`; `none` is an unknown one. -/
def status (b : Build) : Option StatusEnum :=
  if b.canceled then some .canceled
  else if b.sourceStatus ∈ [.starting, .pending, .running, .importing, .failed] then
    some b.sourceStatus
  else
    let chrootStates := b.buildChroots.map BuildChroot.status
    if chrootStates = [] then some .waiting
    else
      match [StatusEnum.running, .starting, .pending, .failed, .succeeded, .skipped,
          .forked].find? (decide <| · ∈ chrootStates) with
      | some state => some state
      | none => if .waiting ∈ chrootStates then some .pending else none

/-- The commits of the chroots that were imported, by their names. -/
def gitHashes (b : Build) : List (String × String) :=
  b.buildChroots.filterMap fun c => c.gitHash.map fun gitHash => (c.name, gitHash)

/-- The names of the chroots that were skipped. -/
def skippedChroots (b : Build) : List String :=
  (b.buildChroots.filter fun c => decide (c.status = .skipped)).map BuildChroot.name

end Build

/-- `create_new`, up to the new rows, for a package whose project has active chroots of its
own. -/
def BuildsLogic.createNewFor (activeChroots packageActive : ChrootSet) (chrootNames : List String)
    (r : BuildRequest) : Option Submission :=
  if activeChroots.chroots = [] then none
  else
    let chroots := chrootsOfNames activeChroots chrootNames r.skipImport
    (chrootsToAdd r.package packageActive chroots r.packageChrootsSubset).map fun chroots =>
      { package := r.package.map Package.name
        chroots := chroots
        gitHashes := r.gitHashes
        skipImport := r.skipImport
        skipped := r.skipped
        background := r.background
        batching := r.batching }

/-- A package of the project itself has its active chroots. -/
theorem BuildsLogic.createNew_eq (activeChroots : ChrootSet) (chrootNames : List String)
    (r : BuildRequest) :
    createNew activeChroots chrootNames r =
      createNewFor activeChroots activeChroots chrootNames r := rfl

/-! ## The tables -/

/-- A `Copr` that is not deleted. -/
structure ActiveProject (chars : CharClasses) where
  /-- What it is called. -/
  copr : NamedCopr chars
  /-- `active_chroots`. -/
  activeChroots : ChrootSet
  deriving DecidableEq

/-- What never changes of a `Package`. -/
structure PackageKey (chars : CharClasses) where
  /-- `id`. -/
  id : Nat
  /-- `copr`. -/
  copr : NamedCopr chars
  /-- `name`. -/
  name : String
  deriving DecidableEq

/-- A row of `Package`. -/
structure PackageRow (chars : CharClasses) where
  /-- The package. -/
  package : PackageKey chars
  /-- `chroot_denylist_raw`. -/
  chrootDenylistRaw : Option String
  /-- `source_type`. -/
  sourceType : BuildSourceEnum
  deriving DecidableEq

namespace PackageRow

variable {chars : CharClasses}

/-- `copr_id` and `name`, which are unique together. -/
def key (p : PackageRow chars) : Nat × String := (p.package.copr.id, p.package.name)

/-- The name and the denylist. -/
def toPackage (p : PackageRow chars) : Package := ⟨p.package.name, p.chrootDenylistRaw⟩

end PackageRow

/-- The columns of a `Build` that say where it belongs and where its sources are from. -/
structure BuildRefs (chars : CharClasses) where
  /-- `id`. -/
  id : Nat
  /-- `copr`. -/
  copr : NamedCopr chars
  /-- `copr_dir`. -/
  coprDir : CoprDir chars
  /-- `package`. -/
  package : Option (PackageKey chars)
  /-- `source_type`. -/
  sourceType : BuildSourceEnum
  /-- `srpm_url` as it was submitted. -/
  srpmUrl : Option String
  /-- `resubmitted_from_id`. -/
  resubmittedFromId : Option Nat
  deriving DecidableEq

/-- The tables with projects and builds, and what dist-git has reported. -/
structure ProjectDatabase (chars : CharClasses) where
  /-- The builds. -/
  db : Database
  /-- Where the builds belong. -/
  refs : List (BuildRefs chars)
  /-- The projects. -/
  coprs : List (ActiveProject chars)
  /-- The directories. -/
  dirs : Table (@CoprDir.key chars)
  /-- The packages. -/
  packages : Table (@PackageRow.key chars)
  /-- Builds, branches and commits: what was reported when the sources of the build, or those of
  the build that it was resubmitted from, were imported. -/
  reported : List (Nat × String × String)
  /-- The next `Copr.id`. -/
  nextCoprId : Nat
  /-- The next `CoprDir.id`. -/
  nextDirId : Nat
  /-- The next `Package.id`. -/
  nextPackageId : Nat

namespace ProjectDatabase

variable {chars : CharClasses} (s : ProjectDatabase chars)

/-- There is nothing yet. -/
def empty : ProjectDatabase chars where
  db := .empty
  refs := []
  coprs := []
  dirs := .empty
  packages := .empty
  reported := []
  nextCoprId := 1
  nextDirId := 1
  nextPackageId := 1

/-- The project with an id. -/
def getCopr (coprId : Nat) : Option (ActiveProject chars) :=
  s.coprs.find? fun p => decide (p.copr.id = coprId)

/-- `active_chroots` of a project. -/
def activeChroots (copr : NamedCopr chars) : ChrootSet :=
  match s.getCopr copr.id with
  | some project => project.activeChroots
  | none => .empty

/-- `ComplexLogic.get_build`: a build with its references. -/
def getBuild (buildId : Nat) : Option (Build × BuildRefs chars) :=
  (s.db.builds.find? fun b => decide (b.id = buildId)).bind fun b =>
    (s.refs.find? fun r => decide (r.id = buildId)).map fun r => (b, r)

/-! ### Directories -/

/-- The tables of `CoprDirsLogic`. -/
def dirTables : DirDatabase chars where
  dirs := s.dirs
  builds := []
  actions := .empty
  nextDirId := s.nextDirId
  nextActionId := 1

/-- `main_dir`. -/
def mainDir (copr : NamedCopr chars) : Option (CoprDir chars) :=
  s.dirs.rows.find? fun d => decide (d.copr.id = copr.id) && d.main

/-- `CoprDirsLogic.get_or_create`; `none` is an error. -/
def getOrCreateDir (copr : NamedCopr chars) (dirname : String) :
    Option (CoprDir chars × ProjectDatabase chars) :=
  let grown := s.dirTables.getOrCreate copr dirname
  (grown.getByCoprOrNone copr dirname).map fun d =>
    (d, { s with dirs := grown.dirs, nextDirId := grown.nextDirId })

/-- The directory of a new build: that of the given name, otherwise the main one. -/
def newBuildDir (copr : NamedCopr chars) (dirname : Option String) :
    Option (CoprDir chars × ProjectDatabase chars) :=
  match truthyText dirname with
  | some dirname => s.getOrCreateDir copr dirname
  | none => (s.mainDir copr).map fun d => (d, s)

/-! ### Packages -/

/-- `PackagesLogic.get`. -/
def getPackage (copr : NamedCopr chars) (name : String) : Option (PackageRow chars) :=
  s.packages.find (copr.id, name)

/-- A new package, which is rolled back when the project has one of the same name. -/
def insertPackage (copr : NamedCopr chars) (name : String) (denylist : Option String)
    (sourceType : BuildSourceEnum) : ProjectDatabase chars :=
  { s with
    packages := s.packages.insert ⟨⟨s.nextPackageId, copr, name⟩, denylist, sourceType⟩
    nextPackageId := s.nextPackageId + 1 }

/-- The package of a name, which is created unless it is there. -/
def getOrCreatePackage (copr : NamedCopr chars) (name : String) (denylist : Option String)
    (sourceType : BuildSourceEnum) : Option (PackageKey chars × ProjectDatabase chars) :=
  let grown :=
    match s.getPackage copr name with
    | some _ => s
    | none => s.insertPackage copr name denylist sourceType
  (grown.getPackage copr name).map fun p => (p.package, grown)

/-- The row of a package; a foreign key makes sure that there is one. -/
def packageRow (package : PackageKey chars) : PackageRow chars :=
  (s.packages.rows.find? fun p => decide (p.package = package)).getD ⟨package, none, .unset⟩

/-- `Package.chroots`: those of the project of the package. -/
def packageChroots (p : PackageRow chars) : ChrootSet :=
  p.toPackage.chroots (s.activeChroots p.package.copr)

/-! ### New builds -/

/-- What an entry point passes to `create_new` about the sources. -/
structure Sources (chars : CharClasses) where
  /-- `package`. -/
  package : Option (PackageRow chars) := none
  /-- `source_type`. -/
  sourceType : BuildSourceEnum
  /-- `srpm_url`. -/
  srpmUrl : Option String := none
  /-- `git_hashes`. -/
  gitHashes : List (String × String) := []
  /-- `skip_import`. -/
  skipImport : Bool := false
  /-- The chroots that are marked as skipped afterwards. -/
  skipped : List String := []
  /-- `package_chroots_subset`. -/
  packageChrootsSubset : Bool := false
  /-- `resubmitted_from_id`. -/
  resubmittedFromId : Option Nat := none

/-- Options of a build. -/
structure BuildOptions where
  /-- `copr_dirname`. -/
  coprDirname : Option String := none
  /-- `background`. -/
  background : Bool := false
  /-- `after_build_id` and `with_build_id`. -/
  batching : Option Batching := none

/-- The request behind the arguments of `create_new`: an import is skipped with an SRPM only. -/
def Sources.request (sources : Sources chars) (patterns : ChrootPatterns)
    (options : BuildOptions) : BuildRequest where
  patterns := patterns
  package := sources.package.map PackageRow.toPackage
  packageChrootsSubset := sources.packageChrootsSubset
  gitHashes := sources.gitHashes
  skipImport := sources.skipImport && (truthyText sources.srpmUrl).isSome
  skipped := sources.skipped
  background := options.background
  batching := options.batching

/-- `BuildsLogic.add` with the references of the new build. -/
def add (cached : Nat → Bool) (copr : NamedCopr chars) (sources : Sources chars)
    (coprDirname : Option String) (submission : Submission) : Option (ProjectDatabase chars) :=
  (s.newBuildDir copr coprDirname).bind fun (coprDir, grown) =>
    (s.db.add cached submission).map fun db =>
      { grown with
        db := db
        refs := s.refs ++ [
          { id := s.db.nextBuildId
            copr := copr
            coprDir := coprDir
            package := sources.package.map PackageRow.package
            sourceType := sources.sourceType
            srpmUrl := sources.srpmUrl
            resubmittedFromId := sources.resubmittedFromId }] }

/-- `create_new` behind a form with chroot patterns. The chroots of a package are those of its
own project. -/
def createNew (cached : Nat → Bool) (project : ActiveProject chars) (patterns : ChrootPatterns)
    (options : BuildOptions) (sources : Sources chars) : Option (ProjectDatabase chars) :=
  if patterns.validate project.activeChroots.names then
    let packageActive :=
      match sources.package with
      | some p => s.activeChroots p.package.copr
      | none => project.activeChroots
    (BuildsLogic.createNewFor project.activeChroots packageActive
      (patterns.selectedChroots project.activeChroots.names)
      (sources.request patterns options)).bind
        (s.add cached project.copr sources options.coprDirname)
  else none

/-- A build gets a package version. -/
def setPkgVersion (buildId : Nat) (pkgVersion : Option String) : ProjectDatabase chars :=
  { s with
    db := { s.db with
      builds := s.db.builds.map fun b =>
        if b.id = buildId then { b with pkgVersion := pkgVersion } else b } }

/-- What was reported for a build counts for another one that is resubmitted from it. -/
def inheritReports (buildId sourceId : Nat) : ProjectDatabase chars :=
  { s with
    reported := s.reported ++ (s.reported.filter fun e => decide (e.1 = sourceId)).map fun e =>
      (buildId, e.2) }

/-- `create_new_from_other_build`. -/
def createNewFromOtherBuild (cached : Nat → Bool) (project : ActiveProject chars)
    (patterns : ChrootPatterns) (options : BuildOptions) (source : Build × BuildRefs chars) :
    Option (ProjectDatabase chars) :=
  let (b, r) := source
  let uploaded := decide (r.sourceType = .upload)
  if uploaded && !b.repeatable r.sourceType then none
  else
    (s.createNew cached project patterns { options with coprDirname := some r.coprDir.name }
      { package := r.package.map s.packageRow
        sourceType := r.sourceType
        srpmUrl := b.srpmUrl.or r.srpmUrl
        gitHashes := if uploaded then b.gitHashes else []
        skipImport := uploaded
        skipped := b.skippedChroots
        resubmittedFromId := some b.id }).map fun t =>
      (t.setPkgVersion s.db.nextBuildId b.pkgVersion).inheritReports s.db.nextBuildId b.id

/-- `copr_new_build_rebuild`: the project and the build are both taken from the URL. -/
def newBuildRebuild (cached : Nat → Bool) (coprId buildId : Nat) (patterns : ChrootPatterns)
    (batching : Option Batching) : Option (ProjectDatabase chars) :=
  (s.getCopr coprId).bind fun project =>
    (s.getBuild buildId).bind fun source =>
      s.createNewFromOtherBuild cached project patterns { batching := batching } source

/-- A submission by one of the other methods, maybe of a package of the project. -/
def submit (cached : Nat → Bool) (coprId : Nat) (packageName : Option String)
    (sourceType : BuildSourceEnum) (srpmUrl : Option String) (patterns : ChrootPatterns)
    (options : BuildOptions) : Option (ProjectDatabase chars) :=
  (s.getCopr coprId).bind fun project =>
    match packageName with
    | none =>
      s.createNew cached project patterns options { sourceType := sourceType, srpmUrl := srpmUrl }
    | some name =>
      (s.getPackage project.copr name).bind fun p =>
        s.createNew cached project patterns options
          { package := some p, sourceType := sourceType, srpmUrl := srpmUrl }

/-- `last_build(successful=True)`. -/
def lastSuccessfulBuild (package : PackageKey chars) : Option Build :=
  (s.refs.filter fun r => decide (r.package = some package)).reverse.findSome? fun r =>
    s.db.builds.find? fun b => decide (b.id = r.id) && decide (b.status = some .succeeded)

/-- `batch_build` for one of the packages. The build that the hash is from is one of the same
package. -/
def batchBuild (cached : Nat → Bool) (coprId : Nat) (packageName : String)
    (patterns : ChrootPatterns) (onlyPackageChroots : Bool) (batching : Option Batching) :
    Option (ProjectDatabase chars) :=
  (s.getCopr coprId).bind fun project =>
    (s.getPackage project.copr packageName).bind fun p =>
      let sources : Sources chars :=
        { package := some p
          sourceType := p.sourceType
          packageChrootsSubset := onlyPackageChroots }
      if p.sourceType = .upload ∨ p.sourceType = .link then
        (s.lastSuccessfulBuild p.package).bind fun b =>
          (b.buildChroots.head?.bind fun c => truthyText c.gitHash).bind fun gitHash =>
            let chrootNames := patterns.selectedChroots project.activeChroots.names
            (s.createNew cached project patterns { batching := batching }
              { sources with
                gitHashes := chrootNames.map fun name => (name, gitHash)
                skipImport := true }).map fun t =>
              t.setPkgVersion s.db.nextBuildId b.pkgVersion
      else s.createNew cached project patterns { batching := batching } sources

/-- `rebuild_package` for a webhook, with the directory that it asks for. -/
def rebuildPackage (packageId : Nat) (coprDirname : Option String) :
    Option (ProjectDatabase chars) :=
  (s.packages.rows.find? fun p => decide (p.package.id = packageId)).bind fun p =>
    if (s.activeChroots p.package.copr).chroots = [] then none
    else
      s.add (fun _ => false) p.package.copr { package := some p, sourceType := p.sourceType }
        coprDirname
        { package := some p.package.name
          chroots := s.packageChroots p
          gitHashes := []
          skipImport := false
          skipped := []
          background := true
          batching := none }

/-- `fork_package` and `fork_build` into another project. -/
def forkBuild (buildId coprId : Nat) (chroots : List String) : Option (ProjectDatabase chars) :=
  (s.getCopr coprId).bind fun fcopr =>
    (s.getBuild buildId).bind fun (_, r) =>
      r.package.bind fun package =>
        if package.copr.id = coprId then none
        else
          let row := s.packageRow package
          (s.getOrCreatePackage fcopr.copr package.name row.chrootDenylistRaw
            row.sourceType).bind fun (fpackage, grown) =>
              (s.mainDir fcopr.copr).bind fun coprDir =>
                (s.db.operate (.fork buildId chroots)).map fun db =>
                  { grown with
                    db := db
                    refs := s.refs ++ [
                      { r with
                        id := s.db.nextBuildId
                        copr := fcopr.copr
                        coprDir := coprDir
                        package := some fpackage }] }

/-! ### Messages -/

/-- `build.package = PackagesLogic.get(...)`, once a report has named the package of a build. -/
def assignPackage (buildId : Nat) : ProjectDatabase chars :=
  match s.getBuild buildId with
  | none => s
  | some (b, r) =>
    match r.package, b.package with
    | none, some name =>
      match s.getOrCreatePackage r.copr name none r.sourceType with
      | none => s
      | some (package, grown) =>
        { grown with
          refs := s.refs.map fun other =>
            if other.id = buildId then { other with package := some package } else other }
    | _, _ => s

/-- What dist-git reports about a build that exists is remembered. -/
def remember (buildId : Nat) (branchCommits : List (String × String)) : ProjectDatabase chars :=
  if s.db.builds.any fun b => decide (b.id = buildId) then
    { s with reported := s.reported ++ branchCommits.map fun e => (buildId, e) }
  else s

/-- A message arrives. -/
def receive (m : Message) : ProjectDatabase chars :=
  let received := { s with db := s.db.receive m }
  match m with
  | .update _ buildId _ => received.assignPackage buildId
  | .startingBuild _ buildId _ => received.assignPackage buildId
  | .importCompleted buildId branchCommits => received.remember buildId branchCommits
  | _ => received

/-! ### Projects, packages and directories -/

/-- `CoprsLogic.add` and `fork_copr`: a project with its main directory. -/
def addCopr (copr : NamedCopr chars) (activeChroots : ChrootSet) :
    Option (ProjectDatabase chars) :=
  let copr := { copr with id := s.nextCoprId }
  let grown := s.dirTables.addMainDir copr
  (grown.getByCoprOrNone copr copr.name).map fun _ =>
    { s with
      coprs := s.coprs ++ [⟨copr, activeChroots⟩]
      dirs := grown.dirs
      nextCoprId := s.nextCoprId + 1
      nextDirId := grown.nextDirId }

/-- The active chroots of a project are changed, by its owner or by an administrator. -/
def setActiveChroots (coprId : Nat) (activeChroots : ChrootSet) : ProjectDatabase chars :=
  { s with
    coprs := s.coprs.map fun p =>
      if p.copr.id = coprId then { p with activeChroots := activeChroots } else p }

/-- The source or the denylist of a package is changed. -/
def editPackage (packageId : Nat) (denylist : Option String) (sourceType : BuildSourceEnum) :
    ProjectDatabase chars :=
  { s with
    packages := s.packages.update (fun p => decide (p.package.id = packageId))
      (fun p => { p with chrootDenylistRaw := denylist, sourceType := sourceType }) fun _ => rfl }

/-- Builds disappear. -/
def dropBuilds (selected : BuildRefs chars → Bool) : ProjectDatabase chars :=
  { s with
    db := { s.db with
      builds := s.db.builds.filter fun b =>
        !s.refs.any fun r => selected r && decide (r.id = b.id) }
    refs := s.refs.filter fun r => !selected r }

/-- `delete_builds`: one that is still running is an error. -/
def deleteBuilds (selected : BuildRefs chars → Bool) : Option (ProjectDatabase chars) :=
  if s.db.builds.all fun b =>
      b.finished || !s.refs.any fun r => selected r && decide (r.id = b.id) then
    some (s.dropBuilds selected)
  else none

/-- `delete_package`. -/
def deletePackage (packageId : Nat) : Option (ProjectDatabase chars) :=
  (s.deleteBuilds fun r => decide (r.package.map PackageKey.id = some packageId)).map fun t =>
    { t with packages := t.packages.remove fun p => decide (p.package.id = packageId) }

/-- `delete_with_builds` for some directories, which are not main ones. -/
def deleteDirs (dirIds : List Nat) : ProjectDatabase chars :=
  let expired (d : CoprDir chars) : Bool := !d.main && decide (d.id ∈ dirIds)
  let t := s.dropBuilds fun r => expired r.coprDir
  { t with dirs := t.dirs.remove expired }

/-- `delete_copr`; the packages are left to `delete_orphaned_packages`. -/
def deleteCopr (coprId : Nat) : Option (ProjectDatabase chars) :=
  (s.deleteBuilds fun r => decide (r.copr.id = coprId)).map fun t =>
    { t with
      coprs := t.coprs.filter fun p => decide (p.copr.id ≠ coprId)
      dirs := t.dirs.remove fun d => decide (d.copr.id = coprId) }

end ProjectDatabase

/-- What happens to projects and builds. -/
inductive ProjectEvent (chars : CharClasses)
  /-- A project is created. -/
  | addCopr (copr : NamedCopr chars) (activeChroots : ChrootSet)
  /-- Its chroots are changed. -/
  | setActiveChroots (coprId : Nat) (activeChroots : ChrootSet)
  /-- A directory is created, or is there. -/
  | getOrCreateDir (coprId : Nat) (dirname : String)
  /-- `PackagesLogic.add`. -/
  | addPackage (coprId : Nat) (name : String) (sourceType : BuildSourceEnum)
  /-- A package is edited or reset. -/
  | editPackage (packageId : Nat) (denylist : Option String) (sourceType : BuildSourceEnum)
  /-- A build is submitted. -/
  | submit (cached : Nat → Bool) (coprId : Nat) (packageName : Option String)
    (sourceType : BuildSourceEnum) (srpmUrl : Option String) (patterns : ChrootPatterns)
    (options : ProjectDatabase.BuildOptions)
  /-- A build is resubmitted through the URL of a project. -/
  | newBuildRebuild (cached : Nat → Bool) (coprId buildId : Nat) (patterns : ChrootPatterns)
    (batching : Option Batching)
  /-- All packages are rebuilt, this one among them. -/
  | batchBuild (cached : Nat → Bool) (coprId : Nat) (packageName : String)
    (patterns : ChrootPatterns) (onlyPackageChroots : Bool) (batching : Option Batching)
  /-- A webhook rebuilds a package. -/
  | rebuildPackage (packageId : Nat) (coprDirname : Option String)
  /-- A build is forked into another project. -/
  | forkBuild (buildId coprId : Nat) (chroots : List String)
  /-- A message arrives. -/
  | message (m : Message)
  /-- `rawhide_to_release`. -/
  | rawhideToRelease (buildId : Nat) (rawhide dest : MockChroot)
  /-- `mark_as_failed`. -/
  | markAsFailed (buildId : Nat)
  /-- Builds are deleted. -/
  | deleteBuilds (buildIds : List Nat)
  /-- A package is deleted with its builds. -/
  | deletePackage (packageId : Nat)
  /-- Directories are deleted with their builds. -/
  | deleteDirs (dirIds : List Nat)
  /-- A project is deleted with its builds. -/
  | deleteCopr (coprId : Nat)

/-- The effect of an event; `none` is an error response. -/
def ProjectDatabase.step {chars : CharClasses} (s : ProjectDatabase chars) :
    ProjectEvent chars → Option (ProjectDatabase chars)
  | .addCopr copr activeChroots => s.addCopr copr activeChroots
  | .setActiveChroots coprId activeChroots => some (s.setActiveChroots coprId activeChroots)
  | .getOrCreateDir coprId dirname =>
    (s.getCopr coprId).bind fun p => (s.getOrCreateDir p.copr dirname).map Prod.snd
  | .addPackage coprId name sourceType =>
    (s.getCopr coprId).map fun p => s.insertPackage p.copr name none sourceType
  | .editPackage packageId denylist sourceType => some (s.editPackage packageId denylist sourceType)
  | .submit cached coprId packageName sourceType srpmUrl patterns options =>
    s.submit cached coprId packageName sourceType srpmUrl patterns options
  | .newBuildRebuild cached coprId buildId patterns batching =>
    s.newBuildRebuild cached coprId buildId patterns batching
  | .batchBuild cached coprId packageName patterns onlyPackageChroots batching =>
    s.batchBuild cached coprId packageName patterns onlyPackageChroots batching
  | .rebuildPackage packageId coprDirname => s.rebuildPackage packageId coprDirname
  | .forkBuild buildId coprId chroots => s.forkBuild buildId coprId chroots
  | .message m => some (s.receive m)
  | .rawhideToRelease buildId rawhide dest =>
    (s.db.operate (.rawhideToRelease buildId rawhide dest)).map fun db => { s with db := db }
  | .markAsFailed buildId =>
    (s.db.operate (.markAsFailed buildId)).map fun db => { s with db := db }
  | .deleteBuilds buildIds => s.deleteBuilds fun r => decide (r.id ∈ buildIds)
  | .deletePackage packageId => s.deletePackage packageId
  | .deleteDirs dirIds => some (s.deleteDirs dirIds)
  | .deleteCopr coprId => s.deleteCopr coprId

end Copr
