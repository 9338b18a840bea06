import Copr.Frontend.Reports
import Mathlib.Data.List.Dedup
import Mathlib.Data.List.Sort

/-!
# From the task of a source build to its report

The distributions that `get_srpm_build_record` of `backend_general.py` puts into the task of a
source build, the tags that the worker extracts for them (`SRPMResults` of
`copr_rpmbuild/automation/srpm_results.py`), and the report that is made of them. Between the task
and the report the chroots of the project may change.
-/

namespace Copr

open BuildsLogic

/-- The task of a source build, as far as the tags depend on it. -/
structure SourceTask where
  /-- `distributions_in_project`. -/
  distributionsInProject : List String
  /-- `distributions_in_build`. -/
  distributionsInBuild : List String
  deriving DecidableEq, Repr

namespace SourceTask

/-- `sorted(list({x.name_release for x in chroots}))`. -/
def distributions (chroots : List MockChroot) : List String :=
  (chroots.map MockChroot.nameRelease).dedup.insertionSort fun a b => a ≤ b

/-- `get_srpm_build_record`, for the chroots that are active in the project. -/
def getSrpmBuildRecord (active : ChrootSet) (b : Build) : SourceTask where
  distributionsInProject := distributions active.chroots
  distributionsInBuild := distributions (b.buildChroots.map BuildChroot.mockChroot)

/-- `target_distros`; `none` is the `RuntimeError`, with which the source build fails. -/
def targetDistros (task : SourceTask) : Option (List String) :=
  if task.distributionsInBuild ≠ [] then some task.distributionsInBuild
  else if task.distributionsInProject ≠ [] then some task.distributionsInProject
  else none

/-- `get_architecture_specific_tags`, where the spec file has the given tags for each
distribution. -/
def getArchitectureSpecificTags (tags : String → ArchTags) (targets : List String) :
    List (String × ArchTags) :=
  targets.map fun distro => (distro, tags distro)

end SourceTask

/-- A report about a successful source build, with the results of the worker that had fetched the
task. -/
structure SucceededReport (tags : String → ArchTags) (targets : List String) (b : Build)
    (upd : UpdDict) : Prop where
  /-- The report is about the source build. -/
  task : upd.taskId = b.taskId
  /-- `chroot`. -/
  chroot : upd.chroot = some "srpm-builds"
  /-- `status`. -/
  status : upd.status = .succeeded
  /-- `results`. -/
  results : ∃ results, upd.results = some results ∧
    results.architectureSpecificTags = some (SourceTask.getArchitectureSpecificTags tags targets)

/-- A chroot is skipped when its architecture is excluded in its distribution, and waits
otherwise. -/
def TagsApplied (tags : String → ArchTags) (c : BuildChroot) : Prop :=
  c.status = if (tags c.mockChroot.nameRelease).excludes c.mockChroot.arch then .skipped
    else .waiting

/-- The report is accepted, and the tags are applied to every chroot of the build. -/
def ReportAccepted (env : Surroundings) (tags : String → ArchTags) (b : Build) (upd : UpdDict) :
    Prop :=
  ∃ b', updateStateFromDict env b upd = some b' ∧ ∀ c ∈ b'.buildChroots, TagsApplied tags c

/-- The worker was told of a distribution: a chroot of the build had it when the task was fetched,
or, for a build without chroots, a chroot that was active in the project. -/
def Told (active : ChrootSet) (fetched : Build) (distro : String) : Prop :=
  ∃ m ∈ if fetched.buildChroots = [] then active.chroots
      else fetched.buildChroots.map BuildChroot.mockChroot, m.nameRelease = distro

/-- When a report about a successful source build is accepted: the package that it names is there,
and the chroots that the build has or gets now are of distributions that the worker was told of.
If another request creates the package at the same time, nothing is changed. -/
def ReportAcceptable (env : Surroundings) (tags : String → ArchTags) (told : String → Prop)
    (b : Build) (upd : UpdDict) : Prop :=
  match packageAnswer env b upd with
  | .refused => False
  | .raced => ∀ c ∈ b.buildChroots, TagsApplied tags c
  | .present => ∀ c ∈ sourceChroots env (withPackage b upd) upd, told c.mockChroot.nameRelease

/-! ## What the report gives -/

variable {tags : String → ArchTags} {targets : List String} {b : Build} {upd : UpdDict}

/-- The tags of a distribution are known when the worker was told of it. -/
theorem lookup_getArchitectureSpecificTags (distro : String) :
    (SourceTask.getArchitectureSpecificTags tags targets).lookup distro =
      if distro ∈ targets then some (tags distro) else none := by
  induction targets with
  | nil => rfl
  | cons target rest ih =>
    rw [SourceTask.getArchitectureSpecificTags, List.map_cons, List.lookup_cons]
    by_cases same : distro = target
    · subst same
      simp
    · have other : (distro == target) = false := beq_eq_false_iff_ne.mpr same
      rw [other]
      simpa [same, SourceTask.getArchitectureSpecificTags] using ih

/-- The tags that the report has for a chroot. -/
theorem SucceededReport.tagsOf (report : SucceededReport tags targets b upd) (c : BuildChroot) :
    ∃ results, upd.srpmResults = some results ∧
      results.tagsOf c = if c.mockChroot.nameRelease ∈ targets then
        some (tags c.mockChroot.nameRelease) else none := by
  obtain ⟨results, given, known⟩ := report.results
  refine ⟨results, ?_, ?_⟩
  · rw [UpdDict.srpmResults, if_pos report.chroot, given]
  · rw [Results.tagsOf, known, Option.bind_some, lookup_getArchitectureSpecificTags]

/-- The report has tags for a chroot exactly if the worker was told of its distribution. -/
theorem SucceededReport.tagsKnown_iff (report : SucceededReport tags targets b upd)
    (c : BuildChroot) : tagsKnown upd c = true ↔ c.mockChroot.nameRelease ∈ targets := by
  obtain ⟨results, given, known⟩ := report.tagsOf c
  simp only [tagsKnown, given, known]
  split <;> simp [*]

/-- The report applies the tags to a chroot of a known distribution. -/
theorem SucceededReport.applied (report : SucceededReport tags targets b upd)
    (env : Surroundings) {c : BuildChroot} (told : c.mockChroot.nameRelease ∈ targets) :
    TagsApplied tags (sourceChroot env upd c) := by
  obtain ⟨results, given, known⟩ := report.tagsOf c
  rw [TagsApplied, sourceChroot_status, (sourceChroot_keeps env upd c).1, sourceGives, skips, given,
    Option.bind_some, known, if_pos told, report.status]

/-- The distributions of some chroots. -/
theorem mem_distributions {chroots : List MockChroot} {distro : String} :
    distro ∈ SourceTask.distributions chroots ↔ ∃ m ∈ chroots, m.nameRelease = distro := by
  rw [SourceTask.distributions, List.mem_insertionSort, List.mem_dedup, List.mem_map]

/-- There is a distribution for each chroot. -/
theorem distributions_eq_nil {chroots : List MockChroot} :
    SourceTask.distributions chroots = [] ↔ chroots = [] := by
  rw [List.eq_nil_iff_forall_not_mem, List.eq_nil_iff_forall_not_mem]
  constructor
  · intro none m member
    exact none m.nameRelease (mem_distributions.mpr ⟨m, member, rfl⟩)
  · intro none distro listed
    obtain ⟨m, member, -⟩ := mem_distributions.mp listed
    exact none m member

/-- The distributions for which the worker extracts tags. -/
theorem mem_targetDistros {active : ChrootSet} {fetched : Build} {distro : String}
    (chosen : (SourceTask.getSrpmBuildRecord active fetched).targetDistros = some targets) :
    distro ∈ targets ↔ Told active fetched distro := by
  unfold SourceTask.targetDistros SourceTask.getSrpmBuildRecord at chosen
  simp only [ne_eq, distributions_eq_nil, List.map_eq_nil_iff] at chosen
  by_cases empty : fetched.buildChroots = []
  · rw [if_neg (not_not.mpr empty)] at chosen
    split at chosen
    · obtain rfl := Option.some.inj chosen
      simp only [mem_distributions, Told, if_pos empty]
    · contradiction
  · rw [if_pos empty] at chosen
    obtain rfl := Option.some.inj chosen
    simp only [mem_distributions, Told, if_neg empty]

namespace Sample

/-- A mock chroot of Fedora. -/
def fedoraRelease (version : String) : MockChroot := ⟨"fedora", version, "x86_64", "f" ++ version⟩

/-- A spec file that excludes nothing. -/
def noTags : String → ArchTags := fun _ => {}

/-- A source build whose chroots are allocated when the sources are there. -/
def lateBuild : Build where
  id := 7
  sourceStatus := .running
  package := some "hello"
  buildChroots := []

/-- The project as it was when the worker fetched the task. -/
def fetchedChroots : ChrootSet := ⟨[fedoraRelease "41"], by decide⟩

/-- The report of the worker. -/
def lateReport : UpdDict where
  taskId := "7"
  chroot := some "srpm-builds"
  status := .succeeded
  results := some
    { architectureSpecificTags :=
        some (SourceTask.getArchitectureSpecificTags noTags ["fedora-41"]) }

/-- The report is about the source build. -/
theorem lateReport_succeeded : SucceededReport noTags ["fedora-41"] lateBuild lateReport :=
  ⟨by decide, rfl, rfl, _, rfl, rfl⟩

end Sample

end Copr
