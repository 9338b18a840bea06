import Copr.Common.ActionData
import Copr.Frontend.Models

/-!
# Actions that delete builds

`get_chroot_builddirs`, `get_build_delete_data`, `send_delete_build` and
`send_delete_multiple_builds` of `coprs/logic/actions_logic.py`: what the frontend asks the
backend to delete when builds are deleted.
-/

namespace Copr

/-- A build with its project directory and what actions record about its project. -/
structure StoredBuild where
  /-- The build. -/
  build : Build
  /-- The unique constraint on its chroots. -/
  distinct : build.Distinct
  /-- `copr`, as far as the actions record it. -/
  copr : DeleteHeader
  /-- `copr_dirname`, for a build with a `copr_dir`. -/
  coprDirname : Option String

/-- `project_dirname` of `get_build_delete_data`. -/
def StoredBuild.projectDirname (b : StoredBuild) : String :=
  b.coprDirname.getD b.copr.projectname

/-- A chroot of a build is added to `chroot_builddirs`; it has no `result_dir` when the build was
canceled before there was a source package. -/
def addChroot (dirs : ChrootBuilddirs) (c : BuildChroot) : ChrootBuilddirs :=
  if c.resultDir = "" then dirs else dirs.insert c.name [c.resultDir]

/-- `get_chroot_builddirs`. -/
def getChrootBuilddirs (b : Build) : ChrootBuilddirs :=
  b.buildChroots.foldl addChroot
    (if b.resultDir = "" then ∅ else AList.singleton "srpm-builds" [b.resultDir])

/-- `get_build_delete_data`. -/
def getBuildDeleteData (b : StoredBuild) : BuildDeleteData :=
  { b.copr with
    projectDirname := b.projectDirname
    chrootBuilddirs := getChrootBuilddirs b.build }

/-- `send_delete_build`. -/
def sendDeleteBuild (b : StoredBuild) : DeleteAction :=
  .build b.build.id (getBuildDeleteData b)

/-- The directories of one more build of a project directory. -/
def extendBuilddirs (dirs : ChrootBuilddirs) (more : List (String × List String)) :
    ChrootBuilddirs :=
  more.foldl (fun dirs item =>
    dirs.insert item.1 ((dirs.lookup item.1).getD [] ++ item.2)) dirs

/-- One more build in `project_dirnames`. -/
def addBuild (dirnames : AList fun _ : String => ChrootBuilddirs) (b : StoredBuild) :
    AList fun _ : String => ChrootBuilddirs :=
  dirnames.insert b.projectDirname
    (extendBuilddirs ((dirnames.lookup b.projectDirname).getD ∅) (getChrootBuilddirs b.build).items)

/-- The parameters that are inherited from the first build. -/
def DeleteHeader.inherited (header : DeleteHeader) : String × String × Bool :=
  (header.ownername, header.projectname, header.appstream)

/-- `send_delete_multiple_builds`; it raises when there is no build or when there are builds of
several projects. -/
def sendDeleteMultipleBuilds (builds : List StoredBuild) : Option DeleteAction :=
  match builds with
  | [] => none
  | first :: rest =>
    if rest.all fun b => decide (b.copr.inherited = first.copr.inherited) then
      some (.builds
        { first.copr with
          projectDirnames := builds.foldl addBuild ∅
          buildIds := builds.map fun b => b.build.id })
    else none

/-- The actions that delete some builds. -/
def DeleteAction.Deletes (action : DeleteAction) (builds : List StoredBuild) : Prop :=
  sendDeleteMultipleBuilds builds = some action ∨
    ∃ b, builds = [b] ∧ action = sendDeleteBuild b

/-! ## What is listed -/

/-- A directory with results of a build: that of the source package or of a chroot. -/
def Build.HasResultDir (b : Build) (chroot subdir : String) : Prop :=
  subdir ≠ "" ∧ (chroot = "srpm-builds" ∧ subdir = b.resultDir ∨
    ∃ c ∈ b.buildChroots, c.name = chroot ∧ subdir = c.resultDir)

/-- No chroot is named as the directory of the source packages: its name has two dashes. -/
theorem BuildChroot.name_ne_srpmBuilds (c : BuildChroot) : c.name ≠ "srpm-builds" := by
  intro same
  have dashes : c.name.toList.count '-' = "srpm-builds".toList.count '-' := by rw [same]
  have one : "srpm-builds".toList.count '-' = 1 := by decide
  have dash : "-".toList.count '-' = 1 := by decide
  simp only [BuildChroot.name, MockChroot.name, String.toList_append, List.count_append, one,
    dash] at dashes
  omega

/-- What is listed after an insertion. -/
theorem ChrootBuilddirs.lists_insert {dirs : ChrootBuilddirs} {name chroot subdir : String}
    {subdirs : List String} : Lists (dirs.insert name subdirs) chroot subdir ↔
      name = chroot ∧ subdir ∈ subdirs ∨ name ≠ chroot ∧ dirs.Lists chroot subdir := by
  by_cases same : name = chroot
  · subst same
    simp [Lists]
  · simp [Lists, same, AList.lookup_insert_ne (Ne.symm same)]

/-- What is listed after a chroot was added that had nothing listed. -/
theorem lists_addChroot {dirs : ChrootBuilddirs} {c : BuildChroot}
    (fresh : ∀ subdir, ¬ dirs.Lists c.name subdir) {chroot subdir : String} :
    (addChroot dirs c).Lists chroot subdir ↔
      dirs.Lists chroot subdir ∨ c.name = chroot ∧ subdir = c.resultDir ∧ subdir ≠ "" := by
  unfold addChroot
  split <;> rename_i empty
  · have nothing : ¬ (subdir = c.resultDir ∧ subdir ≠ "") := by
      rintro ⟨rfl, nonempty⟩
      exact nonempty empty
    simp [nothing]
  · rw [ChrootBuilddirs.lists_insert]
    by_cases same : c.name = chroot
    · subst same
      have mine : subdir = c.resultDir → subdir ≠ "" := fun result => result ▸ empty
      simp only [List.mem_singleton, fresh subdir]
      tauto
    · simp [same]

/-- The chroots of a build are added one after another; their names differ. -/
theorem lists_foldl_addChroot {chroots : List BuildChroot}
    (distinct : (chroots.map BuildChroot.name).Nodup) {dirs : ChrootBuilddirs}
    (fresh : ∀ c ∈ chroots, ∀ subdir, ¬ dirs.Lists c.name subdir) {chroot subdir : String} :
    (chroots.foldl addChroot dirs).Lists chroot subdir ↔
      dirs.Lists chroot subdir ∨
        ∃ c ∈ chroots, c.name = chroot ∧ subdir = c.resultDir ∧ subdir ≠ "" := by
  induction chroots generalizing dirs with
  | nil => simp
  | cons c rest ih =>
    obtain ⟨other, distinct⟩ := List.nodup_cons.mp distinct
    have added := @lists_addChroot dirs c (fresh c List.mem_cons_self)
    have later : ∀ d ∈ rest, ∀ sub, ¬ (addChroot dirs c).Lists d.name sub := by
      intro d member sub listed
      rcases added.mp listed with before | ⟨same, _⟩
      · exact fresh d (List.mem_cons_of_mem _ member) sub before
      · exact other (same ▸ List.mem_map_of_mem member)
    rw [List.foldl_cons, ih distinct later, added]
    simp [or_assoc]

/-- Exactly the directories with results of a build are listed for it. -/
theorem getChrootBuilddirs_lists {b : Build} (distinct : b.Distinct) {chroot subdir : String} :
    (getChrootBuilddirs b).Lists chroot subdir ↔ b.HasResultDir chroot subdir := by
  have start : ∀ name sub, ChrootBuilddirs.Lists
      (if b.resultDir = "" then ∅ else AList.singleton "srpm-builds" [b.resultDir]) name sub ↔
        name = "srpm-builds" ∧ sub = b.resultDir ∧ sub ≠ "" := by
    intro name sub
    split <;> rename_i empty
    · have nothing : ¬ (sub = b.resultDir ∧ sub ≠ "") := by
        rintro ⟨rfl, nonempty⟩
        exact nonempty empty
      simp [ChrootBuilddirs.Lists, nothing]
    · have single : AList.singleton "srpm-builds" [b.resultDir] =
          AList.insert "srpm-builds" [b.resultDir] (∅ : ChrootBuilddirs) := rfl
      rw [single, ChrootBuilddirs.lists_insert]
      have none_ : ¬ ChrootBuilddirs.Lists ∅ name sub := by simp [ChrootBuilddirs.Lists]
      simp only [List.mem_singleton, none_, and_false, or_false, @eq_comm _ name]
      exact and_congr_right fun _ => ⟨fun same => ⟨same, same ▸ empty⟩, And.left⟩
  have fresh : ∀ c ∈ b.buildChroots, ∀ sub, ¬ ChrootBuilddirs.Lists
      (if b.resultDir = "" then ∅ else AList.singleton "srpm-builds" [b.resultDir]) c.name sub :=
    fun c _ sub listed => c.name_ne_srpmBuilds ((start c.name sub).mp listed).1
  rw [getChrootBuilddirs, lists_foldl_addChroot distinct fresh, start, Build.HasResultDir]
  constructor
  · rintro (⟨name, source, nonempty⟩ | ⟨c, member, name, result, nonempty⟩)
    · exact ⟨nonempty, Or.inl ⟨name, source⟩⟩
    · exact ⟨nonempty, Or.inr ⟨c, member, name, result⟩⟩
  · rintro ⟨nonempty, ⟨name, source⟩ | ⟨c, member, name, result⟩⟩
    · exact Or.inl ⟨name, source, nonempty⟩
    · exact Or.inr ⟨c, member, name, result, nonempty⟩

/-- The directories of a build are added to those that are there. -/
theorem lists_extendBuilddirs {more : List (String × List String)} {dirs : ChrootBuilddirs}
    {chroot subdir : String} : (extendBuilddirs dirs more).Lists chroot subdir ↔
      dirs.Lists chroot subdir ∨ ∃ item ∈ more, item.1 = chroot ∧ subdir ∈ item.2 := by
  unfold extendBuilddirs
  induction more generalizing dirs with
  | nil => simp
  | cons item rest ih =>
    have extended : ChrootBuilddirs.Lists
        (dirs.insert item.1 ((dirs.lookup item.1).getD [] ++ item.2)) chroot subdir ↔
          dirs.Lists chroot subdir ∨ item.1 = chroot ∧ subdir ∈ item.2 := by
      rw [ChrootBuilddirs.lists_insert]
      by_cases same : item.1 = chroot
      · subst same
        have before : subdir ∈ (dirs.lookup item.1).getD [] ↔ dirs.Lists item.1 subdir := by
          cases looked : dirs.lookup item.1 <;> simp [ChrootBuilddirs.Lists, looked]
        simp [before]
      · simp [same]
    rw [List.foldl_cons, ih, extended]
    simp [or_assoc]

/-- A directory is listed in `project_dirnames`. -/
def DirnamesList (dirnames : AList fun _ : String => ChrootBuilddirs)
    (dirname chroot subdir : String) : Prop :=
  ∃ dirs, dirnames.lookup dirname = some dirs ∧ dirs.Lists chroot subdir

/-- The builds are added one after another. -/
theorem dirnamesList_foldl_addBuild {builds : List StoredBuild}
    {dirnames : AList fun _ : String => ChrootBuilddirs} {dirname chroot subdir : String} :
    DirnamesList (builds.foldl addBuild dirnames) dirname chroot subdir ↔
      DirnamesList dirnames dirname chroot subdir ∨ ∃ b ∈ builds, b.projectDirname = dirname ∧
        (getChrootBuilddirs b.build).Lists chroot subdir := by
  induction builds generalizing dirnames with
  | nil => simp
  | cons b rest ih =>
    have items : (∃ item ∈ (getChrootBuilddirs b.build).items, item.1 = chroot ∧
        subdir ∈ item.2) ↔ (getChrootBuilddirs b.build).Lists chroot subdir := by
      constructor
      · rintro ⟨⟨name, subdirs⟩, member, rfl, listed⟩
        exact ⟨subdirs, ChrootBuilddirs.mem_items.mp member, listed⟩
      · rintro ⟨subdirs, looked, listed⟩
        exact ⟨(chroot, subdirs), ChrootBuilddirs.mem_items.mpr looked, rfl, listed⟩
    have added : DirnamesList (addBuild dirnames b) dirname chroot subdir ↔
        DirnamesList dirnames dirname chroot subdir ∨ b.projectDirname = dirname ∧
          (getChrootBuilddirs b.build).Lists chroot subdir := by
      by_cases same : b.projectDirname = dirname
      · subst same
        have before : ChrootBuilddirs.Lists ((dirnames.lookup b.projectDirname).getD ∅)
            chroot subdir ↔ DirnamesList dirnames b.projectDirname chroot subdir := by
          cases looked : dirnames.lookup b.projectDirname <;>
            simp [DirnamesList, ChrootBuilddirs.Lists, looked]
        rw [← before, ← items]
        simp [DirnamesList, addBuild, lists_extendBuilddirs]
      · simp [DirnamesList, addBuild, AList.lookup_insert_ne (Ne.symm same), same]
    rw [List.foldl_cons, ih, added]
    simp [or_assoc]

/-- An action lists exactly the directories with results of the builds that it deletes, under
their project directories. -/
theorem DeleteAction.Deletes.lists {action : DeleteAction} {builds : List StoredBuild}
    (deletes : action.Deletes builds) {dirname chroot subdir : String} :
    action.Lists dirname chroot subdir ↔
      ∃ b ∈ builds, b.projectDirname = dirname ∧ b.build.HasResultDir chroot subdir := by
  have each : ∀ b : StoredBuild, (getChrootBuilddirs b.build).Lists chroot subdir ↔
      b.build.HasResultDir chroot subdir := fun b => getChrootBuilddirs_lists b.distinct
  have chosen : (∃ b ∈ builds, b.projectDirname = dirname ∧
      (getChrootBuilddirs b.build).Lists chroot subdir) ↔
        ∃ b ∈ builds, b.projectDirname = dirname ∧ b.build.HasResultDir chroot subdir :=
    exists_congr fun b => and_congr_right fun _ => and_congr_right fun _ => each b
  rw [← chosen]
  rcases deletes with sent | ⟨b, rfl, rfl⟩
  · cases builds with
    | nil => simp [sendDeleteMultipleBuilds] at sent
    | cons first rest =>
      simp only [sendDeleteMultipleBuilds, Option.ite_none_right_eq_some,
        Option.some.injEq] at sent
      obtain ⟨_, rfl⟩ := sent
      have folded := @dirnamesList_foldl_addBuild (first :: rest) ∅ dirname chroot subdir
      have nothing : ¬ DirnamesList ∅ dirname chroot subdir := by simp [DirnamesList]
      simp only [nothing, false_or] at folded
      rw [← folded]
      simp only [DeleteAction.Lists, DeleteAction.dirnames, List.mem_map, DirnamesList]
      constructor
      · rintro ⟨_, ⟨entry, member, rfl⟩, rfl, listed⟩
        exact ⟨entry.2, AList.mem_lookup_iff.mpr member, listed⟩
      · rintro ⟨dirs, looked, listed⟩
        have member := AList.mem_lookup_iff.mp looked
        exact ⟨(dirname, dirs), ⟨⟨dirname, dirs⟩, member, rfl⟩, rfl, listed⟩
  · simp [DeleteAction.Lists, DeleteAction.dirnames, sendDeleteBuild, getBuildDeleteData]

end Copr
