import Copr.Frontend.DeleteActions
import Copr.Backend.Storage

/-!
# What is left of deleted builds

`DeleteBuild` and `DeleteMultipleBuilds` of `copr_backend/actions.py` on the actions that the
frontend sends, and exactly when a reported success means that nothing is left.
-/

namespace Copr

open Sweep

/-! ## Both storages alike -/

section Chroot

variable (storage : StorageEnum) (env : Deletion) (st : Storage) (buildIds : List Nat)

/-- The directory of a chroot of a project directory. -/
def Storage.path (st : Storage) (item : String × String × List String) : ChrootPath :=
  ⟨st.owner, item.1, item.2.1⟩

/-- Nothing goes wrong while the builds are deleted in a chroot. -/
def StorageEnum.Unhindered (item : String × String × List String) (s : Stored) : Prop :=
  match storage with
  | .backend => BackendStorage.Unhindered env (st.path item) s
  | .pulp => item.2.1 ≠ "srpm-builds" →
      PulpStorage.Unhindered env st buildIds (st.path item) item.2.2 s

/-- What is stored when nothing has gone wrong. -/
def StorageEnum.cleaned (item : String × String × List String) (s : Stored) : Stored :=
  match storage with
  | .backend => BackendStorage.cleaned env st item.1 buildIds item.2 s
  | .pulp => PulpStorage.cleaned env st item.1 buildIds item.2 s

/-- A directory is removed when nothing has gone wrong: by `copr-repo`, or with the content
units of a page. -/
def StorageEnum.removes (item : String × String × List String) (path : ChrootPath)
    (subdir : String) : Bool :=
  match storage with
  | .backend => decide (st.path item = path) && BackendStorage.removes env path item.2.2 subdir
  | .pulp => item.2.1 != "srpm-builds" &&
      (PulpStorage.pagesDirs env (st.path item) item.2.2 (PulpStorage.pages env buildIds)).contains
        (path, subdir)

/-- The updates of a Pulp repository for the pages of a chroot. They concern the repository of the
project, and for each page the requests that are executed together are merged. -/
def PulpStorage.updates (repository : ChrootPath) (item : String × String × List String) :
    List (SetUpdates.Update String) :=
  if item.2.1 ≠ "srpm-builds" ∧ st.repositoryName item.2.1 = repository then
    (PulpStorage.pages env buildIds).map fun page => SetUpdates.merged
      ((deleteContent page.1 [] ::
        (env.requests (st.path item) page.2).map OtherRequest.task).map ContentTask.update)
  else []

end Chroot

/-- A content unit is in a repository. -/
def Stored.Holds (s : Stored) (repository : ChrootPath) (unit : String) : Prop :=
  ∃ content, s.repositories repository = some content ∧ unit ∈ content

/-- A repository is what some updates make of it. -/
def Stored.Updated (s : Stored) (repository : ChrootPath)
    (updates : List (SetUpdates.Update String)) (after : Stored) : Prop :=
  ∃ change : Finset String → Finset String,
    (∀ content : Finset String, (change content : Set String) = SetUpdates.run content updates) ∧
      after.repositories repository = (s.repositories repository).map change

section Updates

variable {s t after : Stored} {repository : ChrootPath}
  {updates more : List (SetUpdates.Update String)} {unit : String}

/-- A repository that stays as it is. -/
theorem Stored.Updated.refl (same : after.repositories repository = s.repositories repository) :
    s.Updated repository [] after :=
  ⟨id, fun _ => rfl, by rw [same, Option.map_id, id_eq]⟩

/-- Two lists of updates of a repository, one after the other, are the joined list of updates. -/
theorem Stored.Updated.append (first : s.Updated repository updates t)
    (second : t.Updated repository more after) : s.Updated repository (updates ++ more) after := by
  obtain ⟨change, run, here⟩ := first
  obtain ⟨again, rerun, there⟩ := second
  refine ⟨again ∘ change, fun content => ?_, ?_⟩
  · rw [Function.comp_apply, rerun, run]
    exact (List.foldl_append ..).symm
  · rw [there, here, Option.map_map]

/-- What a repository does not hold after some updates. -/
theorem Stored.Updated.not_holds (updated : s.Updated repository updates after) :
    ¬ after.Holds repository unit ↔ ∀ content, s.repositories repository = some content →
      SetUpdates.LeftOut updates unit (unit ∈ content) := by
  obtain ⟨change, run, same⟩ := updated
  have out (content : Finset String) : unit ∉ change content ↔
      SetUpdates.LeftOut updates unit (unit ∈ content) := by
    have last := @SetUpdates.not_mem_run _ updates (content : Set String) unit
    rwa [← run, Finset.mem_coe, Finset.mem_coe] at last
  cases found : s.repositories repository with
  | none => simp [Stored.Holds, same, found]
  | some content => simp [Stored.Holds, same, found, out]

end Updates

section Pages

variable {env : Deletion} {st : Storage} {item : String × String × List String}
  {pages : List (List String × Nat)} {page : List String × Nat} {s : Stored}
  {repository : ChrootPath}

/-- The directories that the batches with the pages name are removed. -/
theorem foldl_pageDone_dirs {path : ChrootPath} {subdir : String} :
    (pages.foldl (PulpStorage.pageDone env st (st.path item) item.2.2) s).dirs path subdir =
      (s.dirs path subdir && !decide ((path, subdir) ∈
        PulpStorage.pagesDirs env (st.path item) item.2.2 pages)) := by
  induction pages generalizing s with
  | nil => simp [PulpStorage.pagesDirs]
  | cons page rest ih =>
    have whole : PulpStorage.pagesDirs env (st.path item) item.2.2 (page :: rest) =
        PulpStorage.pageDirs env (st.path item) item.2.2 page.2 ++
          PulpStorage.pagesDirs env (st.path item) item.2.2 rest := rfl
    rw [List.foldl_cons, ih, whole]
    simp [PulpStorage.pageDone, Bool.and_assoc]

/-- The content of the project's repository after the call for a page. -/
theorem pageOptions_update (content : Finset String) :
    ((modifyRepositoryContent content (PulpStorage.pageOptions env (st.path item) page.2
        page.1).rpmsToAdd (PulpStorage.pageOptions env (st.path item) page.2
          page.1).rpmsToRemove : Finset String) : Set String) =
      (SetUpdates.merged ((deleteContent page.1 [] :: (env.requests (st.path item) page.2).map
        OtherRequest.task).map ContentTask.update)).apply content := by
  ext unit
  have ⟨added, removed⟩ := @mem_foldl_merge_content
    ((env.requests (st.path item) page.2).map OtherRequest.task)
    (.start (deleteContent page.1 [])) unit
  have adds : unit ∈ SetUpdates.adds ((deleteContent page.1 [] ::
      (env.requests (st.path item) page.2).map OtherRequest.task).map ContentTask.update) ↔
      unit ∈ (((env.requests (st.path item) page.2).map OtherRequest.task).foldl
        ContentOptions.merge (.start (deleteContent page.1 []))).rpmsToAdd := by
    rw [mem_adds_map, added, List.exists_mem_cons_iff]
    rfl
  have removes : unit ∈ SetUpdates.removes ((deleteContent page.1 [] ::
      (env.requests (st.path item) page.2).map OtherRequest.task).map ContentTask.update) ↔
      unit ∈ (((env.requests (st.path item) page.2).map OtherRequest.task).foldl
        ContentOptions.merge (.start (deleteContent page.1 []))).rpmsToRemove := by
    rw [mem_removes_map, removed, List.exists_mem_cons_iff]
    rfl
  simp only [modifyRepositoryContent, PulpStorage.pageOptions, ContentOptions.cancel,
    Finset.coe_union, Finset.coe_sdiff, List.coe_toFinset, List.mem_filter, decide_eq_true_eq,
    SetUpdates.Update.apply, SetUpdates.merged, SetUpdates.conflicts, Set.mem_union,
    Set.mem_sdiff, Set.mem_inter_iff, Set.mem_ofPred_eq, adds, removes]

/-- The pages update the repository of the project. -/
theorem foldl_pageDone_updated : s.Updated repository
    (if st.repositoryName item.2.1 = repository then pages.map fun page =>
      SetUpdates.merged ((deleteContent page.1 [] ::
        (env.requests (st.path item) page.2).map OtherRequest.task).map ContentTask.update)
      else [])
    (pages.foldl (PulpStorage.pageDone env st (st.path item) item.2.2) s) := by
  induction pages generalizing s with
  | nil => simp [Stored.Updated.refl]
  | cons page rest ih =>
    have first : s.Updated repository
        (if st.repositoryName item.2.1 = repository then [SetUpdates.merged
          ((deleteContent page.1 [] :: (env.requests (st.path item) page.2).map
            OtherRequest.task).map ContentTask.update)] else [])
        (PulpStorage.pageDone env st (st.path item) item.2.2 s page) := by
      by_cases own : st.repositoryName item.2.1 = repository
      · subst own
        rw [if_pos rfl]
        exact ⟨_, pageOptions_update, Function.update_self ..⟩
      · rw [if_neg own]
        exact .refl (Function.update_of_ne (Ne.symm own) ..)
    have whole := first.append ih
    by_cases own : st.repositoryName item.2.1 = repository
    · simpa only [if_pos own, List.singleton_append, List.foldl_cons, List.map_cons] using whole
    · simpa only [if_neg own, List.append_nil, List.foldl_cons] using whole

end Pages

section Chroot

variable {storage : StorageEnum} {env : Deletion} {st : Storage} {buildIds : List Nat}
  {item : String × String × List String} {items : List (String × String × List String)}
  {s : Stored} {repository path : ChrootPath} {subdir : String}

/-- What a chroot leaves of the directories. -/
theorem cleaned_dirs : (storage.cleaned env st buildIds item s).dirs path subdir =
    (s.dirs path subdir && !storage.removes env st buildIds item path subdir) := by
  cases storage with
  | backend =>
    simp only [StorageEnum.cleaned, BackendStorage.cleaned, StorageEnum.removes,
      Stored.removeLogs_dirs]
    rw [Stored.removeDirs_dirs]
    by_cases same : st.path item = path
    · subst same
      rfl
    · have other : ¬ (⟨st.owner, item.1, item.2.1⟩ : ChrootPath) = path := same
      simp [same, other]
  | pulp =>
    simp only [StorageEnum.cleaned, PulpStorage.cleaned, StorageEnum.removes]
    by_cases source : item.2.1 = "srpm-builds"
    · simp [source]
    · have chroot : (item.2.1 != "srpm-builds") = true := by simpa using source
      rw [if_neg source, chroot, Bool.true_and, List.contains_eq_mem]
      exact foldl_pageDone_dirs

/-- What some chroots leave of the directories. -/
theorem foldl_cleaned_dirs :
    (items.foldl (fun s item => storage.cleaned env st buildIds item s) s).dirs path subdir =
      (s.dirs path subdir &&
        !items.any fun item => storage.removes env st buildIds item path subdir) := by
  induction items generalizing s with
  | nil => simp
  | cons item rest ih =>
    rw [List.foldl_cons, ih, cleaned_dirs, List.any_cons, Bool.not_or, Bool.and_assoc]

/-- What a chroot leaves of the content units in Pulp. -/
theorem cleaned_updated : s.Updated repository (PulpStorage.updates env st buildIds repository item)
    (StorageEnum.pulp.cleaned env st buildIds item s) := by
  simp only [StorageEnum.cleaned, PulpStorage.cleaned, PulpStorage.updates]
  by_cases source : item.2.1 = "srpm-builds"
  · simp [source, Stored.Updated.refl]
  · simp only [ne_eq, source, not_false_eq_true, true_and]
    exact foldl_pageDone_updated

/-- What some chroots leave of the content units in Pulp. -/
theorem foldl_cleaned_updated : s.Updated repository
    (items.flatMap (PulpStorage.updates env st buildIds repository))
    (items.foldl (fun s item => StorageEnum.pulp.cleaned env st buildIds item s) s) := by
  induction items generalizing s with
  | nil => exact .refl rfl
  | cons item rest ih => exact cleaned_updated.append ih

/-- A call is true exactly when nothing goes wrong in its chroot. -/
theorem deleteIn_true {after : Stored} :
    storage.deleteIn env st item.1 buildIds item.2 s = (some true, after) ↔
      storage.Unhindered env st buildIds item s ∧
        after = storage.cleaned env st buildIds item s := by
  cases storage with
  | backend => exact BackendStorage.deleteIn_true
  | pulp => exact PulpStorage.deleteIn_true

end Chroot

/-! ## The actions -/

/-- The `Storage` object that `Action` creates. -/
def DeleteHeader.st (header : DeleteHeader) : Storage where
  owner := header.ownername
  project := header.projectname
  appstream := header.appstream
  devel := header.devel

/-- What the worker reports for a call, and what is stored then. An exception ends the worker
with a failure. -/
def reported (outcome : Option Bool × Stored) : BackendResultEnum × Stored :=
  (.of outcome.1, outcome.2)

/-- A reported success comes from a true value. -/
theorem reported_eq_success {outcome : Option Bool × Stored} {after : Stored} :
    reported outcome = (.success, after) ↔ outcome = (some true, after) := by
  simp [reported, Prod.ext_iff]

/-- `DeleteBuild.run` and `DeleteMultipleBuilds.run`. -/
def DeleteAction.run (env : Deletion) (s : Stored) : DeleteAction → BackendResultEnum × Stored
  | .build objectId data =>
    reported (data.storage.deleteBuilds env data.st data.projectDirname data.chrootBuilddirs
      [objectId] s)
  | .builds data =>
    reported (sweep (fun entry : Sigma fun _ : String => ChrootBuilddirs =>
      data.storage.deleteBuilds env data.st entry.1 entry.2 data.buildIds)
        data.projectDirnames.entries s)

namespace DeleteAction

variable (action : DeleteAction) (env : Deletion)

/-- What is stored when nothing has gone wrong in some of the chroots. -/
def cleaned (items : List (String × String × List String)) (before : Stored) : Stored :=
  items.foldl (fun s item =>
    action.header.storage.cleaned env action.header.st action.buildIds item s) before

/-- Nothing goes wrong while the action runs: in what the earlier chroots have left, the path of
every chroot exists, every call succeeds, and for Pulp the directories can be removed together with
one page of content units. -/
def Unhindered (before : Stored) : Prop :=
  ∀ earlier item later, action.items = earlier ++ item :: later →
    action.header.storage.Unhindered env action.header.st action.buildIds item
      (action.cleaned env earlier before)

/-- The path of a listed chroot. -/
def path (dirname chroot : String) : ChrootPath := ⟨action.header.ownername, dirname, chroot⟩

/-- Nothing is left of the deleted builds: no listed directory exists, and for a Pulp project no
content unit of the builds is in the repository of a listed project directory and chroot. -/
structure Gone (after : Stored) : Prop where
  /-- The directories. -/
  dirs : ∀ dirname chroot subdir, action.Lists dirname chroot subdir →
    after.dirs (action.path dirname chroot) subdir = false
  /-- The content units. -/
  units : action.header.storage = .pulp → ∀ dirname chroot subdir,
    action.Lists dirname chroot subdir → ∀ unit ∈ env.units action.buildIds,
      ¬ after.Holds (action.path dirname chroot) unit

/-- The request of another process that is executed together with one of the action's names the
directory. -/
def NamedByOthers (path : ChrootPath) (subdir : String) : Prop :=
  ∃ item ∈ action.items, item.2.1 ≠ "srpm-builds" ∧
    ∃ page ∈ PulpStorage.pages env action.buildIds,
      ∃ request ∈ env.requests (action.header.st.path item) page.2,
        (path, subdir) ∈ request.dirsToDelete

/-- The updates of a Pulp repository while the action runs: none at all unless it is the one of the
main project directory and a listed chroot. -/
def updates (repository : ChrootPath) : List (SetUpdates.Update String) :=
  action.items.flatMap (PulpStorage.updates env action.header.st action.buildIds repository)

/-- What the storages do not delete is not there from the start: directories in `srpm-builds`,
those where `rmtree` fails after `createrepo_c`, in Pulp projects those of builds without content
units, and content units in the repositories of project directories other than the main one, or
that the requests of other processes keep or put in. -/
structure Clean (builds : List StoredBuild) (before : Stored) : Prop where
  /-- The directories. -/
  dirs : ∀ b ∈ builds, ∀ chroot subdir, b.build.HasResultDir chroot subdir →
    before.dirs (action.path b.projectDirname chroot) subdir = false ∨
      (chroot ≠ "srpm-builds" ∧
        (action.header.storage = .backend →
          env.rmtree (action.path b.projectDirname chroot) subdir = true) ∧
        (action.header.storage = .pulp → env.units action.buildIds ≠ [])) ∨
      (action.header.storage = .pulp ∧
        action.NamedByOthers env (action.path b.projectDirname chroot) subdir)
  /-- The content units. -/
  units : action.header.storage = .pulp → ∀ b ∈ builds, ∀ chroot subdir,
    b.build.HasResultDir chroot subdir → ∀ unit ∈ env.units action.buildIds, ∀ content,
      before.repositories (action.path b.projectDirname chroot) = some content →
        SetUpdates.LeftOut (action.updates env (action.path b.projectDirname chroot)) unit
          (unit ∈ content)

variable {action env} {before after : Stored}

/-- An action succeeds exactly when nothing goes wrong, and then every chroot is cleaned. -/
theorem run_success : action.run env before = (.success, after) ↔
    action.Unhindered env before ∧ after = action.cleaned env action.items before := by
  have looped := @sweep_true_iff _ _ (fun item : String × String × List String =>
      action.header.storage.deleteIn env action.header.st item.1 action.buildIds item.2)
    (action.header.storage.Unhindered env action.header.st action.buildIds)
    (action.header.storage.cleaned env action.header.st action.buildIds)
    (fun _ _ _ => deleteIn_true) action.items before after
  simp only [Unhindered, cleaned]
  rw [← looped, items, ← sweep_flatMap_true]
  simp only [sweep_map]
  cases action with
  | build objectId data =>
    rw [dirnames, sweep_singleton_true]
    exact reported_eq_success
  | builds data =>
    rw [dirnames, sweep_map]
    exact reported_eq_success

/-- A listed directory is removed with its chroot, or together with it for another process. -/
theorem any_removes {dirname chroot subdir : String} (lists : action.Lists dirname chroot subdir) :
    (action.items.any fun item => action.header.storage.removes env action.header.st
        action.buildIds item (action.path dirname chroot) subdir) = true ↔
      (chroot ≠ "srpm-builds" ∧
        (action.header.storage = .backend →
          env.rmtree (action.path dirname chroot) subdir = true) ∧
        (action.header.storage = .pulp → env.units action.buildIds ≠ [])) ∨
      (action.header.storage = .pulp ∧
        action.NamedByOthers env (action.path dirname chroot) subdir) := by
  have ⟨subdirs, item, listed⟩ := lists_iff_items.mp lists
  have own : action.header.st.path (dirname, chroot, subdirs) = action.path dirname chroot := rfl
  rw [List.any_eq_true]
  cases storage : action.header.storage with
  | backend =>
    simp only [StorageEnum.removes, BackendStorage.removes, Bool.and_eq_true, bne_iff_ne,
      decide_eq_true_eq, ne_eq, true_implies, reduceCtorEq, false_implies, and_true,
      false_and, or_false]
    constructor
    · rintro ⟨_, _, _, ⟨source, _⟩, removed⟩
      exact ⟨source, removed⟩
    · rintro ⟨source, removed⟩
      exact ⟨_, item, own, ⟨source, List.mem_append_left _ listed⟩, removed⟩
  | pulp =>
    have positive : 0 < maxContentUnitsInBatch := by decide
    simp only [StorageEnum.removes, PulpStorage.pagesDirs, PulpStorage.pageDirs, NamedByOthers,
      Bool.and_eq_true, bne_iff_ne, List.contains_iff_mem, List.mem_flatMap, List.mem_dedup,
      List.mem_append, ne_eq, reduceCtorEq, false_implies, true_and, true_implies]
    constructor
    · rintro ⟨other, among, source, page, on, mine | ⟨request, waits, named⟩⟩
      · obtain ⟨_, _, same⟩ := List.mem_map.mp mine
        obtain ⟨_, dirname, chroot⟩ := ChrootPath.mk.inj (Prod.mk.inj same).1
        refine Or.inl ⟨chroot ▸ source, fun empty => ?_⟩
        rw [PulpStorage.pages, empty, (batched_eq_nil positive).mpr rfl] at on
        exact absurd on List.not_mem_nil
      · exact Or.inr ⟨other, among, source, page, on, request, waits, named⟩
    · rintro (⟨source, units⟩ | ⟨other, among, source, page, on, request, waits, named⟩)
      · have some_ : PulpStorage.pages env action.buildIds ≠ [] := by
          simpa [PulpStorage.pages, batched_eq_nil positive] using units
        obtain ⟨page, on⟩ := List.exists_mem_of_ne_nil _ some_
        exact ⟨_, item, source, page, on, Or.inl (List.mem_map.mpr ⟨subdir, listed, rfl⟩)⟩
      · exact ⟨other, among, source, page, on, Or.inr ⟨request, waits, named⟩⟩

/-- Nothing is left after every chroot was cleaned exactly when everything was clean enough. -/
theorem Deletes.gone_iff_clean {builds : List StoredBuild} (deletes : action.Deletes builds) :
    action.Gone env (action.cleaned env action.items before) ↔ action.Clean env builds before := by
  have removed : ∀ {dirname chroot subdir}, action.Lists dirname chroot subdir →
      ((action.cleaned env action.items before).dirs (action.path dirname chroot) subdir = false ↔
      before.dirs (action.path dirname chroot) subdir = false ∨
        (chroot ≠ "srpm-builds" ∧
          (action.header.storage = .backend →
            env.rmtree (action.path dirname chroot) subdir = true) ∧
          (action.header.storage = .pulp → env.units action.buildIds ≠ [])) ∨
        (action.header.storage = .pulp ∧
          action.NamedByOthers env (action.path dirname chroot) subdir)) := by
    intro dirname chroot subdir lists
    rw [cleaned, foldl_cleaned_dirs, Bool.and_eq_false_iff, Bool.not_eq_false',
      any_removes lists]
  have left (pulp : action.header.storage = .pulp) (repository : ChrootPath) (unit : String) :
      ¬ (action.cleaned env action.items before).Holds repository unit ↔
        ∀ content, before.repositories repository = some content →
          SetUpdates.LeftOut (action.updates env repository) unit (unit ∈ content) := by
    simp only [cleaned, pulp]
    exact foldl_cleaned_updated.not_holds
  constructor
  · intro gone
    constructor
    · intro b member chroot subdir result
      have lists := deletes.lists.mpr ⟨b, member, rfl, result⟩
      exact (removed lists).mp (gone.dirs _ _ _ lists)
    · intro pulp b member chroot subdir result unit labelled
      have lists := deletes.lists.mpr ⟨b, member, rfl, result⟩
      exact (left pulp _ unit).mp (gone.units pulp _ _ _ lists unit labelled)
  · intro clean
    constructor
    · intro dirname chroot subdir lists
      obtain ⟨b, member, rfl, result⟩ := deletes.lists.mp lists
      exact (removed lists).mpr (clean.dirs b member chroot subdir result)
    · intro pulp dirname chroot subdir lists unit labelled
      obtain ⟨b, member, rfl, result⟩ := deletes.lists.mp lists
      exact (left pulp _ unit).mpr (clean.units pulp b member chroot subdir result unit labelled)

end DeleteAction

/-- A reported success means that nothing is left of the deleted builds exactly when nothing is
there that the storages do not delete: directories in `srpm-builds`, directories that `rmtree`
fails to remove, directories of builds without content units in Pulp projects, content units in
the Pulp repositories of project directories other than the main one, and content units that the
requests of other processes keep in a repository or put into it. -/
theorem deleted_builds_gone_iff (builds : List StoredBuild) (action : DeleteAction)
    (deletes : action.Deletes builds) (env : Deletion) (before : Stored) :
    ((action.run env before).1 = .success → action.Gone env (action.run env before).2) ↔
      (action.Unhindered env before → action.Clean env builds before) := by
  by_cases unhindered : action.Unhindered env before
  · have ran := DeleteAction.run_success.mpr ⟨unhindered, rfl⟩
    rw [ran, deletes.gone_iff_clean]
    exact ⟨fun gone _ => gone rfl, fun clean _ => clean unhindered⟩
  · have failed : (action.run env before).1 ≠ .success := fun succeeded =>
      unhindered (DeleteAction.run_success.mp (Prod.ext succeeded rfl)).1
    exact ⟨fun _ possible => absurd possible unhindered, fun _ done => absurd done failed⟩

namespace Sample

/-- A deletion without any failure. Build 2 has one content unit. -/
def smooth : Deletion where
  coprRepo _ := .finished
  others _ := {}
  comps _ := false
  repomd _ := true
  rmtree _ _ := true
  unlink _ _ := true
  labelled buildId := if buildId = 2 then ["hello"] else []
  getRepository _ := true
  getContent _ := true
  requests _ _ := []
  modify _ _ := true
  publish _ _ := true

/-- Everything exists. -/
def everything : Stored where
  chrootDirs _ := true
  dirs _ _ := true
  logs _ _ := false
  repositories _ := some {"hello"}

/-- A project. -/
def copr (storage : StorageEnum) : DeleteHeader where
  ownername := "owner"
  projectname := "project"
  appstream := false
  devel := false
  storage := storage

/-- The source build has failed. -/
def failedBuild : StoredBuild where
  build :=
    { id := 1
      sourceStatus := .failed
      resultDir := "00000001"
      buildChroots := [] }
  distinct := List.nodup_nil
  copr := copr .backend
  coprDirname := some "project"

/-- A package was built in a project directory. -/
def builtIn (dirname : String) : StoredBuild where
  build :=
    { id := 2
      sourceStatus := .succeeded
      buildChroots := [
        { mockChroot := ⟨"fedora", "42", "x86_64", "f42"⟩
          status := .succeeded
          resultDir := "00000002-hello" }] }
  distinct := List.nodup_singleton _
  copr := copr .pulp
  coprDirname := some dirname

/-- A package was built for a pull request. -/
def pullRequest : StoredBuild := builtIn "project:pr:1"

/-- The directory of the source build stays. -/
theorem failedBuild_left :
    ((sendDeleteBuild failedBuild).run smooth everything).1 = .success ∧
      ¬ (sendDeleteBuild failedBuild).Gone smooth
        ((sendDeleteBuild failedBuild).run smooth everything).2 := by
  refine ⟨rfl, fun gone => ?_⟩
  have deletes : (sendDeleteBuild failedBuild).Deletes [failedBuild] := Or.inr ⟨_, rfl, rfl⟩
  have lists := deletes.lists.mpr ⟨failedBuild, List.mem_cons_self, rfl, (by decide : _ ≠ ""),
    Or.inl ⟨rfl, rfl⟩⟩
  have absent := gone.dirs _ _ _ lists
  have there : ((sendDeleteBuild failedBuild).run smooth everything).2.dirs
    ⟨"owner", "project", "srpm-builds"⟩ "00000001" = true := rfl
  exact absurd (there.symm.trans absent) (by decide)

/-- The chroot of the build. -/
theorem builtIn_items (dirname : String) : (sendDeleteBuild (builtIn dirname)).items =
    [(dirname, "fedora-42-x86_64", ["00000002-hello"])] := rfl

/-- The content unit of the build is on one page. -/
theorem builtIn_pages : PulpStorage.pages smooth [2] = [(["hello"], 0)] := by
  have short : batched maxContentUnitsInBatch ["hello"] = [["hello"]] :=
    batched_of_short (by decide) (by decide) (by decide)
  exact congrArg List.zipIdx short

/-- Nothing goes wrong while the build is deleted. -/
theorem builtIn_unhindered (dirname : String) :
    (sendDeleteBuild (builtIn dirname)).Unhindered smooth everything := by
  intro earlier item later split_
  rw [builtIn_items] at split_
  cases earlier with
  | cons head earlier => simp at split_
  | nil =>
    obtain ⟨rfl, rfl⟩ := List.cons.inj split_
    intro _
    exact
      { chrootDir := rfl
        repository := ⟨rfl, rfl⟩
        content := ⟨List.cons_ne_nil _ _, rfl⟩
        calls := fun _ _ => Or.inr ⟨rfl, rfl⟩
        once := by
          show (PulpStorage.pagesDirs smooth _ _ (PulpStorage.pages smooth [2])).Nodup
          rw [builtIn_pages]
          exact List.nodup_singleton _
        removable := fun _ _ => ⟨rfl, rfl⟩ }

/-- The content unit stays in the repository of the pull request. -/
theorem pullRequest_left :
    ((sendDeleteBuild pullRequest).run smooth everything).1 = .success ∧
      ¬ (sendDeleteBuild pullRequest).Gone smooth
        ((sendDeleteBuild pullRequest).run smooth everything).2 := by
  have unhindered : (sendDeleteBuild pullRequest).Unhindered smooth everything :=
    builtIn_unhindered "project:pr:1"
  have ran := DeleteAction.run_success.mpr ⟨unhindered, rfl⟩
  have deletes : (sendDeleteBuild pullRequest).Deletes [pullRequest] := Or.inr ⟨_, rfl, rfl⟩
  rw [ran, deletes.gone_iff_clean]
  refine ⟨rfl, fun clean => ?_⟩
  have result : pullRequest.build.HasResultDir "fedora-42-x86_64" "00000002-hello" :=
    ⟨by decide, Or.inr ⟨_, List.mem_cons_self, by decide, rfl⟩⟩
  have untouched : (sendDeleteBuild pullRequest).updates smooth
      ((sendDeleteBuild pullRequest).path pullRequest.projectDirname "fedora-42-x86_64") = [] := by
    rw [DeleteAction.updates, pullRequest, builtIn_items, List.flatMap_singleton,
      PulpStorage.updates, if_neg (by decide)]
  have out := clean.units rfl pullRequest List.mem_cons_self _ _ result "hello" (by decide)
    {"hello"} rfl
  rw [untouched] at out
  rcases out with ⟨absent, _⟩ | ⟨earlier, _, _, split_, _⟩
  · exact absent (Finset.mem_singleton_self _)
  · simp at split_

end Sample

/-- The directory of a finished source build stays when the build is deleted, and so does a
content unit of a finished build in the Pulp repository of a pull request; the action succeeds. -/
theorem deleted_builds_left :
    (¬ ∀ (builds : List StoredBuild) (action : DeleteAction),
      (∀ b ∈ builds, b.build.finished = true ∧ b.copr.storage = .backend) →
        action.Deletes builds → ∀ (env : Deletion) (before : Stored),
          (action.run env before).1 = .success → action.Gone env (action.run env before).2) ∧
    ¬ ∀ (builds : List StoredBuild) (action : DeleteAction),
      (∀ b ∈ builds, b.build.finished = true ∧ b.copr.storage = .pulp) →
        action.Deletes builds → ∀ (env : Deletion) (before : Stored),
          (action.run env before).1 = .success → action.Gone env (action.run env before).2 := by
  constructor
  · intro claimed
    have finished : ∀ b ∈ [Sample.failedBuild], b.build.finished = true ∧
        b.copr.storage = .backend := by
      intro b member
      obtain rfl := List.mem_singleton.mp member
      exact ⟨rfl, rfl⟩
    exact Sample.failedBuild_left.2 (claimed _ _ finished (Or.inr ⟨_, rfl, rfl⟩) _ _
      Sample.failedBuild_left.1)
  · intro claimed
    have finished : ∀ b ∈ [Sample.pullRequest], b.build.finished = true ∧
        b.copr.storage = .pulp := by
      intro b member
      obtain rfl := List.mem_singleton.mp member
      exact ⟨rfl, rfl⟩
    exact Sample.pullRequest_left.2 (claimed _ _ finished (Or.inr ⟨_, rfl, rfl⟩) _ _
      Sample.pullRequest_left.1)

/-- A build in the main directory of a Pulp project is deleted with its directory and its content
unit. -/
theorem deleted_builds_gone_iff_hello :
    ((sendDeleteBuild (Sample.builtIn "project")).run Sample.smooth Sample.everything).1 =
        .success ∧
      (sendDeleteBuild (Sample.builtIn "project")).Gone Sample.smooth
        ((sendDeleteBuild (Sample.builtIn "project")).run Sample.smooth Sample.everything).2 := by
  have ran := DeleteAction.run_success.mpr ⟨Sample.builtIn_unhindered "project", rfl⟩
  have success := congrArg Prod.fst ran
  refine ⟨success, (deleted_builds_gone_iff [Sample.builtIn "project"] _ (Or.inr ⟨_, rfl, rfl⟩)
    Sample.smooth Sample.everything).mpr (fun _ => ⟨?_, ?_⟩) success⟩
  · rintro b member chroot subdir ⟨nonempty, ⟨_, source⟩ | ⟨c, listed, name, _⟩⟩
    · obtain rfl := List.mem_singleton.mp member
      exact absurd source nonempty
    · exact Or.inr (Or.inl ⟨name ▸ c.name_ne_srpmBuilds, fun _ => rfl, fun _ => by decide⟩)
  · rintro _ b member chroot subdir ⟨nonempty, ⟨_, source⟩ | ⟨c, listed, name, _⟩⟩ unit labelled _ _
    · obtain rfl := List.mem_singleton.mp member
      exact absurd source nonempty
    · obtain rfl := List.mem_singleton.mp member
      obtain rfl := List.mem_singleton.mp listed
      subst name
      have updated : (sendDeleteBuild (Sample.builtIn "project")).updates Sample.smooth
          ((sendDeleteBuild (Sample.builtIn "project")).path "project" "fedora-42-x86_64") =
          [SetUpdates.merged [(deleteContent ["hello"] []).update]] := by
        rw [DeleteAction.updates, Sample.builtIn_items, List.flatMap_singleton,
          PulpStorage.updates, if_pos (by decide)]
        show (PulpStorage.pages Sample.smooth [2]).map _ = _
        rw [Sample.builtIn_pages]
        rfl
      show SetUpdates.LeftOut ((sendDeleteBuild (Sample.builtIn "project")).updates _
        ((sendDeleteBuild (Sample.builtIn "project")).path "project" "fedora-42-x86_64")) _ _
      rw [updated]
      have hello : unit = "hello" := List.mem_singleton.mp labelled
      subst hello
      refine Or.inr ⟨[], _, [], rfl, ?_, ?_⟩ <;>
        simp [SetUpdates.merged, SetUpdates.adds, SetUpdates.removes, SetUpdates.conflicts,
          ContentTask.update, deleteContent]

end Copr
