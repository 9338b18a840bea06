import Copr.Lib.Runs
import Copr.Backend.PulpDistributions
import Copr.Backend.ProjectActions
import Copr.Backend.ExpiredDirs

/-!
# What the directories of a project in Pulp serve

`PulpStorage.init_project` of `copr_backend/storage.py` with what it changes in Pulp, and the
createrepo actions of the frontend that call it, one action after another while builds are
published. Here is when the public distribution of each directory serves the packages of that
directory.
-/

namespace Copr

open Runs Tables Text

/-- Which requests of one `init_project` call are answered. -/
structure PulpRequests where
  /-- `create_repository`, also when the repository was there before. -/
  createRepository : Bool
  /-- `get_repository`. -/
  getRepository : Bool
  /-- `create_distribution`, also when the distribution was there before. -/
  createDistribution : Bool
  /-- `wait_for_repo`. -/
  waitForRepo : Bool
  /-- `get_publication`. -/
  getPublication : Bool
  /-- `get_distribution`. -/
  getDistribution : Bool
  /-- `update_distribution`. -/
  updateDistribution : Bool
  /-- `publish`. -/
  publish : Bool
  /-- `PulpHTTPRedirect.add`. -/
  redirect : Bool
  deriving DecidableEq, Repr

/-- The target is a publication. -/
def Target.isPublication : Target → Bool
  | .publication _ _ => true
  | _ => false

namespace PulpStorage

variable (st : Storage) (dirname chroot : String) (reason : Option CreaterepoReason)
  (req : PulpRequests)

/-- `_get_distribution`: the name of what is asked for is found. -/
def getDistribution (name : DistributionName) (t : PulpTables) : Option Distribution :=
  if req.getDistribution then t.distributions.find name else none

/-- `get_publication`. -/
def getPublication (path : ChrootPath) (t : PulpTables) : Option Target :=
  if req.getPublication then t.newestPublication path else none

/-- The distribution that `init_project` updates, and where it points to then. It raises when this
is `none`. -/
def pointing (t : PulpTables) : Option (Option (DistributionName × Target)) :=
  let path := st.repositoryName chroot (some dirname)
  if st.devel then
    if req.waitForRepo then
      (getPublication req path t).bind fun publication =>
        (getDistribution req ⟨path, false⟩ t).bind fun x =>
          if req.updateDistribution then some (some (x.name, publication)) else none
    else none
  else if reason = some .manualCreaterepoToggle then
    -- The name of the project directory is not passed on.
    (getDistribution req ⟨st.repositoryName chroot, false⟩ t).bind fun x =>
      if req.updateDistribution then some (some (x.name, .repository path)) else none
  else if reason = some .manualCreaterepoEvent then
    (getPublication req path t).bind fun publication =>
      -- Here neither.
      (getDistribution req ⟨st.repositoryName chroot, false⟩ t).bind fun x =>
        if !x.target.isPublication then some none
        else if req.updateDistribution then some (some (x.name, publication)) else none
  else some none

/-- The update, if there is one. -/
def pointed (t : PulpTables) : Option (DistributionName × Target) → PulpTables
  | none => t
  | some (name, target) => t.updateDistribution name target

/-- The tables once the repository and the distribution exist. -/
def created (t : PulpTables) : PulpTables :=
  let path := st.repositoryName chroot (some dirname)
  (t.createRepository path).createDistribution ⟨⟨path, st.devel⟩, .repository path⟩

/-- `init_project` with what it changes. -/
def initTables (t : PulpTables) : Returned × PulpTables :=
  let path := st.repositoryName chroot (some dirname)
  if !req.createRepository then (.raised, t)
  else if !(req.getRepository && req.createDistribution) then (.raised, t.createRepository path)
  else
    let t := created st dirname chroot t
    match pointing st dirname chroot reason req t with
    | none => (.raised, t)
    | some update =>
      let t := pointed t update
      if !req.publish then (.raised, t)
      else (if req.redirect then .nothing else .raised, t.publish path)

/-- The call updates the distribution of another directory: that of the main directory, when a
createrepo mode is toggled off or when repositories are regenerated in the manual mode. -/
def Astray (t : PulpTables) : Prop :=
  st.devel = false ∧ st.repositoryName chroot (some dirname) ≠ st.repositoryName chroot ∧
    (reason = some .manualCreaterepoToggle ∨ reason = some .manualCreaterepoEvent ∧
      (t.distributions.find ⟨st.repositoryName chroot, false⟩).any (·.target.isPublication) = true)

instance (t : PulpTables) : Decidable (Astray st dirname chroot reason t) :=
  inferInstanceAs (Decidable (_ ∧ _))

end PulpStorage

/-- Nothing but the public distribution of a repository and its sibling has changed, and the former
serves the repository unless it is as it was. -/
structure KeepsOthers (path : ChrootPath) (before after : PulpTables) : Prop where
  /-- The distributions with other names. -/
  others : ∀ name, name.path ≠ path → after.distributions.find name = before.distributions.find name
  /-- The distributions of the repository. -/
  own : ∀ name x, name.path = path → after.distributions.find name = some x →
    x.target.source = some path ∨ before.distributions.find name = some x

namespace KeepsOthers

variable {path : ChrootPath} {t u v : PulpTables}

/-- Tables with the same distributions keep those of the other paths. -/
theorem of_eq (same : u.distributions = t.distributions) : KeepsOthers path t u where
  others name _ := by rw [same]
  own name x _ found := by
    rw [same] at found
    exact Or.inr found

/-- Two changes that keep the distributions of the other paths keep them together. -/
theorem trans (first : KeepsOthers path t u) (second : KeepsOthers path u v) :
    KeepsOthers path t v where
  others name other := (second.others name other).trans (first.others name other)
  own name x same found := by
    rcases second.own name x same found with serves | before
    · exact Or.inl serves
    · exact first.own name x same before

/-- A distribution that serves the repository is created. -/
theorem create {devel : Bool} :
    KeepsOthers path t (t.createDistribution ⟨⟨path, devel⟩, .repository path⟩) where
  others name other := by
    have apart : (⟨path, devel⟩ : DistributionName) ≠ name := by
      rintro rfl
      exact other rfl
    rw [PulpTables.find_createDistribution, if_neg apart, Option.or_none]
  own name x _ found := by
    rw [PulpTables.find_createDistribution] at found
    rcases Option.or_eq_some_iff.mp found with before | ⟨-, created⟩
    · exact Or.inr before
    · left
      have same := (Option.ite_none_right_eq_some.mp created).2
      cases same
      rfl

/-- A distribution of the repository is made to serve it. -/
theorem update {devel : Bool} {target : Target} (serves : target.source = some path) :
    KeepsOthers path t (t.updateDistribution ⟨path, devel⟩ target) where
  others name other := by
    rw [PulpTables.find_updateDistribution]
    cases found : t.distributions.find name with
    | none => rfl
    | some y =>
      have named := (Table.find_eq_some.mp found).2
      have apart : y.name ≠ ⟨path, devel⟩ := by
        rw [named]
        rintro rfl
        exact other rfl
      rw [Option.map_some, if_neg apart]
  own name x _ found := by
    rw [PulpTables.find_updateDistribution] at found
    obtain ⟨y, before, same⟩ := Option.map_eq_some_iff.mp found
    split at same
    · left
      rw [← same]
      exact serves
    · right
      rw [before, same]

end KeepsOthers

namespace PulpStorage

variable {st : Storage} {dirname chroot : String} {reason : Option CreaterepoReason}
  {req : PulpRequests} {t : PulpTables}

/-- The distribution that is found has the name. -/
theorem getDistribution_name {name : DistributionName} {x : Distribution}
    (found : getDistribution req name t = some x) :
    x.name = name ∧ t.distributions.find name = some x := by
  have there := (Option.ite_none_right_eq_some.mp found).2
  exact ⟨(Table.find_eq_some.mp there).2, there⟩

/-- The publication that is found is one of the repository. -/
theorem getPublication_source {path : ChrootPath} {target : Target}
    (found : getPublication req path t = some target) : target.source = some path :=
  PulpTables.source_newestPublication (Option.ite_none_right_eq_some.mp found).2

/-- What is updated is the public distribution of the repository, or the call goes astray. -/
theorem pointing_spec {name : DistributionName} {target : Target}
    (points : pointing st dirname chroot reason req t = some (some (name, target))) :
    target.source = some (st.repositoryName chroot (some dirname)) ∧
      (name = ⟨st.repositoryName chroot (some dirname), false⟩ ∨
        name = ⟨st.repositoryName chroot, false⟩ ∧ st.devel = false ∧
          (reason = some .manualCreaterepoToggle ∨ reason = some .manualCreaterepoEvent ∧
            (t.distributions.find name).any (·.target.isPublication) = true)) := by
  simp only [pointing] at points
  split at points
  · obtain ⟨-, points⟩ := Option.ite_none_right_eq_some.mp points
    obtain ⟨publication, published, points⟩ := Option.bind_eq_some_iff.mp points
    obtain ⟨x, found, points⟩ := Option.bind_eq_some_iff.mp points
    have same := (Option.ite_none_right_eq_some.mp points).2
    cases same
    exact ⟨getPublication_source published, Or.inl (getDistribution_name found).1⟩
  · rename_i plain
    rw [Bool.not_eq_true] at plain
    split at points
    · rename_i toggle
      obtain ⟨x, found, points⟩ := Option.bind_eq_some_iff.mp points
      have same := (Option.ite_none_right_eq_some.mp points).2
      cases same
      exact ⟨rfl, Or.inr ⟨(getDistribution_name found).1, plain, Or.inl toggle⟩⟩
    · split at points
      · rename_i event
        obtain ⟨publication, published, points⟩ := Option.bind_eq_some_iff.mp points
        obtain ⟨x, found, points⟩ := Option.bind_eq_some_iff.mp points
        split at points
        · cases points
        · rename_i manual
          have same := (Option.ite_none_right_eq_some.mp points).2
          cases same
          obtain ⟨named, there⟩ := getDistribution_name found
          rw [Bool.not_eq_true', Bool.not_eq_false] at manual
          refine ⟨getPublication_source published, Or.inr ⟨named, plain, Or.inr ⟨event, ?_⟩⟩⟩
          rw [named, there]
          exact manual
      · cases points

/-- The answer to a request that creates something, when it was there before or not. -/
def answer (answered there : Bool) : Creation :=
  if answered then if there then .notUnique else .created else .failed

/-- It makes no difference whether it was there before. -/
theorem accepted_answer (answered there : Bool) : (answer answered there).accepted = answered := by
  cases answered <;> cases there <;> rfl

/-- How the steps of the call end, by what is in Pulp. -/
def calls (st : Storage) (dirname chroot : String) (req : PulpRequests) (t : PulpTables) :
    InitCalls :=
  let path := st.repositoryName chroot (some dirname)
  let asked := if st.devel then path else st.repositoryName chroot
  let found := getDistribution req ⟨asked, false⟩ (created st dirname chroot t)
  { makedirs := true
    coprRepo := true
    createRepository := answer req.createRepository (t.repositories path).isSome
    getRepository := req.getRepository
    createDistribution :=
      answer req.createDistribution (t.distributions.find ⟨path, st.devel⟩).isSome
    waitForRepo := req.waitForRepo
    getPublication := (getPublication req path (created st dirname chroot t)).isSome
    getDistribution := found.isSome
    usesPublication := found.any (·.target.isPublication)
    updateDistribution := req.updateDistribution
    publish := req.publish
    redirect := req.redirect }

/-- The call goes on to the publication when its steps let it. -/
theorem prepared_calls : prepared st.devel reason (calls st dirname chroot req t) =
    (req.createRepository && req.getRepository && req.createDistribution &&
      (pointing st dirname chroot reason req (created st dirname chroot t)).isSome) := by
  simp only [prepared, pointing, calls, accepted_answer]
  congr 1
  cases st.devel with
  | true =>
    simp only [if_true]
    cases req.waitForRepo <;>
      cases getPublication req (st.repositoryName chroot (some dirname))
        (created st dirname chroot t) <;>
      cases getDistribution req ⟨st.repositoryName chroot (some dirname), false⟩
        (created st dirname chroot t) <;>
      cases req.updateDistribution <;> rfl
  | false =>
    simp only [Bool.false_eq_true, if_false]
    split
    · cases getDistribution req ⟨st.repositoryName chroot, false⟩ (created st dirname chroot t) <;>
        cases req.updateDistribution <;> rfl
    · split
      · cases getPublication req (st.repositoryName chroot (some dirname))
          (created st dirname chroot t) with
        | none => rfl
        | some publication =>
          cases getDistribution req ⟨st.repositoryName chroot, false⟩
              (created st dirname chroot t) with
          | none => rfl
          | some x =>
            cases manual : x.target.isPublication <;> cases req.updateDistribution <;>
              simp [manual]
      · rfl

/-- The call returns as its steps let it. -/
theorem initTables_returned : (initTables st dirname chroot reason req t).1 =
    initProject st.devel reason (calls st dirname chroot req t) := by
  rw [initProject, prepared_calls]
  simp only [initTables, calls]
  cases req.createRepository <;> cases req.getRepository <;> cases req.createDistribution <;>
    try rfl
  cases pointing st dirname chroot reason req (created st dirname chroot t) with
  | none => rfl
  | some update =>
    have either : req.publish = true ∨ req.publish = false := by
      cases req.publish <;> simp
    rcases either with published | unpublished
    · simp [published]
    · simp [unpublished]

/-- Creating the repository and the distribution changes nothing else. -/
theorem created_keeps : KeepsOthers (st.repositoryName chroot (some dirname)) t
    (created st dirname chroot t) := by
  have repository : KeepsOthers (st.repositoryName chroot (some dirname)) t
      (t.createRepository (st.repositoryName chroot (some dirname))) := .of_eq rfl
  exact repository.trans .create

/-- The update of a call that does not go astray changes nothing else. -/
theorem pointed_keeps {update : Option (DistributionName × Target)}
    (aside : ¬ Astray st dirname chroot reason t)
    (points : pointing st dirname chroot reason req (created st dirname chroot t) = some update) :
    KeepsOthers (st.repositoryName chroot (some dirname)) t
      (pointed (created st dirname chroot t) update) := by
  cases update with
  | none => exact created_keeps
  | some update =>
    obtain ⟨name, target⟩ := update
    obtain ⟨serves, own | ⟨main, plain, cause⟩⟩ := pointing_spec points
    · subst own
      exact created_keeps.trans (.update serves)
    · by_cases same : st.repositoryName chroot (some dirname) = st.repositoryName chroot
      · rw [← same] at main
        subst main
        exact created_keeps.trans (.update serves)
      · have other : name.path ≠ st.repositoryName chroot (some dirname) := by
          rw [main]
          exact Ne.symm same
        rw [created_keeps.others name other, main] at cause
        exact absurd ⟨plain, same, cause⟩ aside

/-- A call that does not go astray changes no distribution of another directory or chroot. -/
theorem initTables_keeps (aside : ¬ Astray st dirname chroot reason t) :
    KeepsOthers (st.repositoryName chroot (some dirname)) t
      (initTables st dirname chroot reason req t).2 := by
  simp only [initTables]
  split
  · exact .of_eq rfl
  · split
    · exact .of_eq rfl
    · split
      · exact created_keeps
      · rename_i update points
        have pointed := pointed_keeps aside points
        split
        · exact pointed
        · exact pointed.trans (.of_eq rfl)

/-- A mode that is toggled off leaves the public distribution of the repository pointing to it. -/
theorem initTables_toggled (aside : ¬ Astray st dirname chroot reason t) (plain : st.devel = false)
    (toggle : reason = some .manualCreaterepoToggle)
    (ended : (initTables st dirname chroot reason req t).1 ≠ .raised) :
    (initTables st dirname chroot reason req t).2.distributions.find
        ⟨st.repositoryName chroot (some dirname), false⟩ =
      some ⟨⟨st.repositoryName chroot (some dirname), false⟩,
        .repository (st.repositoryName chroot (some dirname))⟩ := by
  have same : st.repositoryName chroot (some dirname) = st.repositoryName chroot := by
    by_contra other
    exact aside ⟨plain, other, Or.inl toggle⟩
  simp only [initTables] at ended ⊢
  split at ended
  · exact absurd rfl ended
  · split at ended
    · exact absurd rfl ended
    · rename_i first second
      rw [if_neg first, if_neg second]
      split at ended
      · exact absurd rfl ended
      · rename_i update points
        simp only [pointing, plain, toggle, Bool.false_eq_true, if_false, if_true] at points
        obtain ⟨x, found, points⟩ := Option.bind_eq_some_iff.mp points
        have chosen := (Option.ite_none_right_eq_some.mp points).2
        cases chosen
        obtain ⟨named, there⟩ := getDistribution_name found
        rw [← same] at named there
        split at ended
        · exact absurd rfl ended
        · rename_i published
          rw [if_neg published]
          show ((pointed _ _).distributions.find _) = _
          rw [pointed, PulpTables.find_updateDistribution, there, Option.map_some, if_pos rfl,
            named]

/-- A call that goes astray makes the main directory serve the packages of the other one. -/
theorem initTables_astray (astray : Astray st dirname chroot reason t)
    (ended : (initTables st dirname chroot reason req t).1 ≠ .raised) :
    ∃ x, (initTables st dirname chroot reason req t).2.distributions.find
        ⟨st.repositoryName chroot, false⟩ = some x ∧
      x.target.source = some (st.repositoryName chroot (some dirname)) := by
  obtain ⟨plain, other, cause⟩ := astray
  have kept : KeepsOthers (st.repositoryName chroot (some dirname)) t
      (created st dirname chroot t) := created_keeps
  have same := kept.others ⟨st.repositoryName chroot, false⟩ (Ne.symm other)
  simp only [initTables] at ended ⊢
  split at ended
  · exact absurd rfl ended
  · split at ended
    · exact absurd rfl ended
    · rename_i first second
      rw [if_neg first, if_neg second]
      split at ended
      · exact absurd rfl ended
      · rename_i update points
        split at ended
        · exact absurd rfl ended
        · rename_i published
          rw [if_neg published]
          have chosen : ∃ x target, update = some (⟨st.repositoryName chroot, false⟩, target) ∧
              target.source = some (st.repositoryName chroot (some dirname)) ∧
              (created st dirname chroot t).distributions.find ⟨st.repositoryName chroot, false⟩ =
                some x := by
            simp only [pointing, plain, Bool.false_eq_true, if_false] at points
            rcases cause with toggle | ⟨event, manual⟩
            · simp only [toggle, if_true] at points
              obtain ⟨x, found, points⟩ := Option.bind_eq_some_iff.mp points
              obtain ⟨named, there⟩ := getDistribution_name found
              have chosen := (Option.ite_none_right_eq_some.mp points).2
              cases chosen
              rw [named]
              exact ⟨x, _, rfl, rfl, there⟩
            · simp only [event, Option.some.injEq, reduceCtorEq, if_false, if_true] at points
              obtain ⟨publication, newest, points⟩ := Option.bind_eq_some_iff.mp points
              obtain ⟨x, found, points⟩ := Option.bind_eq_some_iff.mp points
              obtain ⟨named, there⟩ := getDistribution_name found
              rw [← same, there, Option.any_some] at manual
              rw [manual, Bool.not_true, if_neg Bool.false_ne_true] at points
              have chosen := (Option.ite_none_right_eq_some.mp points).2
              cases chosen
              rw [named]
              exact ⟨x, _, rfl, getPublication_source newest, there⟩
          obtain ⟨x, target, rfl, serves, there⟩ := chosen
          refine ⟨{ x with target := target }, ?_, serves⟩
          show ((pointed _ _).distributions.find _) = _
          rw [pointed, PulpTables.find_updateDistribution, there, Option.map_some,
            if_pos (Table.find_eq_some.mp there).2]

end PulpStorage

/-! ## Actions of the frontend and how they are handled -/

/-- A createrepo action with what the storage object is made of. -/
structure CreaterepoAction extends CreaterepoData where
  /-- `projectname`. -/
  projectname : String
  /-- `appstream`. -/
  appstream : Bool
  deriving DecidableEq, Repr

/-- The storage object of the action. -/
def CreaterepoAction.storageObject (a : CreaterepoAction) : Storage where
  owner := a.ownername
  project := a.projectname
  appstream := a.appstream
  devel := a.devel

/-- The repositories that the action calls `init_project` for, in their order. -/
def CreaterepoAction.paths (a : CreaterepoAction) : List ChrootPath :=
  a.projectDirnames.flatMap fun dirname =>
    a.chroots.map fun chroot => ⟨a.ownername, dirname, chroot⟩

/-- The manual mode is switched off by the action. -/
def CreaterepoAction.backToAutomatic (a : CreaterepoAction) : Bool :=
  decide (a.reason = some .manualCreaterepoToggle) && !a.devel

/-- A project in Pulp, on the frontend. -/
structure ServedProject (chars : CharClasses) where
  /-- The project. -/
  copr : NamedCopr chars
  /-- The names of its directories. -/
  dirs : List String
  /-- Its active chroots. -/
  chroots : List String
  /-- `auto_createrepo`. -/
  autoCreaterepo : Bool
  /-- `appstream`. -/
  appstream : Bool

namespace ServedProject

variable {chars : CharClasses} (p : ServedProject chars)

/-- `send_createrepo`; `none` when it raises. -/
def sendCreaterepo (dirnames : List String) (chroots : Option (List String)) (devel : Option Bool)
    (reason : Option CreaterepoReason) : Option (List CreaterepoAction) :=
  let dirnames := if dirnames = [] then p.dirs else dirnames
  if dirnames.all (· ∈ p.dirs) then
    let runIn := (devel.map ([·])).getD (if p.autoCreaterepo then [false] else [false, true])
    some (runIn.map fun devel =>
      { ownername := p.copr.ownerName
        projectDirnames := dirnames
        chroots := chroots.getD p.chroots
        devel := devel
        storage := .pulp
        reason := reason
        projectname := p.copr.name
        appstream := p.appstream })
  else none

end ServedProject

/-- An action that is being handled. -/
structure Handling where
  /-- The action. -/
  action : CreaterepoAction
  /-- The repositories that are done. -/
  done : List ChrootPath
  /-- The repositories that are still to do. -/
  todo : List ChrootPath
  deriving DecidableEq, Repr

/-- A project with its createrepo actions and with Pulp. -/
structure ServedWorld (chars : CharClasses) where
  /-- The project on the frontend. -/
  project : ServedProject chars
  /-- The actions that were sent. One may be handled again when a worker has died. -/
  sent : List CreaterepoAction
  /-- The action that is handled, the only one at a time. -/
  handled : Option Handling
  /-- The tables of Pulp. -/
  pulp : PulpTables

/-- What happens. -/
inductive ServedEvent
  /-- A directory is created. -/
  | newDir (dirname : String)
  /-- Chroots are enabled. -/
  | enable (chroots : List String)
  /-- `auto_createrepo` is set. -/
  | setAutoCreaterepo (value : Bool)
  /-- The repositories are regenerated by hand. -/
  | regenerate
  /-- An action is started. -/
  | start (index : Nat)
  /-- The next call of `init_project`. -/
  | initProject (req : PulpRequests)
  /-- The action has ended. -/
  | finish
  /-- A build adds packages to a repository, and publishes them unless something fails. -/
  | build (path : ChrootPath) (packages : List String) (published : Bool)
  deriving DecidableEq, Repr

namespace ServedWorld

variable {chars : CharClasses}

/-- A new project. -/
def newProject (copr : NamedCopr chars) (chroots : List String) (autoCreaterepo appstream : Bool)
    (pulp : PulpTables) : ServedWorld chars :=
  let project : ServedProject chars := ⟨copr, [copr.name], chroots, autoCreaterepo, appstream⟩
  { project := project
    sent := (project.sendCreaterepo [] none none (some .newChroot)).getD []
    handled := none
    pulp := pulp }

/-- Actions are sent for a project. -/
def send (w : ServedWorld chars) (project : ServedProject chars)
    (actions : Option (List CreaterepoAction)) : Option (ServedWorld chars) :=
  actions.map fun actions => { w with project := project, sent := w.sent ++ actions }

/-- One event; `none` when it cannot happen. Createrepo actions are handled one after another, each
to its end before the next is started, and only builds come between their calls. This is an
assumption: the action dispatcher may handle several actions of a project at once. -/
def step (w : ServedWorld chars) : ServedEvent → Option (ServedWorld chars)
  | .newDir dirname =>
    if Accepted chars w.project.copr.name dirname ∧ dirname ∉ w.project.dirs then
      let project := { w.project with dirs := w.project.dirs ++ [dirname] }
      w.send project (project.sendCreaterepo [dirname] none none (some .newCoprdir))
    else none
  | .enable chroots =>
    if chroots = [] then none
    else
      let project := { w.project with chroots := w.project.chroots ++ chroots }
      w.send project (project.sendCreaterepo [] (some chroots) none (some .newChroot))
  | .setAutoCreaterepo value =>
    if value = w.project.autoCreaterepo then none
    else
      let project := { w.project with autoCreaterepo := value }
      w.send project (project.sendCreaterepo [] none (some !value) (some .manualCreaterepoToggle))
  | .regenerate =>
    w.send w.project
      (w.project.sendCreaterepo [] none (some false) (some .manualCreaterepoEvent))
  | .start index =>
    if w.handled.isNone then
      (w.sent[index]?).map fun a => { w with handled := some ⟨a, [], a.paths⟩ }
    else none
  | .initProject req =>
    match w.handled with
    | some ⟨a, done, path :: todo⟩ =>
      let (returned, pulp) :=
        PulpStorage.initTables a.storageObject path.dirname path.chroot a.reason req w.pulp
      some { w with
        handled := if returned = .raised then none else some ⟨a, done ++ [path], todo⟩
        pulp := pulp }
    | _ => none
  | .finish =>
    match w.handled with
    | some ⟨_, _, []⟩ => some { w with handled := none }
    | _ => none
  | .build path packages published =>
    let pulp := w.pulp.addContent path packages
    some { w with pulp := if published then pulp.publish path else pulp }

/-- The next call does not go astray. -/
def onCourse (w : ServedWorld chars) : ServedEvent → Bool
  | .initProject _ =>
    match w.handled with
    | some ⟨a, _, path :: _⟩ => decide
      (¬ PulpStorage.Astray a.storageObject path.dirname path.chroot a.reason w.pulp)
    | _ => true
  | _ => true

/-- A name that a directory of the project may have. -/
def IsDir (copr : NamedCopr chars) (dirname : String) : Prop :=
  dirname = copr.name ∨ startswith dirname (copr.name ++ ":") = true

/-- The public distributions of the project serve their own repositories. -/
def ServesOwn (copr : NamedCopr chars) (t : PulpTables) : Prop :=
  ∀ x ∈ t.distributions.rows, x.name.devel = false → x.name.path.owner = copr.ownerName →
    IsDir copr x.name.path.dirname → x.target.source = some x.name.path

/-- When an action that switches to the automatic mode has ended, the public distributions of its
directories and chroots point to their repositories. -/
def Restored (w : ServedWorld chars) : Prop :=
  ∀ h, w.handled = some h → h.todo = [] → h.action.backToAutomatic = true →
    ∀ dirname ∈ h.action.projectDirnames, ∀ chroot ∈ h.action.chroots,
      w.pulp.distributions.find ⟨⟨w.project.copr.ownerName, dirname, chroot⟩, false⟩ =
        some ⟨⟨⟨w.project.copr.ownerName, dirname, chroot⟩, false⟩,
          .repository ⟨w.project.copr.ownerName, dirname, chroot⟩⟩

/-- An event that is a call of `init_project` changes no distribution of another directory or
chroot. -/
def Apart (w : ServedWorld chars) (e : ServedEvent) : Prop :=
  ∀ req, e = .initProject req → ∀ after, w.step e = some after →
    ∀ h path todo, w.handled = some h → h.todo = path :: todo →
      ∀ name, name.path ≠ path →
        after.pulp.distributions.find name = w.pulp.distributions.find name

/-! ## What holds in every state -/

/-- The action is one for directories of the project. -/
structure Belongs (copr : NamedCopr chars) (a : CreaterepoAction) : Prop where
  /-- The owner. -/
  owner : a.ownername = copr.ownerName
  /-- The project. -/
  project : a.projectname = copr.name
  /-- The directories. -/
  dirs : ∀ dirname ∈ a.projectDirnames, IsDir copr dirname

/-- An action that is handled: what it has done so far. -/
structure OnTheWay (copr : NamedCopr chars) (t : PulpTables) (h : Handling) : Prop where
  /-- The action. -/
  belongs : Belongs copr h.action
  /-- What is done and what is to do. -/
  parts : h.done ++ h.todo = h.action.paths
  /-- What is restored so far. -/
  restored : h.action.backToAutomatic = true → ∀ path ∈ h.done,
    t.distributions.find ⟨path, false⟩ = some ⟨⟨path, false⟩, .repository path⟩

/-- What holds in every state. -/
structure Sound (w : ServedWorld chars) : Prop where
  /-- The public distributions. -/
  own : ServesOwn w.project.copr w.pulp
  /-- The directories. -/
  dirs : ∀ dirname ∈ w.project.dirs, IsDir w.project.copr dirname
  /-- The actions. -/
  sent : ∀ a ∈ w.sent, Belongs w.project.copr a
  /-- The action that is handled. -/
  handled : ∀ h, w.handled = some h → OnTheWay w.project.copr w.pulp h

variable {copr : NamedCopr chars} {w after : ServedWorld chars} {t u : PulpTables}

/-- No directory has an empty name. -/
theorem IsDir.ne {dirname : String} (dir : IsDir copr dirname) : dirname ≠ "" := by
  rcases dir with rfl | starts
  · intro empty
    have named := copr.named
    rw [empty] at named
    contradiction
  · obtain ⟨rest, same⟩ := startswith_iff.mp starts
    intro empty
    rw [empty, String.toList_append] at same
    simp at same

/-- The calls of an action of the project are for its directories, under their own names. -/
theorem Belongs.path {a : CreaterepoAction} {path : ChrootPath} (belongs : Belongs copr a)
    (listed : path ∈ a.paths) : path.owner = copr.ownerName ∧ IsDir copr path.dirname ∧
      a.storageObject.repositoryName path.chroot (some path.dirname) = path := by
  obtain ⟨dirname, dir, chroots⟩ := List.mem_flatMap.mp listed
  obtain ⟨chroot, -, rfl⟩ := List.mem_map.mp chroots
  have named := belongs.dirs dirname dir
  refine ⟨belongs.owner, named, ?_⟩
  simp only [Storage.repositoryName, CreaterepoAction.storageObject, Option.getD_some]
  rw [if_neg named.ne]

/-- What changes nothing else keeps the public distributions in order. -/
theorem ServesOwn.keeps {path : ChrootPath} (own : ServesOwn copr t)
    (kept : KeepsOthers path t u) : ServesOwn copr u := by
  intro x there plain owner dir
  have found := Table.find_of_mem there
  by_cases same : x.name.path = path
  · rcases kept.own x.name x same found with serves | before
    · rw [same]
      exact serves
    · exact own x (Table.find_eq_some.mp before).1 plain owner dir
  · rw [kept.others x.name same] at found
    exact own x (Table.find_eq_some.mp found).1 plain owner dir

/-- Nothing is sent but actions for the project. -/
theorem belongs_of_send {p : ServedProject chars} {dirnames : List String}
    {chroots : Option (List String)} {devel : Option Bool} {reason : Option CreaterepoReason}
    {actions : List CreaterepoAction} {a : CreaterepoAction}
    (dirs : ∀ dirname ∈ p.dirs, IsDir p.copr dirname)
    (sent : p.sendCreaterepo dirnames chroots devel reason = some actions) (listed : a ∈ actions) :
    Belongs p.copr a := by
  obtain ⟨known, same⟩ := Option.ite_none_right_eq_some.mp sent
  cases same
  obtain ⟨devel, -, rfl⟩ := List.mem_map.mp listed
  constructor
  · rfl
  · rfl
  · intro dirname named
    have member := List.all_eq_true.mp known dirname named
    exact dirs dirname (of_decide_eq_true member)

/-- A project to which actions are sent stays sound. -/
theorem Sound.send {project : ServedProject chars} {dirnames : List String}
    {chroots : Option (List String)} {devel : Option Bool} {reason : Option CreaterepoReason}
    (sound : w.Sound) (same : project.copr = w.project.copr)
    (dirs : ∀ dirname ∈ project.dirs, IsDir project.copr dirname)
    (sent : w.send project (project.sendCreaterepo dirnames chroots devel reason) = some after) :
    after.Sound := by
  obtain ⟨actions, made, rfl⟩ := Option.map_eq_some_iff.mp sent
  constructor
  · show ServesOwn project.copr w.pulp
    rw [same]
    exact sound.own
  · exact dirs
  · intro a listed
    rcases List.mem_append.mp listed with before | new
    · show Belongs project.copr a
      rw [same]
      exact sound.sent a before
    · exact belongs_of_send dirs made new
  · show ∀ h, w.handled = some h → OnTheWay project.copr w.pulp h
    rw [same]
    exact sound.handled

/-- A call that does not go astray keeps what the action has done. -/
theorem Sound.initProject {a : CreaterepoAction} {done todo : List ChrootPath} {path : ChrootPath}
    {req : PulpRequests} (sound : w.Sound) (handled : w.handled = some ⟨a, done, path :: todo⟩)
    (aside : ¬ PulpStorage.Astray a.storageObject path.dirname path.chroot a.reason w.pulp) :
    KeepsOthers path w.pulp (PulpStorage.initTables a.storageObject path.dirname path.chroot
        a.reason req w.pulp).2 ∧
      ((PulpStorage.initTables a.storageObject path.dirname path.chroot a.reason req w.pulp).1 ≠
          .raised →
        OnTheWay w.project.copr (PulpStorage.initTables a.storageObject path.dirname path.chroot
          a.reason req w.pulp).2 ⟨a, done ++ [path], todo⟩) := by
  have way := sound.handled _ handled
  have listed : path ∈ a.paths := by
    rw [← way.parts]
    exact List.mem_append_right _ List.mem_cons_self
  obtain ⟨-, -, named⟩ := way.belongs.path listed
  have kept : KeepsOthers (a.storageObject.repositoryName path.chroot (some path.dirname)) w.pulp
      (PulpStorage.initTables a.storageObject path.dirname path.chroot a.reason req w.pulp).2 :=
    PulpStorage.initTables_keeps aside
  rw [named] at kept
  refine ⟨kept, fun ended => ⟨way.belongs, ?_, ?_⟩⟩
  · have parts := way.parts
    rw [← List.singleton_append, ← List.append_assoc] at parts
    exact parts
  · intro back other member
    have mode := back
    rw [CreaterepoAction.backToAutomatic, Bool.and_eq_true, decide_eq_true_eq,
      Bool.not_eq_true'] at mode
    have here := PulpStorage.initTables_toggled aside mode.2 mode.1 ended
    rw [named] at here
    by_cases same : other = path
    · rw [same]
      exact here
    · rw [kept.others ⟨other, false⟩ same]
      rcases List.mem_append.mp member with before | now
      · exact way.restored back other before
      · exact absurd (List.mem_singleton.mp now) same

/-- A call of `init_project` is the next one of the action that is handled. -/
theorem step_initProject {req : PulpRequests} (stepped : w.step (.initProject req) = some after) :
    ∃ a done path todo, w.handled = some ⟨a, done, path :: todo⟩ ∧
      after = { w with
        handled := if (PulpStorage.initTables a.storageObject path.dirname path.chroot a.reason req
          w.pulp).1 = .raised then none else some ⟨a, done ++ [path], todo⟩
        pulp := (PulpStorage.initTables a.storageObject path.dirname path.chroot a.reason req
          w.pulp).2 } := by
  simp only [step] at stepped
  split at stepped
  · rename_i a done path todo handled
    exact ⟨a, done, path, todo, handled, (Option.some.inj stepped).symm⟩
  · contradiction

/-- What it means that the next call does not go astray. -/
theorem aside_of_onCourse {a : CreaterepoAction} {done todo : List ChrootPath} {path : ChrootPath}
    {req : PulpRequests} (handled : w.handled = some ⟨a, done, path :: todo⟩)
    (course : w.onCourse (.initProject req) = true) :
    ¬ PulpStorage.Astray a.storageObject path.dirname path.chroot a.reason w.pulp := by
  simp only [onCourse, handled] at course
  exact of_decide_eq_true course

/-- Every step on course keeps the project sound. -/
theorem step_sound {e : ServedEvent} (sound : w.Sound) (course : w.onCourse e = true)
    (stepped : w.step e = some after) : after.Sound := by
  cases e with
  | newDir dirname =>
    obtain ⟨⟨accepted, -⟩, sent⟩ := Option.ite_none_right_eq_some.mp stepped
    refine sound.send (by rfl) ?_ sent
    intro other listed
    rcases List.mem_append.mp listed with before | new
    · exact sound.dirs other before
    · rw [List.mem_singleton.mp new]
      exact Or.inr accepted.spec.1
  | enable chroots =>
    obtain ⟨-, sent⟩ := Option.ite_none_left_eq_some.mp stepped
    exact sound.send (by rfl) (by exact sound.dirs) sent
  | setAutoCreaterepo value =>
    obtain ⟨-, sent⟩ := Option.ite_none_left_eq_some.mp stepped
    exact sound.send (by rfl) (by exact sound.dirs) sent
  | regenerate => exact sound.send rfl sound.dirs stepped
  | start index =>
    obtain ⟨-, started⟩ := Option.ite_none_right_eq_some.mp stepped
    obtain ⟨a, listed, rfl⟩ := Option.map_eq_some_iff.mp started
    constructor
    · exact sound.own
    · exact sound.dirs
    · exact sound.sent
    · intro h same
      obtain rfl := Option.some.inj same
      exact ⟨sound.sent a (List.mem_of_getElem? listed), rfl,
        fun _ _ impossible => by contradiction⟩
  | initProject req =>
    obtain ⟨a, done, path, todo, handled, rfl⟩ := step_initProject stepped
    have next := @Sound.initProject _ _ _ _ _ _ req sound handled (aside_of_onCourse handled course)
    constructor
    · exact sound.own.keeps next.1
    · exact sound.dirs
    · exact sound.sent
    · intro h same
      obtain ⟨ended, same⟩ := Option.ite_none_left_eq_some.mp same
      obtain rfl := Option.some.inj same
      exact next.2 ended
  | finish =>
    simp only [step] at stepped
    split at stepped
    · cases stepped
      exact ⟨sound.own, sound.dirs, sound.sent, fun h impossible => by contradiction⟩
    · contradiction
  | build path packages published =>
    have same : after = { w with pulp := after.pulp } ∧
        after.pulp.distributions = w.pulp.distributions := by
      cases stepped
      refine ⟨rfl, ?_⟩
      cases published <;> rfl
    obtain ⟨whole, distributions⟩ := same
    rw [whole]
    constructor
    · exact sound.own.keeps (KeepsOthers.of_eq distributions : KeepsOthers path w.pulp after.pulp)
    · exact sound.dirs
    · exact sound.sent
    · intro h handled
      have way := sound.handled h handled
      refine ⟨way.belongs, way.parts, ?_⟩
      rw [distributions]
      exact way.restored

/-- What is sound restores the directories that it was to restore. -/
theorem Sound.done (sound : w.Sound) : w.Restored := by
  intro h handled ended back dirname dir chroot active
  have way := sound.handled h handled
  have parts := way.parts
  rw [ended, List.append_nil] at parts
  have listed : (⟨w.project.copr.ownerName, dirname, chroot⟩ : ChrootPath) ∈ h.done := by
    rw [parts, ← way.belongs.owner]
    exact List.mem_flatMap.mpr ⟨dirname, dir, List.mem_map_of_mem active⟩
  exact way.restored back _ listed

/-- A call that goes astray and returns breaks the order at once. -/
theorem Sound.not_servesOwn {req : PulpRequests} (sound : w.Sound)
    (astray : w.onCourse (.initProject req) = false)
    (stepped : w.step (.initProject req) = some after) (returned : after.handled.isSome = true) :
    ¬ ServesOwn after.project.copr after.pulp := by
  obtain ⟨a, done, path, todo, handled, rfl⟩ := step_initProject stepped
  have way := sound.handled _ handled
  have listed : path ∈ a.paths := by
    rw [← way.parts]
    exact List.mem_append_right _ List.mem_cons_self
  obtain ⟨-, -, named⟩ := way.belongs.path listed
  have lost : PulpStorage.Astray a.storageObject path.dirname path.chroot a.reason w.pulp := by
    simp only [onCourse, handled, decide_eq_false_iff_not, not_not] at astray
    exact astray
  have ended : (PulpStorage.initTables a.storageObject path.dirname path.chroot a.reason req
      w.pulp).1 ≠ .raised := by
    intro raised
    rw [if_pos raised] at returned
    contradiction
  obtain ⟨x, found, serves⟩ := PulpStorage.initTables_astray lost ended
  obtain ⟨there, main⟩ := Table.find_eq_some.mp found
  intro own
  have right := own x there (by rw [main])
    (by rw [main]; exact way.belongs.owner) (by rw [main]; exact Or.inl way.belongs.project)
  rw [serves, main] at right
  exact lost.2.1 (Option.some.inj right)

/-- In every run in which no call goes astray, the public distribution of each directory serves its
own packages, and no call changes the distributions of another directory. A call that goes astray
and returns breaks this. -/
theorem directories_serve_their_own {copr : NamedCopr chars} {chroots : List String}
    {autoCreaterepo appstream : Bool} {pulp : PulpTables} {w : ServedWorld chars}
    (own : ServesOwn copr pulp)
    (run : Run step (fun w e => w.onCourse e = true)
      (newProject copr chroots autoCreaterepo appstream pulp) w) :
    ServesOwn w.project.copr w.pulp ∧ w.Restored ∧ (∀ e, w.onCourse e = true → w.Apart e) ∧
      ∀ req after, w.onCourse (.initProject req) = false →
        w.step (.initProject req) = some after → after.handled.isSome = true →
          ¬ ServesOwn after.project.copr after.pulp := by
  have start : (newProject copr chroots autoCreaterepo appstream pulp).Sound := by
    have dirs : ∀ dirname ∈ [copr.name], IsDir copr dirname :=
      fun dirname listed => Or.inl (List.mem_singleton.mp listed)
    constructor
    · exact own
    · exact dirs
    · intro a listed
      cases sent : (⟨copr, [copr.name], chroots, autoCreaterepo, appstream⟩ :
          ServedProject chars).sendCreaterepo [] none none (some .newChroot) with
      | none => simp [newProject, sent] at listed
      | some actions =>
        simp only [newProject, sent, Option.getD_some] at listed
        exact belongs_of_send dirs sent listed
    · intro h impossible
      contradiction
  have sound := run_invariant Sound (fun _ _ _ sound course stepped =>
    step_sound sound course stepped) run start
  refine ⟨sound.own, sound.done, ?_, ?_⟩
  · intro e course req same after stepped h path todo handled next name other
    subst same
    obtain ⟨a, done, path', todo', handled', rfl⟩ := step_initProject stepped
    rw [handled] at handled'
    obtain rfl := Option.some.inj handled'
    obtain ⟨rfl, rfl⟩ := List.cons.inj next
    exact (sound.initProject handled (aside_of_onCourse handled course)).1.others name other
  · intro req after astray stepped returned
    exact sound.not_servesOwn astray stepped returned

end ServedWorld

namespace Sample

/-- Every request is answered. -/
def pulpRequests : PulpRequests where
  createRepository := true
  getRepository := true
  createDistribution := true
  waitForRepo := true
  getPublication := true
  getDistribution := true
  updateDistribution := true
  publish := true
  redirect := true

/-- Pulp without any data. -/
def emptyPulp : PulpTables where
  repositories _ := none
  distributions := .empty

/-- A project with a directory for a pull request, in the automatic mode. -/
def servedHello : ServedWorld .ascii :=
  ServedWorld.newProject helloCopr ["fedora-40-x86_64"] true false emptyPulp

/-- The project is created, and a directory for a pull request. -/
def servedSetup : List ServedEvent :=
  [.start 0, .initProject pulpRequests, .finish, .newDir "hello:pr:42", .start 1,
    .initProject pulpRequests, .finish]

/-- What the public distribution of a directory serves. -/
def servedBy (w : ServedWorld .ascii) (dirname : String) : Option (Option ChrootPath) :=
  (w.pulp.distributions.find ⟨⟨"frostyx", dirname, "fedora-40-x86_64"⟩, false⟩).map
    fun x => x.target.source

end Sample

/-- Once the manual mode was switched on and off, the users of the main directory get packages of
the pull request. -/
theorem ServedWorld.main_directory_serves_pull_request : ¬ ∀ w : ServedWorld .ascii,
    Run ServedWorld.step anyEvent Sample.servedHello w →
      ServesOwn w.project.copr w.pulp ∧ w.Restored ∧ ∀ e, w.Apart e := by
  intro claimed
  obtain ⟨w, run, seen⟩ := exec_observe ServedWorld.step (fun _ _ => true) Sample.servedHello
    (Sample.servedSetup ++ [.setAutoCreaterepo false, .start 2, .initProject Sample.pulpRequests,
      .initProject Sample.pulpRequests, .finish, .setAutoCreaterepo true, .start 3,
      .initProject Sample.pulpRequests, .initProject Sample.pulpRequests, .finish])
    (fun w => w.pulp.distributions.rows.any fun x => decide (x.name.devel = false ∧
      x.name.path.owner = w.project.copr.ownerName ∧ x.name.path.dirname = w.project.copr.name ∧
        x.target.source = some ⟨"frostyx", "hello:pr:42", "fedora-40-x86_64"⟩ ∧
          x.name.path ≠ ⟨"frostyx", "hello:pr:42", "fedora-40-x86_64"⟩))
    true (by decide)
  obtain ⟨x, there, wrong⟩ := List.any_eq_true.mp seen
  obtain ⟨plain, owner, dir, serves, other⟩ := of_decide_eq_true wrong
  have own := (claimed w (run_weaken (fun _ _ _ => trivial) run)).1 x there plain owner (Or.inl dir)
  rw [serves] at own
  exact other (Option.some.inj own).symm

/-- While the manual mode is only switched on, the two directories serve their own packages. -/
theorem ServedWorld.directories_serve_their_own_sample : ∃ w : ServedWorld .ascii,
    (Sample.servedBy w "hello", Sample.servedBy w "hello:pr:42") =
        (some (some ⟨"frostyx", "hello", "fedora-40-x86_64"⟩),
          some (some ⟨"frostyx", "hello:pr:42", "fedora-40-x86_64"⟩)) ∧
      ServesOwn w.project.copr w.pulp := by
  obtain ⟨w, run, seen⟩ := exec_observe ServedWorld.step (fun w e => w.onCourse e)
    Sample.servedHello
    (Sample.servedSetup ++ [.setAutoCreaterepo false, .start 2, .initProject Sample.pulpRequests,
      .initProject Sample.pulpRequests, .finish])
    (fun w => (Sample.servedBy w "hello", Sample.servedBy w "hello:pr:42"))
    (some (some ⟨"frostyx", "hello", "fedora-40-x86_64"⟩),
      some (some ⟨"frostyx", "hello:pr:42", "fedora-40-x86_64"⟩)) (by decide)
  have empty : ServesOwn Sample.helloCopr Sample.emptyPulp := by
    intro x impossible
    contradiction
  exact ⟨w, seen, (directories_serve_their_own empty run).1⟩

end Copr
