import Copr.Lib.Runs
import Copr.Lib.Text
import Copr.Frontend.BuildsLogic
import Copr.Frontend.CoprDirs

/-!
# Sandboxes of builds

`Build.sandbox` is the text by which the backend keeps builder machines of different submitters
apart. It joins the full name of the project and the submitter with two dashes, and uses a random
value when the submitter is unknown or users may log in to the builder by SSH. The machine below
covers the logins, forms, webhooks and the other requests that decide which names such a text is
made of, and keeps the texts that were handed out.
-/

namespace Copr

open Runs Text

/-- A text as `uuid4()` makes them. -/
structure Uuid where
  /-- The text. -/
  text : String
  /-- It has 36 characters. -/
  size : text.toList.length = 36
  /-- Between its dashes there are digits. -/
  single : contains text "--" = false
  /-- It begins with a digit. -/
  front : startswith text "-" = false
  deriving DecidableEq

/-- The owner of a project. -/
inductive CoprOwner
  /-- A user. -/
  | user (name : String)
  /-- A group. -/
  | group (name : String)
  deriving DecidableEq, Repr

/-- `owner_name`. -/
def CoprOwner.text : CoprOwner → String
  | user name => name
  | group name => "@" ++ name

/-- `Copr`, as far as it is named. -/
structure SandboxCopr where
  /-- `id`. -/
  id : Nat
  /-- The group, or else the user. -/
  owner : CoprOwner
  /-- `name`. -/
  name : String
  deriving DecidableEq, Repr

/-- `full_name`. -/
def SandboxCopr.fullName (copr : SandboxCopr) : String := copr.owner.text ++ "/" ++ copr.name

/-- `Build`, as far as its sandbox depends on it. -/
structure SandboxBuild where
  /-- `id`. -/
  id : Nat
  /-- `copr`. -/
  copr : SandboxCopr
  /-- The name of `user`. -/
  user : Option String
  /-- `submitted_by`. -/
  submittedBy : Option String
  /-- `ssh_public_keys`. -/
  sshPublicKeys : Option String
  /-- `source_status`. -/
  sourceStatus : Option StatusEnum
  deriving DecidableEq, Repr

/-- Who has submitted a build. -/
inductive Submitter
  /-- A user of the frontend. -/
  | user (name : String)
  /-- Somebody else, as a webhook names them. -/
  | webhook (text : String)
  /-- Nobody knows. -/
  | unknown
  deriving DecidableEq, Repr

namespace SandboxBuild

/-- The first part of `submitter`; the second one is a link. -/
def submitter (b : SandboxBuild) : Option String :=
  match b.user with
  | some user => some user
  | none => truthyText b.submittedBy

/-- The source build is finished, so that RPMs are being built. -/
def isRpmBuild (b : SandboxBuild) : Bool := b.sourceStatus.any fun s => decide s.Finished

/-- `sandbox`, with the last random value that it draws. -/
def sandbox (b : SandboxBuild) (uuid4 : Uuid) : String :=
  let submitter := (truthyText b.submitter).getD uuid4.text
  let submitter :=
    if (truthyText b.sshPublicKeys).isSome && b.isRpmBuild then uuid4.text else submitter
  b.copr.fullName ++ "--" ++ submitter

/-- Who has submitted the build. -/
def submittedAs (b : SandboxBuild) : Submitter :=
  match b.user with
  | some user => .user user
  | none =>
    match truthyText b.submittedBy with
    | some text => .webhook text
    | none => .unknown

/-- Users may log in to the builder while it builds RPMs. -/
def isPrivate (b : SandboxBuild) : Bool := (truthyText b.sshPublicKeys).isSome && b.isRpmBuild

/-- The name that the sandbox ends with, unless it ends with a random value. -/
def plain (b : SandboxBuild) : Option String :=
  if b.isPrivate then none else truthyText b.submitter

end SandboxBuild

/-- A request of a webhook or a message, with what it tells about its sender. -/
inductive WebhookSender
  /-- `actor` of Bitbucket. -/
  | bitbucket (actor : Option String)
  /-- `sender` of GitHub. -/
  | github (sender : Option String)
  /-- `user_username` of GitLab. -/
  | gitlab (userUsername : Option String)
  /-- A custom webhook. -/
  | custom
  /-- A message of Pagure, at some base URL. -/
  | pagure (baseUrl user : String)
  deriving DecidableEq, Repr

/-- `submitted_by` of a build for the sender. -/
def WebhookSender.submittedBy : WebhookSender → Option String
  | bitbucket actor => actor
  | github sender => sender
  | gitlab userUsername => userUsername.map fun name => "gitlab.com:" ++ name
  | custom => none
  | pagure baseUrl user => some (baseUrl ++ "user/" ++ user)

/-- A text that was handed out, for the build as it was then. -/
structure HandedOut where
  /-- The build. -/
  build : SandboxBuild
  /-- The random value that was drawn. -/
  uuid4 : Uuid
  deriving DecidableEq

/-- The text. -/
def HandedOut.text (h : HandedOut) : String := h.build.sandbox h.uuid4

/-- The tables, the texts that have been entered and the sandboxes that have been handed out. -/
structure SandboxTables where
  /-- The names of all users. -/
  users : List String
  /-- The names of all groups. -/
  groups : List String
  /-- The projects that are not deleted. -/
  coprs : List SandboxCopr
  /-- All builds. -/
  builds : List SandboxBuild
  /-- The id of the next project. -/
  nextCoprId : Nat
  /-- The id of the next build. -/
  nextBuildId : Nat
  /-- All names and texts that were ever entered. -/
  texts : List String
  /-- All sandboxes that were ever handed out. -/
  handedOut : List HandedOut

/-- A request. -/
inductive SandboxEvent
  /-- `get_or_create_user`. -/
  | login (username : String)
  /-- A group is activated. -/
  | activateGroup (name : String)
  /-- A project is created, also as a fork. -/
  | addCopr (owner : CoprOwner) (name : String)
  /-- `add`. -/
  | addBuild (username : String) (coprId : Nat) (sshPublicKeys : Option String)
      (sourceStatus : StatusEnum)
  /-- `rebuild_package`. -/
  | rebuildPackage (sender : WebhookSender) (coprId : Nat)
  /-- `fork_build`. -/
  | forkBuild (buildId coprId : Nat)
  /-- The source build gets another status. -/
  | setSourceStatus (buildId : Nat) (status : Option StatusEnum)
  /-- Builds are deleted. -/
  | deleteBuilds (buildIds : List Nat)
  /-- A project is deleted with its builds. -/
  | deleteCopr (coprId : Nat)
  /-- A description of a task is made. -/
  | handOut (buildId : Nat) (uuid4 : Uuid)

/-- The names and texts that a request enters. -/
def SandboxEvent.texts : SandboxEvent → List String
  | login username => [username]
  | activateGroup name => [name]
  | addCopr _ name => [name]
  | rebuildPackage sender _ => sender.submittedBy.toList
  | _ => []

namespace SandboxTables

/-- Nothing has happened. -/
def empty : SandboxTables := ⟨[], [], [], [], 0, 0, [], []⟩

/-- The owner exists. -/
def hasOwner (s : SandboxTables) : CoprOwner → Bool
  | .user name => decide (name ∈ s.users)
  | .group name => decide (name ∈ s.groups)

/-- A project that is not deleted. -/
def getCopr (s : SandboxTables) (coprId : Nat) : Option SandboxCopr :=
  s.coprs.find? fun c => decide (c.id = coprId)

/-- A build. -/
def getBuild (s : SandboxTables) (buildId : Nat) : Option SandboxBuild :=
  s.builds.find? fun b => decide (b.id = buildId)

/-- A build is added under the next id. -/
def addBuild (s : SandboxTables) (b : SandboxBuild) : SandboxTables :=
  { s with
    builds := s.builds ++ [{ b with id := s.nextBuildId }]
    nextBuildId := s.nextBuildId + 1 }

/-- A request, when it is accepted. Owners are a part of the URL before a slash, and the names of
the active projects of an owner are unique. -/
def step (chars : CharClasses) (s : SandboxTables) (e : SandboxEvent) : Option SandboxTables :=
  let entered := { s with texts := s.texts ++ e.texts }
  match e with
  | .login username =>
    if username ∈ s.users then some s else some { entered with users := s.users ++ [username] }
  | .activateGroup name =>
    if nameCharacters chars name && !decide (name ∈ s.groups) then
      some { entered with groups := s.groups ++ [name] }
    else none
  | .addCopr owner name =>
    if s.hasOwner owner && !decide ('/' ∈ owner.text.toList) && nameCharacters chars name &&
        !s.coprs.any (fun c => decide (c.owner = owner ∧ c.name = name)) then
      some { entered with
        coprs := s.coprs ++ [⟨s.nextCoprId, owner, name⟩], nextCoprId := s.nextCoprId + 1 }
    else none
  | .addBuild username coprId sshPublicKeys sourceStatus =>
    if username ∈ s.users then
      (s.getCopr coprId).map fun copr =>
        s.addBuild ⟨0, copr, some username, none, sshPublicKeys, some sourceStatus⟩
    else none
  | .rebuildPackage sender coprId =>
    (s.getCopr coprId).map fun copr =>
      entered.addBuild ⟨0, copr, none, sender.submittedBy, none, some .pending⟩
  | .forkBuild buildId coprId =>
    (s.getBuild buildId).bind fun b => (s.getCopr coprId).map fun copr =>
      s.addBuild { b with copr := copr, sourceStatus := some .forked }
  | .setSourceStatus buildId status =>
    some { s with
      builds := s.builds.map fun b =>
        if b.id = buildId then { b with sourceStatus := status } else b }
  | .deleteBuilds buildIds =>
    some { s with builds := s.builds.filter fun b => decide (b.id ∉ buildIds) }
  | .deleteCopr coprId =>
    some { s with
      coprs := s.coprs.filter fun c => decide (c.id ≠ coprId)
      builds := s.builds.filter fun b => decide (b.copr.id ≠ coprId) }
  | .handOut buildId uuid4 =>
    (s.getBuild buildId).map fun b => { s with handedOut := s.handedOut ++ [⟨b, uuid4⟩] }

/-- The random value was not drawn before, and it is a part of no text that was ever entered. -/
def Fresh (s : SandboxTables) (uuid4 : Uuid) : Prop :=
  uuid4 ∉ s.handedOut.map HandedOut.uuid4 ∧ ∀ text ∈ s.texts, contains text uuid4.text = false

instance (s : SandboxTables) (uuid4 : Uuid) : Decidable (s.Fresh uuid4) :=
  inferInstanceAs (Decidable (_ ∧ _))

/-- Random values are fresh when they are drawn, and nobody enters one afterwards. -/
def freshUuids (s : SandboxTables) (e : SandboxEvent) : Bool :=
  match e with
  | .handOut _ uuid4 => decide (s.Fresh uuid4)
  | e => e.texts.all fun text => s.handedOut.all fun h => !contains text h.uuid4.text

/-- Requests one after another, with fresh random values. -/
def run (chars : CharClasses) (events : List SandboxEvent) : Option SandboxTables :=
  exec (step chars) freshUuids empty events

end SandboxTables

/-- The sandboxes of two builds say the same of different projects or submitters. They end with
names, their projects have owners of the same name; and a user or group or webhook has the name of
another one, or the submitter of one build begins with what follows, in the name of the other
project, after the name of the first one and two dashes, or a dash. -/
def Confusable (b c : SandboxBuild) : Prop :=
  ∃ text ∈ b.plain, ∃ text' ∈ c.plain, b.copr.owner.text = c.copr.owner.text ∧
    ((b.copr.name = c.copr.name ∧ text = text' ∧
        (b.copr.owner ≠ c.copr.owner ∨ b.submittedAs ≠ c.submittedAs)) ∨
      Overlaps b.copr.name text c.copr.name text' ∨ Overlaps c.copr.name text' b.copr.name text)

/-! ## When sandboxes are the same -/

section Same

variable {b c : SandboxBuild} {uuid other : Uuid}

/-- The sandbox ends with a name or with the random value. -/
theorem SandboxBuild.sandbox_eq (b : SandboxBuild) (uuid : Uuid) :
    b.sandbox uuid = b.copr.fullName ++ "--" ++ b.plain.getD uuid.text := by
  unfold sandbox plain isPrivate
  dsimp only
  split
  · rfl
  · rfl

/-- The name at the end is that of the submitter. -/
theorem SandboxBuild.submitter_of_plain {text : String} (ending : b.plain = some text) :
    b.submitter = some text := by
  unfold plain at ending
  split at ending
  · contradiction
  · exact (Option.filter_eq_some_iff.mp ending).1

/-- A sandbox with a random value is that of no other build. -/
theorem sandbox_ne_of_random (random : b.plain = none) (different : uuid ≠ other)
    (unseen : ∀ text ∈ c.plain, contains text uuid.text = false) :
    b.sandbox uuid ≠ c.sandbox other := by
  rw [b.sandbox_eq, c.sandbox_eq, random, Option.getD_none]
  intro same
  cases ending : c.plain with
  | some text =>
    rw [ending, Option.getD_some] at same
    have seen := contains_of_joined same.symm uuid.single uuid.front
    rw [unseen text ending] at seen
    contradiction
  | none =>
    rw [ending, Option.getD_none] at same
    have split : ∀ l r : String, (l ++ r).toList = l.toList ++ r.toList :=
      fun _ _ => String.toList_append
    have lists := congrArg String.toList same
    rw [split (b.copr.fullName ++ "--"), split (c.copr.fullName ++ "--")] at lists
    have ends := (List.append_inj' lists (uuid.size.trans other.size.symm)).2
    apply different
    cases uuid
    cases other
    simpa using String.toList_inj.mp ends

/-- When two sandboxes that end with names are the same. -/
theorem sandbox_eq_iff {text text' : String} (first : b.plain = some text)
    (second : c.plain = some text') (left : '/' ∉ b.copr.owner.text.toList)
    (right : '/' ∉ c.copr.owner.text.toList) :
    b.sandbox uuid = c.sandbox other ↔ b.copr.owner.text = c.copr.owner.text ∧
      ((b.copr.name = c.copr.name ∧ text = text') ∨ Overlaps b.copr.name text c.copr.name text' ∨
        Overlaps c.copr.name text' b.copr.name text) := by
  rw [b.sandbox_eq, c.sandbox_eq, first, second, Option.getD_some, Option.getD_some,
    ← joined_eq_iff]
  have parts : ∀ copr : SandboxCopr, ∀ ending, (copr.fullName ++ "--" ++ ending).toList =
      copr.owner.text.toList ++ '/' :: (copr.name ++ "--" ++ ending).toList := by
    intro copr ending
    simp only [SandboxCopr.fullName, String.toList_append, List.append_assoc]
    rfl
  rw [← String.toList_inj, parts, parts]
  constructor
  · intro same
    obtain ⟨owners, names⟩ := around_separator left right same
    exact ⟨String.toList_inj.mp owners, String.toList_inj.mp names⟩
  · rintro ⟨owners, names⟩
    rw [owners, names]

/-- Sandboxes tell projects and submitters apart, exactly if the builds are not confusable. -/
theorem separated_iff (different : uuid ≠ other) (left : '/' ∉ b.copr.owner.text.toList)
    (right : '/' ∉ c.copr.owner.text.toList)
    (unseen : ∀ text ∈ c.plain, contains text uuid.text = false)
    (unseen' : ∀ text ∈ b.plain, contains text other.text = false) :
    (b.sandbox uuid = c.sandbox other →
      (b.copr.owner = c.copr.owner ∧ b.copr.name = c.copr.name) ∧ b.submittedAs = c.submittedAs) ↔
      ¬ Confusable b c := by
  constructor
  · rintro separated ⟨text, first, text', second, owners, confused⟩
    have same := (@sandbox_eq_iff b c uuid other _ _ first second left right).mpr
    rcases confused with ⟨names, texts, entities⟩ | overlap | overlap
    · obtain ⟨⟨owner, -⟩, submitter⟩ := separated (same ⟨owners, Or.inl ⟨names, texts⟩⟩)
      exact entities.elim (fun ne => ne owner) fun ne => ne submitter
    · exact overlap.ne (separated (same ⟨owners, Or.inr (Or.inl overlap)⟩)).1.2
    · exact overlap.ne (separated (same ⟨owners, Or.inr (Or.inr overlap)⟩)).1.2.symm
  · intro clear same
    cases first : b.plain with
    | none => exact absurd same (sandbox_ne_of_random first different unseen)
    | some text =>
      cases second : c.plain with
      | none => exact absurd same.symm (sandbox_ne_of_random second different.symm unseen')
      | some text' =>
        obtain ⟨owners, alike⟩ := (sandbox_eq_iff first second left right).mp same
        rcases alike with ⟨names, texts⟩ | overlap
        · by_contra otherwise
          refine clear ⟨text, first, text', second, owners, Or.inl ⟨names, texts, ?_⟩⟩
          by_contra entities
          rw [not_or, not_not, not_not] at entities
          exact otherwise ⟨⟨entities.1, names⟩, entities.2⟩
        · exact absurd ⟨text, first, text', second, owners, Or.inr overlap⟩ clear

end Same

/-! ## What holds in every state -/

namespace SandboxTables

/-- What the requests keep. -/
structure Consistent (s : SandboxTables) : Prop where
  /-- An owner has one project of a name. -/
  unique : ∀ c ∈ s.coprs, ∀ d ∈ s.coprs, c.owner = d.owner → c.name = d.name → c = d
  /-- There is no slash in the name of an owner. -/
  slash : ∀ c ∈ s.coprs, '/' ∉ c.owner.text.toList
  /-- Builds are in projects that are not deleted. -/
  project : ∀ b ∈ s.builds, b.copr ∈ s.coprs
  /-- The names of users were entered. -/
  users : ∀ name ∈ s.users, name ∈ s.texts
  /-- The submitters of builds were entered. -/
  submitters : ∀ b ∈ s.builds, ∀ text ∈ b.submitter, text ∈ s.texts
  /-- So were those of builds whose sandbox was handed out. -/
  handed : ∀ h ∈ s.handedOut,
    '/' ∉ h.build.copr.owner.text.toList ∧ ∀ text ∈ h.build.submitter, text ∈ s.texts
  /-- No random value was drawn twice. -/
  random : (s.handedOut.map HandedOut.uuid4).Nodup
  /-- No random value was entered. -/
  unseen : ∀ h ∈ s.handedOut, ∀ text ∈ s.texts, contains text h.uuid4.text = false

variable {chars : CharClasses} {s t : SandboxTables} {e : SandboxEvent}

/-- The empty tables are consistent. -/
theorem empty_consistent : empty.Consistent where
  unique := by simp [empty]
  slash := by simp [empty]
  project := by simp [empty]
  users := by simp [empty]
  submitters := by simp [empty]
  handed := by simp [empty]
  random := by simp [empty]
  unseen := by simp [empty]

/-- Entering texts that contain no id that was handed out keeps the tables consistent. -/
theorem Consistent.enter (c : s.Consistent) {texts : List String}
    (fresh : ∀ text ∈ texts, ∀ h ∈ s.handedOut, contains text h.uuid4.text = false) :
    { s with texts := s.texts ++ texts }.Consistent where
  unique := c.unique
  slash := c.slash
  project := c.project
  users := fun name known => List.mem_append_left _ (c.users name known)
  submitters := fun b listed text ending =>
    List.mem_append_left _ (c.submitters b listed text ending)
  handed := fun h listed => ⟨(c.handed h listed).1,
    fun text ending => List.mem_append_left _ ((c.handed h listed).2 text ending)⟩
  random := c.random
  unseen := by
    intro h listed text entered
    rcases List.mem_append.mp entered with before | now
    · exact c.unseen h listed text before
    · exact fresh text now h listed

/-- A build is added to a project that is not deleted. -/
theorem Consistent.addBuild (c : s.Consistent) {b : SandboxBuild} (project : b.copr ∈ s.coprs)
    (entered : ∀ text ∈ b.submitter, text ∈ s.texts) : (s.addBuild b).Consistent where
  unique := c.unique
  slash := c.slash
  project := by
    intro d listed
    rcases List.mem_append.mp listed with before | now
    · exact c.project d before
    · rw [List.mem_singleton.mp now]
      exact project
  users := c.users
  submitters := by
    intro d listed
    rcases List.mem_append.mp listed with before | now
    · exact c.submitters d before
    · rw [List.mem_singleton.mp now]
      exact entered
  handed := c.handed
  random := c.random
  unseen := c.unseen

/-- Some builds are kept, with other source statuses. -/
theorem Consistent.builds (c : s.Consistent) {builds : List SandboxBuild}
    (kept : ∀ b ∈ builds, ∃ d ∈ s.builds, b.copr = d.copr ∧ b.submitter = d.submitter) :
    { s with builds := builds }.Consistent where
  unique := c.unique
  slash := c.slash
  project := by
    intro b listed
    obtain ⟨d, before, copr, -⟩ := kept b listed
    rw [copr]
    exact c.project d before
  users := c.users
  submitters := by
    intro b listed
    obtain ⟨d, before, -, submitter⟩ := kept b listed
    rw [submitter]
    exact c.submitters d before
  handed := c.handed
  random := c.random
  unseen := c.unseen

/-- A project is found among those that are not deleted. -/
theorem getCopr_mem {coprId : Nat} {copr : SandboxCopr} (found : s.getCopr coprId = some copr) :
    copr ∈ s.coprs :=
  List.mem_of_find?_eq_some found

/-- A build is found among all builds. -/
theorem getBuild_mem {buildId : Nat} {b : SandboxBuild} (found : s.getBuild buildId = some b) :
    b ∈ s.builds :=
  List.mem_of_find?_eq_some found

/-- The texts of a request that is not a description of a task are no random values. -/
theorem entered_unseen (fresh : freshUuids s e = true) :
    ∀ text ∈ e.texts, ∀ h ∈ s.handedOut, contains text h.uuid4.text = false := by
  cases e with
  | handOut buildId uuid4 => exact fun text entered => absurd entered List.not_mem_nil
  | _ =>
    intro text entered h listed
    have all := List.all_eq_true.mp (List.all_eq_true.mp fresh text entered) h listed
    simpa using all

/-- Every request with fresh random values keeps the tables consistent. -/
theorem step_consistent (c : s.Consistent) (fresh : freshUuids s e = true)
    (stepped : step chars s e = some t) : t.Consistent := by
  have entered := c.enter (entered_unseen fresh)
  cases e with
  | login username =>
    simp only [step] at stepped
    split at stepped
    · rw [← Option.some.inj stepped]
      exact c
    · rw [← Option.some.inj stepped]
      refine { entered with users := fun name known => ?_ }
      rcases List.mem_append.mp known with before | now
      · exact entered.users name before
      · exact List.mem_append_right _ now
  | activateGroup name =>
    simp only [step] at stepped
    split at stepped
    · rw [← Option.some.inj stepped]
      exact { entered with }
    · contradiction
  | addCopr owner name =>
    simp only [step] at stepped
    split at stepped
    · rename_i accepted
      simp only [Bool.and_eq_true, Bool.not_eq_true', decide_eq_false_iff_not] at accepted
      obtain ⟨⟨⟨-, slash⟩, -⟩, new⟩ := accepted
      have other : ∀ d ∈ s.coprs, ¬ (d.owner = owner ∧ d.name = name) := by
        intro d listed
        simpa using List.any_eq_false.mp new d listed
      rw [← Option.some.inj stepped]
      refine { entered with unique := ?_, slash := ?_, project := ?_ }
      · intro d listed d' listed' owners names
        rcases List.mem_append.mp listed with before | now
        · rcases List.mem_append.mp listed' with before' | now'
          · exact c.unique d before d' before' owners names
          · rw [List.mem_singleton.mp now'] at owners names
            exact absurd ⟨owners, names⟩ (other d before)
        · rw [List.mem_singleton.mp now] at owners names ⊢
          rcases List.mem_append.mp listed' with before' | now'
          · exact absurd ⟨owners.symm, names.symm⟩ (other d' before')
          · rw [List.mem_singleton.mp now']
      · intro d listed
        rcases List.mem_append.mp listed with before | now
        · exact c.slash d before
        · rw [List.mem_singleton.mp now]
          exact slash
      · exact fun b listed => List.mem_append_left _ (c.project b listed)
    · contradiction
  | addBuild username coprId sshPublicKeys sourceStatus =>
    simp only [step] at stepped
    split at stepped
    · rename_i known
      obtain ⟨copr, found, rfl⟩ := Option.map_eq_some_iff.mp stepped
      refine c.addBuild (getCopr_mem found) fun text ending => ?_
      obtain rfl := Option.some.inj ending
      exact c.users username known
    · contradiction
  | rebuildPackage sender coprId =>
    obtain ⟨copr, found, rfl⟩ := Option.map_eq_some_iff.mp stepped
    refine entered.addBuild (getCopr_mem found) fun text ending => ?_
    have told : sender.submittedBy = some text := (Option.filter_eq_some_iff.mp ending).1
    refine List.mem_append_right _ ?_
    rw [SandboxEvent.texts, told]
    exact List.mem_singleton_self text
  | forkBuild buildId coprId =>
    obtain ⟨b, source, rest⟩ := Option.bind_eq_some_iff.mp stepped
    obtain ⟨copr, found, rfl⟩ := Option.map_eq_some_iff.mp rest
    exact c.addBuild (getCopr_mem found) (c.submitters b (getBuild_mem source))
  | setSourceStatus buildId status =>
    rw [← Option.some.inj stepped]
    refine c.builds fun b listed => ?_
    obtain ⟨d, before, rfl⟩ := List.mem_map.mp listed
    refine ⟨d, before, ?_⟩
    split
    · exact ⟨rfl, rfl⟩
    · exact ⟨rfl, rfl⟩
  | deleteBuilds buildIds =>
    rw [← Option.some.inj stepped]
    exact c.builds fun b listed => ⟨b, List.mem_of_mem_filter listed, rfl, rfl⟩
  | deleteCopr coprId =>
    rw [← Option.some.inj stepped]
    have kept : ∀ b ∈ s.builds.filter fun b => decide (b.copr.id ≠ coprId),
        ∃ d ∈ s.builds, b.copr = d.copr ∧ b.submitter = d.submitter :=
      fun b listed => ⟨b, List.mem_of_mem_filter listed, rfl, rfl⟩
    have left := c.builds kept
    refine { left with unique := ?_, slash := ?_, project := ?_ }
    · exact fun d listed d' listed' =>
        c.unique d (List.mem_of_mem_filter listed) d' (List.mem_of_mem_filter listed')
    · exact fun d listed => c.slash d (List.mem_of_mem_filter listed)
    · intro b listed
      obtain ⟨there, other⟩ := List.mem_filter.mp listed
      exact List.mem_filter.mpr ⟨c.project b there, other⟩
  | handOut buildId uuid4 =>
    obtain ⟨b, found, rfl⟩ := Option.map_eq_some_iff.mp stepped
    have new : s.Fresh uuid4 := of_decide_eq_true fresh
    have listed := getBuild_mem found
    refine { c with handed := ?_, random := ?_, unseen := ?_ }
    · intro h member
      rcases List.mem_append.mp member with before | now
      · exact c.handed h before
      · rw [List.mem_singleton.mp now]
        exact ⟨c.slash _ (c.project b listed), c.submitters b listed⟩
    · rw [List.map_append]
      refine List.nodup_append.mpr ⟨c.random, List.nodup_singleton _, ?_⟩
      intro u before v now same
      have same : u = uuid4 := same.trans (List.mem_singleton.mp now)
      exact new.1 (same ▸ before)
    · intro h member text known
      rcases List.mem_append.mp member with before | now
      · exact c.unseen h before text known
      · rw [List.mem_singleton.mp now]
        exact new.2 text known

/-- Every run with fresh random values leads to consistent tables. -/
theorem run_consistent {events : List SandboxEvent} (ran : run chars events = some t) :
    t.Consistent :=
  run_invariant Consistent (fun _ _ _ c fresh stepped => step_consistent c fresh stepped)
    (exec_run events ran) empty_consistent

/-- In every state that is reached with fresh random values: the sandboxes of two builds tell their
projects and submitters apart exactly if the builds are not confusable; a sandbox that was handed
out while users could log in to the builder is that of no other build; and equal sandboxes were
handed out for one submitter and projects of one name and owner, unless the builds were
confusable. -/
theorem sandboxes_separate_submitters {events : List SandboxEvent}
    (ran : run chars events = some t) :
    (∀ b ∈ t.builds, ∀ c ∈ t.builds, ∀ uuid other, uuid ≠ other → t.Fresh uuid → t.Fresh other →
        ((b.sandbox uuid = c.sandbox other → b.copr = c.copr ∧ b.submittedAs = c.submittedAs) ↔
          ¬ Confusable b c)) ∧
      (∀ h ∈ t.handedOut, ∀ k ∈ t.handedOut, h.build.id ≠ k.build.id → h.build.isPrivate = true →
        h.text ≠ k.text) ∧
      ∀ h ∈ t.handedOut, ∀ k ∈ t.handedOut, h.text = k.text → ¬ Confusable h.build k.build →
        (h.build.copr.owner = k.build.copr.owner ∧ h.build.copr.name = k.build.copr.name) ∧
          h.build.submittedAs = k.build.submittedAs := by
  have c := run_consistent ran
  have drawn : ∀ h ∈ t.handedOut, ∀ k ∈ t.handedOut, h.uuid4 = k.uuid4 → h = k :=
    fun h member k other same => List.inj_on_of_nodup_map c.random member other same
  have clean : ∀ h ∈ t.handedOut, ∀ k ∈ t.handedOut, ∀ text ∈ k.build.plain,
      contains text h.uuid4.text = false := fun h member k other text ending =>
    c.unseen h member text ((c.handed k other).2 text (SandboxBuild.submitter_of_plain ending))
  refine ⟨?_, ?_, ?_⟩
  · intro b listed d listed' uuid other different fresh fresh'
    have unseen : ∀ x ∈ t.builds, ∀ u, t.Fresh u → ∀ text ∈ x.plain, contains text u.text = false :=
      fun x member u new text ending =>
        new.2 text (c.submitters x member text (SandboxBuild.submitter_of_plain ending))
    have slash : ∀ x ∈ t.builds, '/' ∉ x.copr.owner.text.toList :=
      fun x member => c.slash x.copr (c.project x member)
    rw [← separated_iff different (slash b listed) (slash d listed') (unseen d listed' uuid fresh)
      (unseen b listed other fresh')]
    refine imp_congr_right fun _ => and_congr_left fun _ => ?_
    constructor
    · intro same
      rw [same]
      exact ⟨rfl, rfl⟩
    · rintro ⟨owners, names⟩
      exact c.unique _ (c.project b listed) _ (c.project d listed') owners names
  · intro h member k other builds open_
    have random : h.build.plain = none := if_pos open_
    have different : h.uuid4 ≠ k.uuid4 := by
      intro same
      rw [drawn h member k other same] at builds
      exact builds rfl
    exact sandbox_ne_of_random random different (clean h member k other)
  · intro h member k other same clear
    by_cases uuids : h.uuid4 = k.uuid4
    · rw [drawn h member k other uuids]
      exact ⟨⟨rfl, rfl⟩, rfl⟩
    · exact (separated_iff uuids (c.handed h member).1 (c.handed k other).1
        (clean h member k other) (clean k other h member)).mpr clear same

/-- A random value. -/
def uuidA : Uuid where
  text := "0f1e2d3c-4b5a-4697-8879-6a5b4c3d2e1f"
  size := by decide
  single := by decide
  front := by decide

/-- Another one. -/
def uuidB : Uuid where
  text := "9d8c7b6a-5f4e-4d3c-a2b1-0f9e8d7c6b5a"
  size := by decide
  single := by decide
  front := by decide

/-- Alice lets Bob build in her project, and logs in to her own builder. -/
def sharedProject : List SandboxEvent :=
  [.login "alice", .login "bob", .addCopr (.user "alice") "hello",
    .addBuild "alice" 0 (some "ssh-rsa AAAA") .pending, .addBuild "bob" 0 none .pending,
    .setSourceStatus 0 (some .succeeded), .handOut 0 uuidA, .handOut 1 uuidB]

/-- The sandboxes that are handed out for Alice and for Bob are different. -/
theorem sandboxes_separate_submitters_shared :
    ∃ t h k, run .ascii sharedProject = some t ∧ t.handedOut = [h, k] ∧
      h.build.isPrivate = true ∧ h.text ≠ k.text := by
  let copr : SandboxCopr := ⟨0, .user "alice", "hello"⟩
  let h : HandedOut :=
    ⟨⟨0, copr, some "alice", none, some "ssh-rsa AAAA", some .succeeded⟩, uuidA⟩
  let k : HandedOut := ⟨⟨1, copr, some "bob", none, none, some .pending⟩, uuidB⟩
  let t : SandboxTables := ⟨["alice", "bob"], [], [copr], [h.build, k.build], 1, 2,
    ["alice", "bob", "hello"], [h, k]⟩
  have ran : run .ascii sharedProject = some t := by rfl
  have separate := (sandboxes_separate_submitters ran).2.1 h (List.mem_cons_self) k
    (List.mem_cons_of_mem _ List.mem_cons_self) (by decide) (by decide)
  exact ⟨t, h, k, ran, rfl, by decide, separate⟩

/-- Two projects of Alice, in which she lets others build. -/
def twoProjects : List SandboxEvent :=
  [.login "alice", .login "bar--x", .login "x", .addCopr (.user "alice") "foo",
    .addCopr (.user "alice") "foo--bar", .addBuild "bar--x" 0 none .pending,
    .addBuild "x" 1 none .pending]

/-- Builds of different users in different projects have the same sandbox. -/
theorem sandboxes_collide :
    ¬ ∀ (chars : CharClasses) events t, run chars events = some t →
      ∀ b ∈ t.builds, ∀ c ∈ t.builds, ∀ uuid other, uuid ≠ other → t.Fresh uuid → t.Fresh other →
        b.sandbox uuid = c.sandbox other → b.copr = c.copr ∧ b.submittedAs = c.submittedAs := by
  intro separated
  let foo : SandboxCopr := ⟨0, .user "alice", "foo"⟩
  let fooBar : SandboxCopr := ⟨1, .user "alice", "foo--bar"⟩
  let b : SandboxBuild := ⟨0, foo, some "bar--x", none, none, some .pending⟩
  let c : SandboxBuild := ⟨1, fooBar, some "x", none, none, some .pending⟩
  let t : SandboxTables := ⟨["alice", "bar--x", "x"], [], [foo, fooBar], [b, c], 2, 2,
    ["alice", "bar--x", "x", "foo", "foo--bar"], []⟩
  have ran : run .ascii twoProjects = some t := by rfl
  have same := separated .ascii twoProjects t ran b List.mem_cons_self c
    (List.mem_cons_of_mem _ List.mem_cons_self) uuidA uuidB (by decide) (by decide) (by decide)
    (by decide)
  exact absurd same.1 (by decide)

end SandboxTables

end Copr
