import Copr.Lib.Memo
import Copr.Lib.Text
import Copr.Frontend.Models
import Copr.Frontend.CoprChroots

/-!
# The chroot of a repo file

`render_generate_repo_file_cached` looks for the chroot of the requested distribution by its name,
`release-version-arch`, and its answer is given again for five minutes. When the chroot is one of
the distribution that was meant.
-/

namespace Copr

/-! ## Chroots of a project -/

/-- A row of `copr_chroots` with the mock chroot it refers to. -/
structure ProjectChroot where
  /-- The row. -/
  row : CoprChroot
  /-- `mock_chroot`. -/
  mockChroot : MockChroot
  /-- `mock_chroot.is_active`. -/
  isActive : Bool
  /-- `mock_chroot.rolling`. -/
  rolling : Bool
  deriving DecidableEq, Repr

/-- `delete_status`; `none` when it raises `RuntimeError`. -/
def ProjectChroot.deleteStatus (cc : ProjectChroot) (now : DateTime) :
    Option ChrootDeletionStatus :=
  cc.row.deleteStatus cc.isActive cc.rolling now

/-- What a repo file is rendered from. -/
structure RepoProject where
  /-- `id` of the directory, which its `repr` shows. -/
  dirId : Nat
  /-- `full_name`. -/
  fullName : String
  /-- `repo_url` of the directory, with a slash at its end. -/
  url : String
  /-- `multilib`. -/
  multilib : Bool
  /-- `copr_chroots`. -/
  coprChroots : List ProjectChroot

/-- `permissible_states`. -/
def permissibleStates : List ChrootDeletionStatus := [.active, .preserved]

/-- `[cc for cc in copr_chroots if cc.delete_status in permissible_states]`. -/
def permissibleAmong (now : DateTime) : List ProjectChroot → Option (List ProjectChroot)
  | [] => some []
  | cc :: others => do
    let status ← cc.deleteStatus now
    let permissible ← permissibleAmong now others
    return if permissibleStates.contains status then cc :: permissible else permissible

/-- `MockChroot.multilib_pairs`. -/
def MockChroot.multilibPairs : String → Option String
  | "x86_64" => some "i386"
  | _ => none

namespace RepoProject

/-- `active_chroots`. -/
def activeChroots (copr : RepoProject) : List MockChroot :=
  (copr.coprChroots.filter fun c => c.isActive && !c.row.deleted).map ProjectChroot.mockChroot

/-- `enable_permissible_chroots`; `none` when it raises `RuntimeError`. -/
def enablePermissibleChroots (copr : RepoProject) (now : DateTime) : Option (List MockChroot) :=
  (permissibleAmong now copr.coprChroots).map (List.map ProjectChroot.mockChroot)

/-- `active_multilib_chroots`. -/
def activeMultilibChroots (copr : RepoProject) : List MockChroot :=
  let chrootNames := copr.activeChroots.map MockChroot.name
  copr.activeChroots.filter fun chroot =>
    match MockChroot.multilibPairs chroot.arch with
    | none => false
    | some pair => chrootNames.contains (chroot.osRelease ++ "-" ++ chroot.osVersion ++ "-" ++ pair)

end RepoProject

/-! ## The repo file -/

/-- `posixpath.join`. -/
def posixJoin (path name : String) : String :=
  if Text.startswith name "/" then name
  else if path = "" ∨ path.toList.getLast? = some '/' then path ++ name
  else path ++ "/" ++ name

/-- `arch`, unless it is missing or empty. -/
def givenArch : Option String → Option String
  | none => none
  | some "" => none
  | some arch => some arch

/-- `generate_repo_url`. -/
def generateRepoUrl (mockChroot : MockChroot) (url : String) (arch : Option String) : String :=
  let osVersion := mockChroot.osVersion
  let osVersion := if mockChroot.osRelease = "fedora" then "$releasever" else osVersion
  let osVersion := if mockChroot.osRelease = "centos-stream" then "$releasever" else osVersion
  let osVersion := if mockChroot.osRelease = "opensuse-leap" then "$releasever" else osVersion
  let osVersion :=
    if mockChroot.osRelease = "mageia" then
      if mockChroot.osVersion ≠ "cauldron" then "$releasever" else osVersion
    else osVersion
  posixJoin url (mockChroot.osRelease ++ "-" ++ osVersion ++ "-" ++
    (givenArch arch).getD "$basearch" ++ "/")

/-- Why there is no repo file. -/
inductive RepoFileError
  /-- `ObjectNotFound`, with its message and the chroots in the header for the dnf plugin; both
  list them in the order of a set. -/
  | objectNotFound (message : String) (available : List String)
  /-- `RuntimeError` of `delete_status`. -/
  | runtimeError
  deriving DecidableEq, Repr

/-- A repo file, up to the sections of other projects and repositories. -/
structure RepoFile where
  /-- The chroot all sections are rendered for. -/
  mockChroot : MockChroot
  /-- `baseurl` of the section of the project, and of its multilib counterpart. -/
  baseurls : List String
  deriving DecidableEq, Repr

/-- `name_release`, redirected by the alias only if it is not enabled yet. -/
def redirected (aliases : String → Option String) (copr : RepoProject) (nameRelease : String) :
    String :=
  if !copr.activeChroots.any fun ch => Text.startswith ch.name nameRelease then
    (aliases nameRelease).getD nameRelease
  else nameRelease

/-- `searched_chroot`. -/
def searchedChroot (nameRelease : String) (arch : Option String) : String :=
  match givenArch arch with
  | none => nameRelease
  | some arch => nameRelease ++ "-" ++ arch

/-- The last chroot whose name starts with a text. -/
def lastStarting (searched : String) (chroots : List MockChroot) : Option MockChroot :=
  chroots.foldl (fun found mc => if !Text.startswith mc.name searched then found else some mc) none

/-- `html_error_msg`. -/
def notFoundMessage (searched fullName : String) (enabled : List String) : String :=
  "Chroot " ++ searched ++ " does not exist in " ++ fullName ++ ".\n" ++
    if enabled.isEmpty then "There are no enabled chroots in " ++ fullName ++ "."
    else "Available chroots:\n" ++ String.join (enabled.map (· ++ "\n"))

/-- The body of `render_generate_repo_file_cached`. -/
def renderGenerateRepoFile (aliases : String → Option String) (copr : RepoProject)
    (now : DateTime) (nameRelease : String) (arch : Option String) :
    Except RepoFileError RepoFile :=
  let searched := searchedChroot (redirected aliases copr nameRelease) arch
  match copr.enablePermissibleChroots now with
  | none => .error .runtimeError
  | some permissible =>
    match lastStarting searched permissible with
    | none =>
      let available := permissible.dedup.map MockChroot.name
      .error (.objectNotFound (notFoundMessage searched copr.fullName available) available)
    | some mockChroot =>
      let multilibOn := (givenArch arch).isSome && copr.multilib &&
        copr.activeMultilibChroots.contains mockChroot
      .ok {
        mockChroot := mockChroot
        baseurls :=
          if multilibOn then
            [generateRepoUrl mockChroot copr.url none,
              generateRepoUrl mockChroot copr.url (MockChroot.multilibPairs mockChroot.arch)]
          else [generateRepoUrl mockChroot copr.url none] }

/-- A call of `render_generate_repo_file_cached`. -/
structure RepoRequest where
  /-- `copr_dir`, as it is in the database at this time. -/
  copr : RepoProject
  /-- The time. -/
  now : DateTime
  /-- `name_release`. -/
  nameRelease : String
  /-- `arch`. -/
  arch : Option String

/-- What `cache.memoize` tells calls apart by: the `repr` of the arguments. -/
structure RepoKey where
  /-- `copr_dir`. -/
  dirId : Nat
  /-- `name_release`. -/
  nameRelease : String
  /-- `arch`. -/
  arch : Option String
  deriving DecidableEq, Repr

/-- The key of a call. -/
def RepoRequest.key (request : RepoRequest) : RepoKey :=
  ⟨request.copr.dirId, request.nameRelease, request.arch⟩

/-- The body of the function for a call. -/
def RepoRequest.render (aliases : String → Option String) (request : RepoRequest) :
    Except RepoFileError RepoFile :=
  renderGenerateRepoFile aliases request.copr request.now request.nameRelease request.arch

/-- What the cache remembers of the function. -/
abbrev RepoCache := AList fun _ : RepoKey => Memo.Dated RepoFile

/-- `timeout=5*60`. -/
def repoTimeout : Int := 5 * 60

/-- The answer that the cache has for a call. -/
def RepoRequest.remembered (cache : RepoCache) (request : RepoRequest) : Option RepoFile :=
  Memo.unexpired RepoRequest.key repoTimeout RepoRequest.now cache request

/-- `render_generate_repo_file_cached`, with the cache after it. -/
def renderGenerateRepoFileCached (aliases : String → Option String) (cache : RepoCache)
    (request : RepoRequest) : Except RepoFileError RepoFile × RepoCache :=
  Memo.askDated RepoRequest.key repoTimeout (RepoRequest.render aliases) RepoRequest.now cache
    request

/-- The cache after some calls. -/
def cacheAfter (aliases : String → Option String) (requests : List RepoRequest) : RepoCache :=
  Memo.askAllDated RepoRequest.key repoTimeout (RepoRequest.render aliases) RepoRequest.now ∅
    requests

/-! ## Which chroot is used -/

section Selection

variable {now : DateTime} {searched : String}

/-- The permissible chroots are known when no `delete_status` raises. -/
theorem permissibleAmong_isSome {chroots : List ProjectChroot} :
    (permissibleAmong now chroots).isSome = true ↔
      ∀ cc ∈ chroots, (cc.deleteStatus now).isSome = true := by
  induction chroots with
  | nil => simp [permissibleAmong]
  | cons cc others ih =>
    rw [permissibleAmong, List.forall_mem_cons, ← ih]
    cases cc.deleteStatus now with
    | none => simp
    | some status =>
      cases permissibleAmong now others with
      | none => simp
      | some permissible => simp

/-- The permissible chroots are the active and the preserved ones. -/
theorem mem_permissibleAmong {chroots permissible : List ProjectChroot}
    (known : permissibleAmong now chroots = some permissible) (cc : ProjectChroot) :
    cc ∈ permissible ↔ cc ∈ chroots ∧
      (cc.deleteStatus now = some .active ∨ cc.deleteStatus now = some .preserved) := by
  induction chroots generalizing permissible with
  | nil =>
    rw [permissibleAmong, Option.some_inj] at known
    simp [← known]
  | cons first others ih =>
    rw [permissibleAmong] at known
    cases status : first.deleteStatus now with
    | none => simp [status] at known
    | some state =>
      cases rest : permissibleAmong now others with
      | none => simp [status, rest] at known
      | some kept =>
        have later := ih rest
        simp only [status, rest, Option.bind_eq_bind, Option.bind_some, Option.pure_def,
          Option.some_inj] at known
        rw [← known, List.mem_cons]
        by_cases same : cc = first
        · rw [same] at later ⊢
          cases state <;> simp [permissibleStates, status, later]
        · have other : cc ∈ (if permissibleStates.contains state = true then first :: kept
              else kept) ↔ cc ∈ kept := by
            split
            · simp [same]
            · rfl
          rw [other, later]
          simp [same]

/-- The chroots are searched from the end. -/
theorem lastStarting_eq_find (chroots : List MockChroot) :
    lastStarting searched chroots =
      chroots.reverse.find? fun mc => Text.startswith mc.name searched := by
  induction chroots using List.reverseRecOn with
  | nil => rfl
  | append_singleton others last ih =>
    rw [lastStarting, List.foldl_append, List.foldl_cons, List.foldl_nil, List.reverse_append,
      List.reverse_singleton, List.singleton_append, List.find?_cons, ← ih]
    cases Text.startswith last.name searched with
    | true => rfl
    | false => rfl

/-- The used chroot is the last one that starts with the text. -/
theorem lastStarting_eq_some {chroots : List MockChroot} {mc : MockChroot} :
    lastStarting searched chroots = some mc ↔ Text.startswith mc.name searched = true ∧
      ∃ before after, chroots = before ++ mc :: after ∧
        ∀ later ∈ after, Text.startswith later.name searched = false := by
  rw [lastStarting_eq_find, List.find?_eq_some_iff_append]
  apply and_congr_right
  intro _
  constructor
  · intro ⟨after, before, split, off⟩
    have order := congrArg List.reverse split
    rw [List.reverse_reverse, List.reverse_append, List.reverse_cons, List.append_assoc] at order
    exact ⟨before.reverse, after.reverse, order, fun later member => by
      simpa using off later (List.mem_reverse.mp member)⟩
  · intro ⟨before, after, split, off⟩
    refine ⟨after.reverse, before.reverse, by rw [split]; simp, fun later member => ?_⟩
    simpa using off later (List.mem_reverse.mp member)

/-- No chroot is used when none starts with the text. -/
theorem lastStarting_eq_none {chroots : List MockChroot} :
    lastStarting searched chroots = none ↔
      ∀ mc ∈ chroots, Text.startswith mc.name searched = false := by
  rw [lastStarting_eq_find, List.find?_eq_none]
  simp

/-- A chroot in the middle of the list is used unless a later one starts with the text. -/
theorem lastStarting_append {before after : List MockChroot} {mc : MockChroot}
    (begins : Text.startswith mc.name searched = true) :
    lastStarting searched (before ++ mc :: after) =
      some ((lastStarting searched after).getD mc) := by
  rw [lastStarting_eq_find, lastStarting_eq_find, List.reverse_append, List.reverse_cons,
    List.append_assoc, List.find?_append, List.singleton_append, List.find?_cons, begins]
  cases after.reverse.find? fun mc => Text.startswith mc.name searched with
  | none => rfl
  | some later => rfl

end Selection

/-! ## What was asked for -/

/-- The distribution that was meant: the requested one if it is enabled, and else its alias. -/
def meantRelease (aliases : String → Option String) (copr : RepoProject) (nameRelease : String) :
    String :=
  if ∃ ch ∈ copr.activeChroots, ch.nameRelease = nameRelease then nameRelease
  else (aliases nameRelease).getD nameRelease

/-- A chroot of the distribution and the architecture that are wanted. -/
def MockChroot.Wanted (nameRelease : String) (arch : Option String) (mc : MockChroot) : Prop :=
  mc.nameRelease = nameRelease ∧ ∀ given, arch = some given → mc.arch = given

/-- The chroot is enabled in the project or preserved. -/
def RepoProject.Permissible (copr : RepoProject) (now : DateTime) (mc : MockChroot) : Prop :=
  ∃ cc ∈ copr.coprChroots, cc.mockChroot = mc ∧
    (cc.deleteStatus now = some .active ∨ cc.deleteStatus now = some .preserved)

section Requests

variable (aliases : String → Option String) (copr : RepoProject) (now : DateTime)
  (nameRelease : String) (arch : Option String)

/-- The chroot can be used for a request. -/
def Suitable (mc : MockChroot) : Prop :=
  copr.Permissible now mc ∧ mc.Wanted (meantRelease aliases copr nameRelease) arch

/-- The answer to a request is for a suitable chroot, and `ObjectNotFound` exactly when there is
none. -/
structure ServesMeant (answer : Except RepoFileError RepoFile) : Prop where
  /-- A suitable chroot is used when there is one. -/
  used : (∃ mc, Suitable aliases copr now nameRelease arch mc) →
    ∃ file, answer = .ok file ∧ Suitable aliases copr now nameRelease arch file.mockChroot
  /-- Nothing is found exactly when there is none. -/
  notFound : (∃ message available, answer = .error (.objectNotFound message available)) ↔
    ¬∃ mc, Suitable aliases copr now nameRelease arch mc

/-- The text in front of the name of a chroot that is used. -/
def searchedText : String := searchedChroot (redirected aliases copr nameRelease) arch

/-- The beginning of a name tells the chroots of a project apart as far as the request needs. -/
structure Unambiguous : Prop where
  /-- No `delete_status` raises. -/
  defined : ∀ cc ∈ copr.coprChroots, (cc.deleteStatus now).isSome = true
  /-- A chroot that only starts with the text is followed by a suitable one. -/
  followed : ∀ before mc after,
    copr.enablePermissibleChroots now = some (before ++ mc :: after) →
    Text.startswith mc.name (searchedText aliases copr nameRelease arch) = true →
    ¬mc.Wanted (meantRelease aliases copr nameRelease) arch →
      ∃ later ∈ after,
        Text.startswith later.name (searchedText aliases copr nameRelease arch) = true ∧
          later.Wanted (meantRelease aliases copr nameRelease) arch
  /-- When the name is only the beginning of enabled ones, a chroot that is suitable by its alias
  does not get lost. -/
  aliased : (∃ ch ∈ copr.activeChroots, Text.startswith ch.name nameRelease = true) →
    (∀ ch ∈ copr.activeChroots, ch.nameRelease ≠ nameRelease) →
    (∃ mc, Suitable aliases copr now nameRelease arch mc) →
      ∃ mc, copr.Permissible now mc ∧
        Text.startswith mc.name (searchedChroot nameRelease arch) = true

end Requests

section Served

variable {aliases : String → Option String} {copr : RepoProject} {now : DateTime}
  {nameRelease : String} {arch : Option String}

/-- The name of a chroot starts with its release. -/
theorem MockChroot.startswith_nameRelease (mc : MockChroot) :
    Text.startswith mc.name mc.nameRelease = true := by
  rw [Text.startswith_iff]
  exact ⟨("-" ++ mc.arch).toList, by simp [name, nameRelease]⟩

/-- The name of a wanted chroot starts with the text for its distribution. -/
theorem MockChroot.Wanted.startswith {mc : MockChroot} (wanted : mc.Wanted nameRelease arch) :
    Text.startswith mc.name (searchedChroot nameRelease arch) = true := by
  have ⟨release, given⟩ := wanted
  unfold searchedChroot
  split
  · rw [← release]
    exact mc.startswith_nameRelease
  · rename_i own found
    have named : arch = some own := by
      unfold givenArch at found
      split at found <;> simp_all
    rw [Text.startswith_iff, ← release, ← given own named]
    exact ⟨[], by simp [name, MockChroot.nameRelease]⟩

/-- The permissible chroots of a project without undefined ones. -/
theorem RepoProject.mem_enablePermissibleChroots {permissible : List MockChroot}
    (known : copr.enablePermissibleChroots now = some permissible) (mc : MockChroot) :
    mc ∈ permissible ↔ copr.Permissible now mc := by
  unfold enablePermissibleChroots at known
  have ⟨rows, found, same⟩ := Option.map_eq_some_iff.mp known
  rw [← same, List.mem_map]
  constructor
  · intro ⟨cc, member, own⟩
    have ⟨listed, status⟩ := (mem_permissibleAmong found cc).mp member
    exact ⟨cc, listed, own, status⟩
  · intro ⟨cc, listed, own, status⟩
    exact ⟨cc, (mem_permissibleAmong found cc).mpr ⟨listed, status⟩, own⟩

/-- There are permissible chroots when every status is defined. -/
theorem RepoProject.enablePermissibleChroots_isSome :
    (copr.enablePermissibleChroots now).isSome = true ↔
      ∀ cc ∈ copr.coprChroots, (cc.deleteStatus now).isSome = true := by
  rw [enablePermissibleChroots, Option.isSome_map, permissibleAmong_isSome]

/-- The alias is used as it was meant, or the name is only the beginning of enabled ones. -/
theorem redirected_cases :
    redirected aliases copr nameRelease = meantRelease aliases copr nameRelease ∨
      ((∃ ch ∈ copr.activeChroots, Text.startswith ch.name nameRelease = true) ∧
        (∀ ch ∈ copr.activeChroots, ch.nameRelease ≠ nameRelease) ∧
        redirected aliases copr nameRelease = nameRelease) := by
  unfold redirected meantRelease
  by_cases starts : ∃ ch ∈ copr.activeChroots, Text.startswith ch.name nameRelease = true
  · rw [List.any_eq_true.mpr starts]
    by_cases enabled : ∃ ch ∈ copr.activeChroots, ch.nameRelease = nameRelease
    · left
      rw [if_pos enabled]
      rfl
    · right
      exact ⟨starts, fun ch member same => enabled ⟨ch, member, same⟩, rfl⟩
  · left
    have enabled : ¬∃ ch ∈ copr.activeChroots, ch.nameRelease = nameRelease := by
      intro ⟨ch, member, same⟩
      exact starts ⟨ch, member, same ▸ ch.startswith_nameRelease⟩
    rw [if_neg enabled, if_pos]
    simpa using starts

/-- The chroot of a repo file is the last one that starts with the text. -/
theorem render_ok_iff {mc : MockChroot} :
    (∃ file, renderGenerateRepoFile aliases copr now nameRelease arch = .ok file ∧
      file.mockChroot = mc) ↔
    ∃ permissible, copr.enablePermissibleChroots now = some permissible ∧
      lastStarting (searchedText aliases copr nameRelease arch) permissible = some mc := by
  simp only [renderGenerateRepoFile, searchedText]
  cases copr.enablePermissibleChroots now with
  | none => simp
  | some permissible =>
    cases found : lastStarting (searchedChroot (redirected aliases copr nameRelease) arch)
        permissible with
    | none => simp [found]
    | some used => simp [found]

/-- Nothing is found when no name starts with the text. -/
theorem render_notFound_iff :
    (∃ message available, renderGenerateRepoFile aliases copr now nameRelease arch =
      .error (.objectNotFound message available)) ↔
    ∃ permissible, copr.enablePermissibleChroots now = some permissible ∧
      lastStarting (searchedText aliases copr nameRelease arch) permissible = none := by
  simp only [renderGenerateRepoFile, searchedText]
  cases copr.enablePermissibleChroots now with
  | none => simp
  | some permissible =>
    cases found : lastStarting (searchedChroot (redirected aliases copr nameRelease) arch)
        permissible with
    | none => simp [found]
    | some used => simp [found]

/-- A suitable chroot is found by the beginning of its name. -/
theorem Unambiguous.exists_starting
    (unambiguous : Unambiguous aliases copr now nameRelease arch)
    (suitable : ∃ mc, Suitable aliases copr now nameRelease arch mc) :
    ∃ mc, copr.Permissible now mc ∧
      Text.startswith mc.name (searchedText aliases copr nameRelease arch) = true := by
  cases @redirected_cases aliases copr nameRelease with
  | inl meant =>
    have ⟨mc, permissible, wanted⟩ := suitable
    refine ⟨mc, permissible, ?_⟩
    rw [searchedText, meant]
    exact wanted.startswith
  | inr mistaken =>
    have ⟨starts, other, same⟩ := mistaken
    rw [searchedText, same]
    exact unambiguous.aliased starts other suitable

/-- A chroot that is found is suitable. -/
theorem Unambiguous.wanted_of_found
    (unambiguous : Unambiguous aliases copr now nameRelease arch) {permissible : List MockChroot}
    (known : copr.enablePermissibleChroots now = some permissible) {mc : MockChroot}
    (found : lastStarting (searchedText aliases copr nameRelease arch) permissible = some mc) :
    Suitable aliases copr now nameRelease arch mc := by
  have ⟨begins, before, after, split, off⟩ := lastStarting_eq_some.mp found
  have listed : mc ∈ permissible := by simp [split]
  refine ⟨(copr.mem_enablePermissibleChroots known mc).mp listed, ?_⟩
  by_contra other
  have ⟨later, member, starts, _⟩ :=
    unambiguous.followed before mc after (split ▸ known) begins other
  rw [off later member] at starts
  contradiction

/-- A file is rendered as it was meant exactly when the beginnings of the names are unambiguous. -/
theorem renders_meant_iff :
    ServesMeant aliases copr now nameRelease arch
        (renderGenerateRepoFile aliases copr now nameRelease arch) ↔
      Unambiguous aliases copr now nameRelease arch := by
  constructor
  · intro served
    have known : (copr.enablePermissibleChroots now).isSome = true := by
      by_cases suitable : ∃ mc, Suitable aliases copr now nameRelease arch mc
      · have ⟨file, rendered, _⟩ := served.used suitable
        have ⟨permissible, given, _⟩ := render_ok_iff.mp ⟨file, rendered, rfl⟩
        rw [given]
        rfl
      · have ⟨permissible, given, _⟩ := render_notFound_iff.mp (served.notFound.mpr suitable)
        rw [given]
        rfl
    have use : ∀ {permissible mc}, copr.enablePermissibleChroots now = some permissible →
        lastStarting (searchedText aliases copr nameRelease arch) permissible = some mc →
          Suitable aliases copr now nameRelease arch mc := by
      intro permissible mc given found
      have ⟨file, rendered, same⟩ := render_ok_iff.mpr ⟨permissible, given, found⟩
      have suitable : ∃ mc, Suitable aliases copr now nameRelease arch mc := by
        by_contra lacking
        have ⟨message, available, failed⟩ := served.notFound.mpr lacking
        rw [rendered] at failed
        contradiction
      have ⟨other, also, suits⟩ := served.used suitable
      rw [rendered, Except.ok.injEq] at also
      rw [← same, also]
      exact suits
    constructor
    · exact RepoProject.enablePermissibleChroots_isSome.mp known
    · intro before mc after given begins other
      have found := @lastStarting_append _ before after mc begins
      cases next : lastStarting (searchedText aliases copr nameRelease arch) after with
      | none =>
        rw [next] at found
        exact absurd (use given found).2 other
      | some later =>
        rw [next] at found
        have ⟨starts, front, back, split, _⟩ := lastStarting_eq_some.mp next
        exact ⟨later, by simp [split], starts, (use given found).2⟩
    · intro starts other suitable
      have ⟨file, rendered, suits⟩ := served.used suitable
      have ⟨permissible, _, found⟩ := render_ok_iff.mp ⟨file, rendered, rfl⟩
      have ⟨begins, _⟩ := lastStarting_eq_some.mp found
      have kept : redirected aliases copr nameRelease = nameRelease := by
        rw [redirected, List.any_eq_true.mpr starts]
        rfl
      rw [searchedText, kept] at begins
      exact ⟨file.mockChroot, suits.1, begins⟩
  · intro unambiguous
    have ⟨permissible, known⟩ := Option.isSome_iff_exists.mp
      (RepoProject.enablePermissibleChroots_isSome.mpr unambiguous.defined)
    cases found : lastStarting (searchedText aliases copr nameRelease arch) permissible with
    | none =>
      have lacking : ¬∃ mc, Suitable aliases copr now nameRelease arch mc := by
        intro suitable
        have ⟨mc, given, starts⟩ := unambiguous.exists_starting suitable
        have listed := (copr.mem_enablePermissibleChroots known mc).mpr given
        rw [lastStarting_eq_none.mp found mc listed] at starts
        contradiction
      have missed := render_notFound_iff.mpr ⟨permissible, known, found⟩
      exact ⟨fun suitable => absurd suitable lacking, fun _ => lacking, fun _ => missed⟩
    | some mc =>
      have suits := unambiguous.wanted_of_found known found
      have ⟨file, rendered, same⟩ := render_ok_iff.mpr ⟨permissible, known, found⟩
      constructor
      · intro _
        exact ⟨file, rendered, same ▸ suits⟩
      · constructor
        · intro ⟨message, available, failed⟩
          rw [rendered] at failed
          contradiction
        · intro lacking
          exact absurd ⟨mc, suits⟩ lacking

/-- A file that is given again is as it was meant exactly when its chroot is. -/
theorem given_again_iff {file : RepoFile} :
    ServesMeant aliases copr now nameRelease arch (.ok file) ↔
      Suitable aliases copr now nameRelease arch file.mockChroot := by
  constructor
  · intro served
    by_contra other
    have lacking : ¬∃ mc, Suitable aliases copr now nameRelease arch mc := by
      intro suitable
      have ⟨used, same, suits⟩ := served.used suitable
      rw [Except.ok.injEq] at same
      exact other (same ▸ suits)
    have ⟨message, available, failed⟩ := served.notFound.mpr lacking
    contradiction
  · intro suits
    refine ⟨fun _ => ⟨file, rfl, suits⟩, ?_, fun lacking => absurd ⟨_, suits⟩ lacking⟩
    intro ⟨message, available, failed⟩
    contradiction

/-- A file that the cache gives again was rendered within the last five minutes for the same
directory, name and architecture, from the project as it was then. -/
theorem remembered_rendered {earlier : List RepoRequest} {request : RepoRequest} {file : RepoFile}
    (known : request.remembered (cacheAfter aliases earlier) = some file) :
    ∃ before ∈ earlier, before.key = request.key ∧ request.now < before.now + repoTimeout ∧
      renderGenerateRepoFile aliases before.copr before.now before.nameRelease before.arch =
        .ok file :=
  Memo.unexpired_askAllDated known

/-- The request can be answered as it was meant: from the names of the chroots when the answer is
rendered, and with a chroot that is still suitable when it is given again. -/
structure AnswersMeant (aliases : String → Option String) (cache : RepoCache)
    (request : RepoRequest) : Prop where
  /-- Nothing is remembered, and the beginnings of the names are unambiguous. -/
  rendered : request.remembered cache = none →
    Unambiguous aliases request.copr request.now request.nameRelease request.arch
  /-- The chroot that the remembered file was rendered for is suitable now. -/
  remembered : ∀ file, request.remembered cache = some file →
    Suitable aliases request.copr request.now request.nameRelease request.arch file.mockChroot

/-- A request is served as it was meant exactly when the beginnings of the names are unambiguous,
or the chroot of the remembered answer is still a suitable one. -/
theorem serves_meant_iff (aliases : String → Option String) (cache : RepoCache)
    (request : RepoRequest) :
    ServesMeant aliases request.copr request.now request.nameRelease request.arch
        (renderGenerateRepoFileCached aliases cache request).1 ↔
      AnswersMeant aliases cache request := by
  cases known : request.remembered cache with
  | none =>
    have answer : (renderGenerateRepoFileCached aliases cache request).1 =
        renderGenerateRepoFile aliases request.copr request.now request.nameRelease
          request.arch :=
      Memo.askDated_of_unexpired_none known
    rw [answer, renders_meant_iff]
    constructor
    · intro unambiguous
      constructor
      · intro _
        exact unambiguous
      · intro file found
        rw [known] at found
        contradiction
    · intro meant
      exact meant.rendered known
  | some file =>
    have answer : (renderGenerateRepoFileCached aliases cache request).1 = .ok file :=
      Memo.askDated_of_unexpired_some known
    rw [answer, given_again_iff]
    constructor
    · intro suits
      constructor
      · intro missing
        rw [known] at missing
        contradiction
      · intro other found
        rw [known, Option.some_inj] at found
        exact found ▸ suits
    · intro meant
      exact meant.remembered file known

/-- EPEL 10 is enabled, the fictional EPEL 1 is requested. -/
def epelTen : RepoProject where
  dirId := 1
  fullName := "user/project"
  url := "https://copr.example/results/user/project/"
  multilib := false
  coprChroots := [⟨⟨1, "epel-10-x86_64", {}, false, none, none, none⟩,
    ⟨"epel", "10", "x86_64", "epel10"⟩, true, false⟩]

/-- The first one who asks for the repository of `epel-1`. -/
def epelOneRequest : RepoRequest where
  copr := epelTen
  now := 0
  nameRelease := "epel-1"
  arch := none

/-- Who asks for the repository of `epel-1` gets the one of `epel-10`, also when nothing is
remembered. -/
theorem prefix_served :
    (renderGenerateRepoFileCached (fun _ => none) ∅ epelOneRequest).1.toOption.map
        RepoFile.baseurls =
      some ["https://copr.example/results/user/project/epel-10-$basearch/"] ∧
    ¬ServesMeant (fun _ => none) epelTen 0 "epel-1" none
      (renderGenerateRepoFileCached (fun _ => none) ∅ epelOneRequest).1 := by
  have rendered : ∃ file,
      (renderGenerateRepoFileCached (fun _ => none) ∅ epelOneRequest).1 = .ok file ∧
      file.baseurls = ["https://copr.example/results/user/project/epel-10-$basearch/"] :=
    ⟨_, rfl, by decide⟩
  have ⟨file, ok, urls⟩ := rendered
  constructor
  · rw [ok]
    simp [Except.toOption, urls]
  · intro served
    have lacking : ¬∃ mc, Suitable (fun _ => none) epelTen 0 "epel-1" none mc := by
      intro ⟨mc, ⟨cc, listed, same, _⟩, wanted, _⟩
      rw [List.mem_singleton.mp listed] at same
      rw [← same] at wanted
      revert wanted
      decide
    have ⟨message, available, failed⟩ := served.notFound.mpr lacking
    rw [ok] at failed
    contradiction

end Served

end Copr
