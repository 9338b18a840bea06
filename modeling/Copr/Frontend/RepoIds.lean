import Copr.Lib.Loops
import Copr.Frontend.RepoAddresses

/-!
# Ids of repositories

The id of an additional repository is what letters and digits its URL is made of, the base URL is
the URL expanded. Whether the ids of a build configuration tell its repositories apart, and whether
there is a build configuration at all, for lists of URLs that were accepted.
-/

namespace Copr.BuildConfigLogic

/-! ## Ids -/

/-- URLs with the same runs, and no others, have the same id. -/
theorem generateRepoName_eq_iff {u v : String} :
    generateRepoName u = generateRepoName v ↔ alnumRuns u = alnumRuns v := by
  have runs : ∀ l : List Char,
      Tokens.words '_' (l.map fun c => if c.isAlphanum then c else '_') =
        Tokens.runs Char.isAlphanum l := by
    refine Tokens.words_map (fun c kept => ?_) (fun c other => ?_)
    · refine ⟨by rw [if_pos kept], ?_⟩
      rintro rfl
      exact absurd kept (by decide)
    · rw [if_neg (by rw [other]; decide)]
  unfold generateRepoName alnumRuns
  rw [String.ofList_inj, Tokens.trim_squeeze_eq_iff, runs, runs]

section Configurations

variable {lib : UrlLibrary} {view : FrontendView} {coprdir : BuildDir} {chrootId : String}

/-- The ids of the project's own repositories. -/
def ownIds : List String := ["copr_base", "copr_base_devel", "copr_coprdir"]

/-- The project's own repositories have these ids, each at most once. -/
theorem ownRepos_ids : ((ownRepos view coprdir chrootId).map RepoView.id).Sublist ownIds := by
  have ids : (ownRepos view coprdir chrootId).map RepoView.id =
      ["copr_base"] ++ (if coprdir.copr.autoCreaterepo then [] else ["copr_base_devel"]) ++
        if coprdir.main then [] else ["copr_coprdir"] := by
    simp only [ownRepos, List.map_append, apply_ite (List.map RepoView.id), List.map_cons,
      List.map_nil]
  rw [ids]
  cases coprdir.copr.autoCreaterepo with
  | false => cases coprdir.main with
    | false => decide
    | true => decide
  | true => cases coprdir.main with
    | false => decide
    | true => decide

/-- An id of the project's own repositories is the id of a URL that is made of the same runs. -/
theorem generateRepoName_own {own : RepoView} (member : own ∈ ownRepos view coprdir chrootId) :
    generateRepoName own.id = own.id := by
  have names : ∀ name ∈ ownIds, generateRepoName name = name := by decide
  exact names _ (ownRepos_ids.subset (List.mem_map_of_mem member))

/-- The project's own repositories have different ids. -/
theorem ownRepos_nodup : ((ownRepos view coprdir chrootId).map RepoView.id).Nodup := by
  have different : ownIds.Nodup := by decide
  exact different.sublist ownRepos_ids

end Configurations

/-! ## Accepted URLs -/

/-- A list of URLs was accepted, whatever projects there were at that time. -/
def Accepted (lib : UrlLibrary) (text : String) : Prop :=
  ∃ existing, urlRepoListValidator lib existing text = true

/-- What an accepted URL is for the functions that read it. -/
def Readable (lib : UrlLibrary) (url : String) : Prop :=
  ∃ parsed, lib.urlparse url = some parsed ∧
    (parsed.scheme = "copr" →
      parsed.netloc ≠ "" ∧ ∃ prj, (Text.split parsed.path '/')[1]? = some prj)

/-- The value that `parse_repo_params` takes for the priority. -/
def firstPriority (lib : UrlLibrary) (url : String) : Option String := do
  let parsed ← lib.urlparse url
  let entry ← (lib.parseQs parsed.query).find? fun entry => entry.1 == "priority"
  entry.2.head?

/-- A priority that consists of numeric characters is a number for `int`. -/
def NumericPriority (lib : UrlLibrary) (url : String) : Prop :=
  ∀ value ∈ firstPriority lib url, lib.chars.numeric value.toList = true →
    (lib.int value).isSome = true

instance NumericPriority.decidable (lib : UrlLibrary) (url : String) :
    Decidable (NumericPriority lib url) :=
  inferInstanceAs (Decidable (∀ value ∈ firstPriority lib url, _ → _))

section Readable

variable {lib : UrlLibrary} {view : FrontendView} {chrootId url : String}

/-- Accepted URLs can be read. -/
theorem Accepted.readable {text : String} (accepted : Accepted lib text)
    (member : url ∈ lib.words text) : Readable lib url := by
  obtain ⟨existing, all⟩ := accepted
  have accepts := beq_iff_eq.mp (List.all_eq_true.mp all url member)
  unfold isUrl at accepts
  obtain ⟨parsed, parse, accepts⟩ := Option.bind_eq_some_iff.mp accepts
  refine ⟨parsed, parse, fun copr => ?_⟩
  rw [if_pos copr] at accepts
  split at accepts
  · simp at accepts
  · split at accepts
    · simp at accepts
    · rename_i given
      cases project : (Text.split parsed.path '/')[1]? with
      | some prj => exact ⟨given, prj, rfl⟩
      | none => simp [project] at accepts

/-- The base URL of a URL that can be read. -/
theorem Readable.preProcessRepoUrl (readable : Readable lib url) :
    ∃ baseurl, preProcessRepoUrl lib view chrootId url = some baseurl := by
  obtain ⟨parsed, parse, named⟩ := readable
  unfold BuildConfigLogic.preProcessRepoUrl
  rw [parse]
  by_cases copr : parsed.scheme = "copr"
  · obtain ⟨-, prj, project⟩ := named copr
    simp [copr, project]
  · by_cases priority : (lib.parseQs parsed.query).any fun entry => entry.1 == "priority"
    · simp [copr, priority]
    · simp [copr, priority]

/-- A URL that can be read has an address. -/
theorem Readable.repoAddress (readable : Readable lib url) :
    ∃ a, repoAddress lib url = some a := by
  have ⟨baseurl, expanded⟩ :=
    @Readable.preProcessRepoUrl lib ⟨"", "", fun _ _ => none, fun _ _ => none⟩ "" url readable
  rw [preProcessRepoUrl_eq] at expanded
  have ⟨a, read, _⟩ := Option.map_eq_some_iff.mp expanded
  exact ⟨a, read⟩

/-- Two URLs that can be read are expanded to the same exactly when their addresses lead to the
same place. -/
theorem Readable.expanded_eq_iff {other : String} (readable : Readable lib url)
    (readable' : Readable lib other) :
    BuildConfigLogic.preProcessRepoUrl lib view chrootId url =
        BuildConfigLogic.preProcessRepoUrl lib view chrootId other ↔
      ∀ a b, BuildConfigLogic.repoAddress lib url = some a →
        BuildConfigLogic.repoAddress lib other = some b → SamePlace view chrootId a b := by
  have ⟨a, read⟩ := readable.repoAddress
  have ⟨b, read'⟩ := readable'.repoAddress
  have place := @samePlace_iff lib view chrootId a b ⟨url, read⟩ ⟨other, read'⟩
  rw [preProcessRepoUrl_eq, preProcessRepoUrl_eq, read, read', Option.map_some, Option.map_some,
    Option.some_inj, place]
  constructor
  · intro same a' b' first second
    rw [← Option.some.inj first, ← Option.some.inj second]
    exact same
  · intro all
    exact all a b rfl rfl

/-- A URL that can be read is expanded to the base URL of an own repository exactly when its
address is the place of that repository. -/
theorem Readable.expanded_own_iff {coprdir : BuildDir} {own : RepoView}
    (readable : Readable lib url) (member : own ∈ ownRepos view coprdir chrootId) :
    BuildConfigLogic.preProcessRepoUrl lib view chrootId url = some own.baseurl ↔
      ∀ a, BuildConfigLogic.repoAddress lib url = some a →
        OwnPlace view coprdir chrootId own a := by
  have ⟨a, read⟩ := readable.repoAddress
  rw [preProcessRepoUrl_eq, read, Option.map_some, Option.some_inj,
    ownPlace_iff ⟨url, read⟩ member]
  constructor
  · intro place a' same
    exact Option.some.inj same ▸ place
  · intro all
    exact all a rfl

/-- The project of a URL that can be read is looked up. -/
theorem Readable.getCoprByRepo (readable : Readable lib url) :
    ∃ copr, getCoprByRepo lib view url = some copr := by
  obtain ⟨parsed, parse, named⟩ := readable
  unfold BuildConfigLogic.getCoprByRepo
  rw [parse]
  simp only [Option.bind_eq_bind, Option.bind_some]
  split
  · rename_i copr
    split
    · rename_i pieces
      -- An empty owner needs an empty `netloc`, or one with a slash.
      obtain ⟨given, -⟩ := named copr
      rcases Text.first_piece_empty pieces with nothing | slash
      · rw [String.toList_append, List.append_eq_nil_iff, String.toList_eq_nil_iff] at nothing
        exact absurd nothing.1 given
      · obtain ⟨first, rest, letters⟩ :=
          List.exists_cons_of_ne_nil (mt String.toList_eq_nil_iff.mp given)
        rw [String.toList_append, letters, List.cons_append, List.head?_cons] at slash
        have separate := lib.netloc_slash url parsed parse
        rw [letters, Option.some.inj slash] at separate
        exact absurd List.mem_cons_self separate
    · exact ⟨_, rfl⟩
    · exact ⟨_, rfl⟩
  · exact ⟨_, rfl⟩

/-- The parameters of a URL that can be read are found unless `int` does not take a priority. -/
theorem Readable.parseRepoParams (readable : Readable lib url) :
    (∃ params, parseRepoParams lib url = some params) ↔ NumericPriority lib url := by
  obtain ⟨parsed, parse, -⟩ := readable
  unfold BuildConfigLogic.parseRepoParams NumericPriority firstPriority
  simp only [parse, Option.bind_eq_bind, Option.bind_some]
  cases found : (lib.parseQs parsed.query).find? fun entry => entry.1 == "priority" with
  | none => exact ⟨fun _ => nofun, fun _ => ⟨none, rfl⟩⟩
  | some entry =>
    have given := lib.parseQs_values _ entry (List.mem_of_find?_eq_some found)
    obtain ⟨value, more, values⟩ := List.exists_cons_of_ne_nil given
    have first : entry.2.head? = some value := by rw [values, List.head?_cons]
    simp only [first, Option.bind_some, Option.mem_some_iff, forall_eq']
    cases numeric : lib.chars.numeric value.toList with
    | false => exact ⟨fun _ => nofun, fun _ => ⟨_, rfl⟩⟩
    | true =>
      cases number : lib.int value with
      | none =>
        constructor
        · rintro ⟨params, none_⟩
          contradiction
        · intro reads
          exact absurd (reads rfl) (by simp)
      | some n => exact ⟨fun _ _ => rfl, fun _ => ⟨_, rfl⟩⟩

/-- What a repository in a build configuration has from its URL. -/
theorem additionalRepoView_spec {repo : RepoView}
    (done : additionalRepoView lib view chrootId url = some repo) :
    repo.id = generateRepoName url ∧
      preProcessRepoUrl lib view chrootId url = some repo.baseurl ∧
      ∃ params, parseRepoParams lib url = some params := by
  unfold additionalRepoView at done
  obtain ⟨params, parsed, done⟩ := Option.bind_eq_some_iff.mp done
  obtain ⟨baseurl, expanded, done⟩ := Option.bind_eq_some_iff.mp done
  obtain ⟨copr, found, done⟩ := Option.bind_eq_some_iff.mp done
  obtain rfl := Option.some.inj done
  exact ⟨rfl, expanded, params, parsed⟩

/-- The names of a repository are made from its URL. -/
theorem additionalRepoView_names {repo : RepoView}
    (done : additionalRepoView lib view chrootId url = some repo) :
    repo.id = generateRepoName url ∧ repo.name = "Additional repo " ++ generateRepoName url := by
  unfold additionalRepoView at done
  obtain ⟨params, -, done⟩ := Option.bind_eq_some_iff.mp done
  obtain ⟨baseurl, -, done⟩ := Option.bind_eq_some_iff.mp done
  obtain ⟨copr, -, done⟩ := Option.bind_eq_some_iff.mp done
  obtain rfl := Option.some.inj done
  exact ⟨rfl, rfl⟩

/-- A URL that can be read gives a repository unless `int` does not take its priority. -/
theorem Readable.additionalRepoView (readable : Readable lib url) :
    (∃ repo, additionalRepoView lib view chrootId url = some repo) ↔ NumericPriority lib url := by
  rw [← readable.parseRepoParams]
  constructor
  · rintro ⟨repo, done⟩
    obtain ⟨-, -, parsed⟩ := additionalRepoView_spec done
    exact parsed
  · rintro ⟨params, parsed⟩
    obtain ⟨baseurl, expanded⟩ := @Readable.preProcessRepoUrl lib view chrootId url readable
    obtain ⟨copr, found⟩ := @Readable.getCoprByRepo lib view url readable
    unfold BuildConfigLogic.additionalRepoView
    rw [parsed, expanded, found]
    exact ⟨_, rfl⟩

end Readable

/-! ## Build configurations -/

/-- The chroot of the project that is asked for. -/
def soughtChroot (coprdir : BuildDir) (chrootId : String) : Option ProjectChroot :=
  coprdir.copr.activeCoprChroots.find? fun c => c.mockChroot.name == chrootId

/-- The URLs of the additional repositories, on both levels. -/
def additionalUrls (lib : UrlLibrary) (coprdir : BuildDir) (chroot : ProjectChroot) :
    List String :=
  lib.words (coprdir.copr.repos.getD "") ++ lib.words chroot.row.config.repos

/-- Repositories with different base URLs have different ids. -/
def IdsIdentify (repos : List RepoView) : Prop :=
  ∀ a ∈ repos, ∀ b ∈ repos, a.baseurl ≠ b.baseurl → a.id ≠ b.id

/-- `generate_build_config` does not raise, and the ids in its result identify the
repositories. -/
def RightlyGenerated (lib : UrlLibrary) (view : FrontendView) (coprdir : BuildDir)
    (chrootId : String) : Prop :=
  ∃ result, generateBuildConfig lib view coprdir chrootId = some result ∧
    ∀ config, result = some config → IdsIdentify config.repos

instance IdsIdentify.decidable (repos : List RepoView) : Decidable (IdsIdentify repos) :=
  inferInstanceAs (Decidable (∀ a ∈ repos, ∀ b ∈ repos, _))

instance RightlyGenerated.decidable (lib : UrlLibrary) (view : FrontendView)
    (coprdir : BuildDir) (chrootId : String) :
    Decidable (RightlyGenerated lib view coprdir chrootId) :=
  inferInstanceAs (Decidable (∃ result ∈ generateBuildConfig lib view coprdir chrootId,
    ∀ config ∈ result, IdsIdentify config.repos))

/-- The additional repositories of a chroot can be told apart by letters and digits. -/
structure ToldApart (lib : UrlLibrary) (view : FrontendView) (coprdir : BuildDir)
    (chrootId : String) (chroot : ProjectChroot) : Prop where
  /-- `int` reads every priority that consists of numeric characters. -/
  numbers : ∀ url ∈ additionalUrls lib coprdir chroot, NumericPriority lib url
  /-- URLs with the same runs of letters and digits have addresses that lead to the same place. -/
  additional : ∀ u ∈ additionalUrls lib coprdir chroot, ∀ v ∈ additionalUrls lib coprdir chroot,
    alnumRuns u = alnumRuns v → ∀ a b, repoAddress lib u = some a → repoAddress lib v = some b →
      SamePlace view chrootId a b
  /-- A URL with the runs of an id of the project's own repositories has the address of that
  repository. -/
  own : ∀ u ∈ additionalUrls lib coprdir chroot, ∀ own ∈ ownRepos view coprdir chrootId,
    alnumRuns u = alnumRuns own.id → ∀ a, repoAddress lib u = some a →
      OwnPlace view coprdir chrootId own a

section Found

variable {lib : UrlLibrary} {view : FrontendView} {coprdir : BuildDir} {chrootId : String}
  {chroot : ProjectChroot}

/-- Without the chroot the dictionary is empty. -/
theorem generateBuildConfig_none (sought : soughtChroot coprdir chrootId = none) :
    generateBuildConfig lib view coprdir chrootId = some none := by
  unfold soughtChroot at sought
  unfold generateBuildConfig
  dsimp only
  rw [sought]

/-- The repositories of a build configuration are the project's own and the additional ones. -/
theorem mem_repos_of_generated {result : Option BuildConfigDict}
    (sought : soughtChroot coprdir chrootId = some chroot)
    (generated : generateBuildConfig lib view coprdir chrootId = some result) :
    ∃ config, result = some config ∧ ∀ repo, repo ∈ config.repos ↔
      repo ∈ ownRepos view coprdir chrootId ∨
        ∃ url ∈ additionalUrls lib coprdir chroot,
          additionalRepoView lib view chrootId url = some repo := by
  unfold soughtChroot at sought
  unfold generateBuildConfig at generated
  dsimp only at generated
  rw [sought] at generated
  obtain ⟨projectRepos, project, generated⟩ := Option.bind_eq_some_iff.mp generated
  obtain ⟨chrootRepos, ofChroot, generated⟩ := Option.bind_eq_some_iff.mp generated
  refine ⟨_, (Option.some.inj generated).symm, fun repo => ?_⟩
  simp only [List.mem_append, Loops.mem_of_mapM project, Loops.mem_of_mapM ofChroot,
    additionalUrls, or_and_right, exists_or, or_assoc]

/-- There is a build configuration when every URL gives a repository. -/
theorem generated_iff (sought : soughtChroot coprdir chrootId = some chroot) :
    (∃ result, generateBuildConfig lib view coprdir chrootId = some result) ↔
      ∀ url ∈ additionalUrls lib coprdir chroot,
        ∃ repo, additionalRepoView lib view chrootId url = some repo := by
  unfold soughtChroot at sought
  unfold generateBuildConfig additionalUrls
  dsimp only
  rw [sought, List.forall_mem_append, ← Loops.exists_mapM_iff, ← Loops.exists_mapM_iff]
  constructor
  · rintro ⟨result, generated⟩
    obtain ⟨projectRepos, project, generated⟩ := Option.bind_eq_some_iff.mp generated
    obtain ⟨chrootRepos, ofChroot, -⟩ := Option.bind_eq_some_iff.mp generated
    exact ⟨⟨projectRepos, project⟩, chrootRepos, ofChroot⟩
  · rintro ⟨⟨projectRepos, project⟩, chrootRepos, ofChroot⟩
    unfold getAdditionalRepoViews
    simp only [project, ofChroot, Option.bind_eq_bind, Option.bind_some]
    exact ⟨_, rfl⟩

/-- The ids of the repositories of a build configuration identify them when URLs with the same
runs are expanded to the same. -/
theorem idsIdentify_iff {repos : List RepoView}
    (numbers : ∀ url ∈ additionalUrls lib coprdir chroot,
      ∃ repo, additionalRepoView lib view chrootId url = some repo)
    (members : ∀ repo, repo ∈ repos ↔ repo ∈ ownRepos view coprdir chrootId ∨
      ∃ url ∈ additionalUrls lib coprdir chroot,
        additionalRepoView lib view chrootId url = some repo) :
    IdsIdentify repos ↔
      (∀ u ∈ additionalUrls lib coprdir chroot, ∀ v ∈ additionalUrls lib coprdir chroot,
        alnumRuns u = alnumRuns v →
          preProcessRepoUrl lib view chrootId u = preProcessRepoUrl lib view chrootId v) ∧
      ∀ u ∈ additionalUrls lib coprdir chroot, ∀ own ∈ ownRepos view coprdir chrootId,
        alnumRuns u = alnumRuns own.id →
          preProcessRepoUrl lib view chrootId u = some own.baseurl := by
  constructor
  · intro identify
    constructor
    · intro u inU v inV same
      obtain ⟨a, viewed⟩ := numbers u inU
      obtain ⟨b, viewed'⟩ := numbers v inV
      obtain ⟨id, expanded, -⟩ := additionalRepoView_spec viewed
      obtain ⟨id', expanded', -⟩ := additionalRepoView_spec viewed'
      rw [expanded, expanded']
      by_contra different
      refine identify a ((members a).mpr (.inr ⟨u, inU, viewed⟩)) b
        ((members b).mpr (.inr ⟨v, inV, viewed'⟩)) (mt (congrArg some) different) ?_
      rw [id, id', generateRepoName_eq_iff, same]
    · intro u inU own inOwn same
      obtain ⟨a, viewed⟩ := numbers u inU
      obtain ⟨id, expanded, -⟩ := additionalRepoView_spec viewed
      rw [expanded]
      by_contra different
      refine identify a ((members a).mpr (.inr ⟨u, inU, viewed⟩)) own
        ((members own).mpr (.inl inOwn)) (mt (congrArg some) different) ?_
      rw [id, ← generateRepoName_own inOwn, generateRepoName_eq_iff, same]
  · rintro ⟨additional, own⟩ a inA b inB different sameId
    rcases (members a).mp inA with ownA | ⟨u, inU, viewed⟩
    · rcases (members b).mp inB with ownB | ⟨v, inV, viewed'⟩
      · have same := List.inj_on_of_nodup_map ownRepos_nodup ownA ownB sameId
        exact different (congrArg RepoView.baseurl same)
      · obtain ⟨id, expanded, -⟩ := additionalRepoView_spec viewed'
        rw [id, ← generateRepoName_own ownA, generateRepoName_eq_iff] at sameId
        have expanded' := own v inV a ownA sameId.symm
        exact different (Option.some.inj (expanded'.symm.trans expanded))
    · obtain ⟨id, expanded, -⟩ := additionalRepoView_spec viewed
      rcases (members b).mp inB with ownB | ⟨v, inV, viewed'⟩
      · rw [id, ← generateRepoName_own ownB, generateRepoName_eq_iff] at sameId
        have expanded' := own u inU b ownB sameId
        exact different (Option.some.inj (expanded.symm.trans expanded'))
      · obtain ⟨id', expanded', -⟩ := additionalRepoView_spec viewed'
        rw [id, id', generateRepoName_eq_iff] at sameId
        have expands := additional u inU v inV sameId
        exact different (Option.some.inj (expanded.symm.trans (expands.trans expanded')))

end Found

end Copr.BuildConfigLogic

namespace Copr.Sample

/-- `urlparse` for URLs with two slashes behind the scheme. -/
def urlparse (url : String) : ParseResult :=
  let (scheme, rest) := url.toList.span (· ≠ ':')
  let (netloc, rest) := (rest.drop 3).span fun c => c ≠ '/' ∧ c ≠ '?' ∧ c ≠ '#'
  let (path, rest) := rest.span fun c => c ≠ '?' ∧ c ≠ '#'
  let (query, rest) := rest.span (· ≠ '#')
  { scheme := String.ofList scheme
    netloc := String.ofList netloc
    path := String.ofList path
    params := ""
    query := String.ofList (query.drop 1)
    fragment := String.ofList (rest.drop 1) }

/-- Without a slash in its `netloc`. -/
theorem netloc_slash (url : String) : '/' ∉ (urlparse url).netloc.toList := by
  intro member
  unfold urlparse at member
  simp only [List.span_eq_takeWhile_dropWhile, String.toList_ofList] at member
  have letter := List.mem_takeWhile_imp member
  contradiction

/-- `parse_qs` for parameters with one value each. -/
def parseQs (query : String) : List (String × List String) :=
  (Text.split query '&').filterMap fun field =>
    match field.splitOn '=' with
    | [name, value] =>
      if value.isEmpty then none else some (String.ofList name, [String.ofList value])
    | _ => none

/-- A parameter has a value. -/
theorem parseQs_values (query : String) : ∀ entry ∈ parseQs query, entry.2 ≠ [] := by
  intro entry member
  obtain ⟨field, -, named⟩ := List.mem_filterMap.mp member
  split at named
  · split at named
    · contradiction
    · obtain rfl := Option.some.inj named
      exact List.cons_ne_nil _ _
  · contradiction

/-- URLs without unusual characters. -/
def urlLibrary : UrlLibrary where
  urlparse url := some (urlparse url)
  parseQs := parseQs
  urlencode query := "&".intercalate (query.flatMap fun entry =>
    entry.2.map fun value => entry.1 ++ "=" ++ value)
  urlunparse parsed := parsed.scheme ++ "://" ++ parsed.netloc ++ parsed.path ++
    (if parsed.query = "" then "" else "?" ++ parsed.query) ++
    if parsed.fragment = "" then "" else "#" ++ parsed.fragment
  isspace := Char.isWhitespace
  netloc_slash url _ same := Option.some.inj same ▸ netloc_slash url
  chars := .ascii
  int value :=
    if value.toList ≠ [] ∧ value.toList.all Char.isDigit then
      some (value.toList.foldl (fun n c => 10 * n + (c.toNat - '0'.toNat : Nat)) 0)
    else none
  parseQs_values := parseQs_values

/-- A frontend without other projects. -/
def frontendView : FrontendView where
  backendBaseUrl := "https://backend"
  pulpContentUrl := ""
  dirStorage _ _ := none
  moduleHotfixes _ _ := none

/-- The main directory of a project with one chroot and these lists of repositories. -/
def dirWithRepos (project chroot : String) : BuildDir where
  copr := {
    ownerName := "user"
    name := "project"
    repos := some project
    coprChroots := [{
      row := { copr := 1, mockChroot := "fedora-41-x86_64", config := { repos := chroot } }
      mockChroot := ⟨"fedora", "41", "x86_64", "f41"⟩
      isActive := true
      rolling := false }] }
  name := "project"
  main := true

end Copr.Sample

namespace Copr.BuildConfigLogic

open Sample

end Copr.BuildConfigLogic
