import Copr.Lib.Tokens
import Copr.Common.ActionData
import Copr.Frontend.CoprDirs
import Copr.Frontend.RepoFiles

/-!
# Build configurations

`generate_build_config` of `BuildConfigLogic` in `coprs/logic/complex_logic.py` with the functions
of `coprs/repos.py` that it uses, and `UrlRepoListValidator` of `coprs/forms.py`, which decides
what gets into the lists of repositories. `urllib.parse`, `int` and the database of Unicode are
given.
-/

namespace Copr

/-! ## What is given -/

/-- `ParseResult` of `urllib.parse`. -/
structure ParseResult where
  /-- `scheme`. -/
  scheme : String
  /-- `netloc`. -/
  netloc : String
  /-- `path`. -/
  path : String
  /-- `params`. -/
  params : String
  /-- `query`. -/
  query : String
  /-- `fragment`. -/
  fragment : String
  deriving DecidableEq, Repr

/-- What the repository URLs are read with. -/
structure UrlLibrary where
  /-- `urlparse`; `none` when it raises `ValueError`. -/
  urlparse : String → Option ParseResult
  /-- `parse_qs`, in the order of the dictionary. -/
  parseQs : String → List (String × List String)
  /-- `urlencode` with `doseq`. -/
  urlencode : List (String × List String) → String
  /-- `urlunparse`. -/
  urlunparse : ParseResult → String
  /-- `c.isspace()`. -/
  isspace : Char → Bool
  /-- The character classes of `isalnum` and `isnumeric`. -/
  chars : Text.CharClasses
  /-- `int(text)`; `none` when it raises `ValueError`. -/
  int : String → Option Int
  /-- A slash ends the `netloc`. -/
  netloc_slash : ∀ url parsed, urlparse url = some parsed → '/' ∉ parsed.netloc.toList
  /-- A parameter that `parse_qs` finds has a value. -/
  parseQs_values : ∀ query, ∀ entry ∈ parseQs query, entry.2 ≠ []

/-- `text.split()`. -/
def UrlLibrary.words (lib : UrlLibrary) (text : String) : List String :=
  ((text.toList.splitOnP lib.isspace).filter fun word => !word.isEmpty).map String.ofList

/-- `text.strip()`. -/
def UrlLibrary.strip (lib : UrlLibrary) (text : List Char) : List Char :=
  (text.dropWhile lib.isspace).rdropWhile lib.isspace

/-- What is looked up in the configuration and in the database. -/
structure FrontendView where
  /-- `BACKEND_BASE_URL`. -/
  backendBaseUrl : String
  /-- `PULP_CONTENT_URL`. -/
  pulpContentUrl : String
  /-- `copr.storage` of the `CoprDir` with an owner and a name. -/
  dirStorage : String → String → Option StorageEnum
  /-- `module_hotfixes` of the `Copr` with an owner and a name. -/
  moduleHotfixes : String → String → Option Bool

/-- A parameter in the query of a repository URL. -/
inductive RepoParam
  /-- A number. -/
  | number (n : Int)
  /-- Any other text. -/
  | text (s : String)
  deriving DecidableEq, Repr

/-- A repository in a build configuration. -/
structure RepoView where
  /-- `id`. -/
  id : String
  /-- `baseurl`. -/
  baseurl : String
  /-- `name`. -/
  name : String
  /-- `repo_gpgcheck`, when it is there. -/
  repoGpgcheck : Option Bool := none
  /-- `module_hotfixes`, when it is there. -/
  moduleHotfixes : Option Bool := none
  /-- `priority`, when it is there. -/
  priority : Option RepoParam := none
  deriving DecidableEq, Repr

/-- A project with what gets into its build configurations. -/
structure BuildProject where
  /-- `owner_name`. -/
  ownerName : String
  /-- `name`. -/
  name : String
  /-- `storage`. -/
  storage : StorageEnum := .backend
  /-- `module_hotfixes`. -/
  moduleHotfixes : Bool := false
  /-- `auto_createrepo`. -/
  autoCreaterepo : Bool := true
  /-- `repo_priority`. -/
  repoPriority : Option Int := none
  /-- `repos`. -/
  repos : Option String := none
  /-- `bootstrap`. -/
  bootstrap : Option String := none
  /-- `isolation`. -/
  isolation : Option String := none
  /-- `copr_chroots`. -/
  coprChroots : List ProjectChroot

/-- A `CoprDir`. -/
structure BuildDir where
  /-- `copr`. -/
  copr : BuildProject
  /-- `name`. -/
  name : String
  /-- `main`. -/
  main : Bool

/-- `repo_url` of a project or a directory. -/
def FrontendView.repoUrl (view : FrontendView) (storage : StorageEnum) (fullName : String) :
    String :=
  if storage = .pulp ∧ view.pulpContentUrl ≠ "" then
    "/".intercalate
      [String.ofList (view.pulpContentUrl.toList.rdropWhile (· = '/')), fullName]
  else "/".intercalate [view.backendBaseUrl, "results", fullName]

/-- `repo_url` of the `CoprDir` with an owner and a name. -/
def FrontendView.dirRepoUrl (view : FrontendView) (owner dirname : String) : Option String :=
  (view.dirStorage owner dirname).map fun storage =>
    view.repoUrl storage (owner ++ "/" ++ dirname)

namespace BuildProject

variable (copr : BuildProject)

/-- `full_name`. -/
def fullName : String := copr.ownerName ++ "/" ++ copr.name

/-- `repo_id`. -/
def repoId : String := Text.replace copr.ownerName "@" "group_" ++ "-" ++ copr.name

/-- `active_copr_chroots`. -/
def activeCoprChroots : List ProjectChroot :=
  copr.coprChroots.filter fun c => c.isActive && !c.row.deleted

end BuildProject

/-- The result of `generate_build_config`. -/
structure BuildConfigDict where
  /-- `project_id`. -/
  projectId : String
  /-- `additional_packages`. -/
  additionalPackages : List String
  /-- `repos`. -/
  repos : List RepoView
  /-- `chroot`. -/
  chroot : String
  /-- `with_opts`. -/
  withOpts : List String
  /-- `without_opts`. -/
  withoutOpts : List String
  /-- `isolation`, when it is there. -/
  isolation : Option String
  /-- `bootstrap`, when it is there. -/
  bootstrap : Option String
  /-- `bootstrap_image`, when it is there. -/
  bootstrapImage : Option String
  deriving DecidableEq, Repr

namespace BuildConfigLogic

/-! ## Repositories -/

/-- `generate_repo_name`. -/
def generateRepoName (repoUrl : String) : String :=
  let replaced := repoUrl.toList.map fun c => if c.isAlphanum then c else '_'
  String.ofList (Tokens.trim '_' (Tokens.squeeze '_' replaced))

/-- `chroot.rsplit("-", 2)[0]`. -/
def distname (chroot : String) : String :=
  let pieces := Text.split chroot '-'
  String.ofList (['-'].intercalate (pieces.take (max 1 (pieces.length - 2))))

section Repositories

variable (lib : UrlLibrary) (view : FrontendView)

/-- `pre_process_repo_url`; `none` when it raises an exception. -/
def preProcessRepoUrl (chroot repoUrl : String) : Option String := do
  let parsedUrl ← lib.urlparse repoUrl
  let query := lib.parseQs parsedUrl.query
  let repoUrl ←
    if parsedUrl.scheme = "copr" then
      ((Text.split parsedUrl.path '/')[1]?).map fun prj =>
        match view.dirRepoUrl parsedUrl.netloc (String.ofList prj) with
        | some url => url ++ "/" ++ chroot ++ "/"
        | none => "/".intercalate
            [view.backendBaseUrl, "results", parsedUrl.netloc, String.ofList prj, chroot] ++ "/"
    else if query.any fun entry => entry.1 == "priority" then
      some (lib.urlunparse
        { parsedUrl with query := lib.urlencode (query.filter fun entry => entry.1 != "priority") })
    else some repoUrl
  return Text.replace (Text.replace repoUrl "$chroot" chroot) "$distname" (distname chroot)

/-- `parse_repo_params`, which supports the priority; `none` when it raises an exception. -/
def parseRepoParams (repo : String) : Option (Option RepoParam) := do
  let parsed ← lib.urlparse repo
  match (lib.parseQs parsed.query).find? fun entry => entry.1 == "priority" with
  | none => some none
  | some entry =>
    let value ← entry.2.head?
    if lib.chars.numeric value.toList then (lib.int value).map fun n => some (.number n)
    else some (some (.text value))

/-- `module_hotfixes` of what `get_copr_by_repo` finds; `none` when it raises another exception than
`ObjectNotFound`, and nothing inside when there is no project. -/
def getCoprByRepo (repoUrl : String) : Option (Option Bool) := do
  let parsed ← lib.urlparse repoUrl
  if parsed.scheme = "copr" then
    match Text.split (parsed.netloc ++ parsed.path) '/' with
    | [[], _] => none
    | [owner, copr] => some (view.moduleHotfixes (String.ofList owner) (String.ofList copr))
    | _ => some none
  else some none

/-- One repository of `get_additional_repo_views`. -/
def additionalRepoView (chrootId repo : String) : Option RepoView := do
  let priority ← parseRepoParams lib repo
  let baseurl ← preProcessRepoUrl lib view chrootId repo
  let copr ← getCoprByRepo lib view repo
  return {
    id := generateRepoName repo
    baseurl := baseurl
    name := "Additional repo " ++ generateRepoName repo
    repoGpgcheck := copr.map fun _ => false
    moduleHotfixes := copr.bind fun hotfixes => if hotfixes then some true else none
    priority := priority }

/-- `get_additional_repo_views`. -/
def getAdditionalRepoViews (reposList : List String) (chrootId : String) :
    Option (List RepoView) :=
  reposList.mapM (additionalRepoView lib view chrootId)

end Repositories

/-! ## Build configurations -/

/-- An option of a chroot or a build that replaces the one before it. -/
def changed : Option String → Bool
  | none => false
  | some "" => false
  | some "unchanged" => false
  | some _ => true

/-- `DEFAULT_COPR_REPO_PRIORITY`. -/
def defaultCoprRepoPriority : Int := 99

/-- `isolation_setup`. -/
def isolationSetup (copr : BuildProject) (config : BuildConfig) : Option String :=
  let isolation := if changed config.isolation then config.isolation else copr.isolation
  if isolation = some "default" then none else isolation

/-- `bootstrap_setup`, with the image. -/
def bootstrapSetup (copr : BuildProject) (config : BuildConfig) :
    Option String × Option String :=
  let bootstrap := if changed config.bootstrap then config.bootstrap else copr.bootstrap
  let image :=
    if changed config.bootstrap ∧ config.bootstrap = some "custom_image" then
      config.bootstrapImage
    else none
  if bootstrap = some "default" ∨ bootstrap = none then (none, none) else (bootstrap, image)

section Configurations

variable (lib : UrlLibrary) (view : FrontendView)

/-- The repositories of the project itself. -/
def ownRepos (coprdir : BuildDir) (chrootId : String) : List RepoView :=
  let copr := coprdir.copr
  let url := view.repoUrl copr.storage copr.fullName
  let priority :=
    if copr.repoPriority = some defaultCoprRepoPriority then none
    else copr.repoPriority.map .number
  let base : RepoView :=
    { id := "copr_base"
      baseurl := url ++ "/" ++ chrootId ++ "/"
      name := "Copr repository"
      repoGpgcheck := some false
      moduleHotfixes := if copr.moduleHotfixes then some true else none
      priority := priority }
  let suffix := if copr.storage = .pulp then "-devel" else "/devel"
  let devel : RepoView :=
    { id := "copr_base_devel"
      baseurl := url ++ "/" ++ chrootId ++ suffix ++ "/"
      name := "Copr buildroot"
      repoGpgcheck := some false
      priority := priority }
  let dirUrl := view.repoUrl copr.storage (copr.ownerName ++ "/" ++ coprdir.name)
  let dir : RepoView :=
    { id := "copr_coprdir"
      baseurl := dirUrl ++ "/" ++ chrootId ++ "/"
      name := "Coprdir repository"
      repoGpgcheck := some false
      priority := priority }
  [base] ++ (if copr.autoCreaterepo then [] else [devel]) ++ if coprdir.main then [] else [dir]

/-- `generate_build_config`; `none` when it raises an exception, and nothing inside for the empty
dictionary. -/
def generateBuildConfig (coprdir : BuildDir) (chrootId : String) :
    Option (Option BuildConfigDict) :=
  let copr := coprdir.copr
  match copr.activeCoprChroots.find? fun c => c.mockChroot.name == chrootId with
  | none => some none
  | some chroot => do
    let config := chroot.row.config
    let projectRepos ←
      getAdditionalRepoViews lib view (lib.words (copr.repos.getD "")) chrootId
    let chrootRepos ← getAdditionalRepoViews lib view (lib.words config.repos) chrootId
    let (bootstrap, bootstrapImage) := bootstrapSetup copr config
    return some {
      projectId := copr.repoId
      additionalPackages := lib.words (config.buildrootPkgs.getD "")
      repos := ownRepos view coprdir chrootId ++ projectRepos ++ chrootRepos
      chroot := chrootId
      withOpts := lib.words config.withOpts
      withoutOpts := lib.words config.withoutOpts
      isolation := isolationSetup copr config
      bootstrap := bootstrap
      bootstrapImage := bootstrapImage }

end Configurations

/-! ## What is accepted -/

variable (lib : UrlLibrary)

/-- `is_url` of `UrlRepoListValidator`; `none` when `urlparse` raises `ValueError`. The project of
a `copr://` URL has to exist. -/
def isUrl (existing : String → String → Bool) (url : String) : Option Bool := do
  let parsed ← lib.urlparse url
  if ¬["http", "https", "copr"].contains parsed.scheme then some false
  else if parsed.netloc = "" then some false
  else if parsed.scheme = "copr" then
    match (Text.split parsed.path '/')[1]? with
    | none => some false
    | some [] => some false
    | some coprname => some (existing parsed.netloc (String.ofList coprname))
  else some true

/-- `UrlRepoListValidator` accepts the text. -/
def urlRepoListValidator (existing : String → String → Bool) (text : String) : Bool :=
  (lib.words text).all fun url => isUrl lib existing url == some true

end BuildConfigLogic

end Copr
