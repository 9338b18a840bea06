import Copr.Frontend.BuildConfigs

/-!
# The task of a build

What a builder gets for a chroot of a build: `get_build_record` of the backend API of the frontend,
and what the forms accept of the settings that get into it.
-/

namespace Copr

/-- A command of `module_setup_commands`. -/
inductive ModuleCommand
  /-- `{"disable": m}`. -/
  | disable (m : String)
  /-- `{"enable": m}`. -/
  | enable (m : String)
  deriving DecidableEq, Repr

/-- A `BuildChroot` with its build. -/
structure QueuedBuild where
  /-- `build.id`. -/
  buildId : Nat
  /-- `build.copr_dir`, with the project. -/
  coprDir : BuildDir
  /-- `build.enable_net`. -/
  enableNet : Bool
  /-- `build.isolation`. -/
  isolation : Option String := none
  /-- `build.bootstrap`. -/
  bootstrap : Option String := none
  /-- `mock_chroot`. -/
  mockChroot : MockChroot
  /-- `mock_chroot.tags` and `tags`. -/
  tags : List String := []

/-- The part of the result of `get_build_record` from which a builder makes the configuration of
mock. -/
structure BuilderTask where
  /-- `task_id`. -/
  taskId : String
  /-- `project_owner`. -/
  projectOwner : String
  /-- `project_name`. -/
  projectName : String
  /-- `chroot`. -/
  chroot : String
  /-- `tags`. -/
  tags : List String
  /-- `enable_net`. -/
  enableNet : Bool
  /-- `modules`, when it is there. -/
  modules : Option (List ModuleCommand)
  /-- `repos`. -/
  repos : Option (List RepoView)
  /-- `buildroot_pkgs`. -/
  buildrootPkgs : Option (List String)
  /-- `bootstrap`, when it is there. -/
  bootstrap : Option String
  /-- `bootstrap_image`, when it is there. -/
  bootstrapImage : Option String
  /-- `isolation`. -/
  isolation : Option String
  deriving DecidableEq, Repr

namespace BuildConfigLogic

/-! ## Tasks -/

/-- `module_setup_commands`; `none` when there is no first character to look at. -/
def moduleSetupCommands (lib : UrlLibrary) (moduleToggle : Option String) :
    Option (List ModuleCommand) :=
  match moduleToggle with
  | none => some []
  | some "" => some []
  | some toggle => (Text.split toggle ',').mapM fun m =>
    match lib.strip m with
    | [] => none
    | c :: rest =>
      if c = '!' then some (.disable (String.ofList rest))
      else some (.enable (String.ofList (c :: rest)))

/-- `build_bootstrap_setup`, with the image. -/
def buildBootstrapSetup (config : Option BuildConfigDict) (build : QueuedBuild) :
    Option String × Option String :=
  let configured := (config.bind BuildConfigDict.bootstrap).getD "default"
  let image := config.bind BuildConfigDict.bootstrapImage
  let bootstrap := if changed build.bootstrap then build.bootstrap else some configured
  if bootstrap = some "default" then (none, none)
  else if bootstrap ≠ some "custom_image" then (bootstrap, none)
  else (bootstrap, image)

/-- `get_build_isolation`. -/
def getBuildIsolation (config : Option BuildConfigDict) (build : QueuedBuild) : Option String :=
  if changed build.isolation then build.isolation
  else some ((config.bind BuildConfigDict.isolation).getD "default")

/-- `get_build_record` for a builder; `none` when it raises an exception, and nothing inside when
the chroot is disabled. -/
def getBuildRecord (lib : UrlLibrary) (view : FrontendView) (task : QueuedBuild) :
    Option (Option BuilderTask) :=
  let copr := task.coprDir.copr
  let name := task.mockChroot.name
  match copr.coprChroots.find? fun c => c.isActive && c.mockChroot.name == name with
  | none => some none
  | some coprChroot => do
    let modules ← moduleSetupCommands lib coprChroot.row.config.moduleToggle
    let config ← generateBuildConfig lib view task.coprDir name
    let (bootstrap, bootstrapImage) := buildBootstrapSetup config task
    return some {
      taskId := toString task.buildId ++ "-" ++ name
      projectOwner := copr.ownerName
      projectName := copr.name
      chroot := name
      tags := task.tags
      enableNet := task.enableNet
      modules := if modules.isEmpty then none else some modules
      repos := config.map BuildConfigDict.repos
      buildrootPkgs := config.map BuildConfigDict.additionalPackages
      bootstrap := bootstrap
      bootstrapImage := bootstrapImage
      isolation := getBuildIsolation config task }

/-! ## Forms -/

section Forms

variable (lib : UrlLibrary)

/-- `\w` of a regular expression. -/
def wordChar (c : Char) : Bool := lib.chars.isalnum c || c = '_'

/-- The text without a line end at its end, where `$` matches as well. -/
def beforeEnd (text : List Char) : List Char :=
  if text.getLast? = some '\n' then text.dropLast else text

/-- `REGEX_BOOTSTRAP_IMAGE`. -/
def regexBootstrapImage (image : String) : Bool :=
  let text := beforeEnd image.toList
  let named (c : Char) : Bool := wordChar lib c || c = '-' || c = '.' || c = '/'
  !(text.takeWhile named).isEmpty &&
    match text.dropWhile named with
    | [] => true
    | c :: tag =>
      c = ':' && !tag.isEmpty && tag.all fun c => wordChar lib c || c = '.' || c = '-'

/-- `^([a-zA-Z0-9-_!][^ ]*)$`. -/
def modulePattern : List Char → Bool
  | [] => false
  | c :: rest => (c.isAlphanum || c = '-' || c = '_' || c = '!') && !rest.contains ' '

/-- The rest of `ModuleEnableNameValidator`, with the names that were seen. -/
def validModules (alreadyEnabled : List (List Char)) : List (List Char) → Bool
  | [] => true
  | m :: rest =>
    if m.isEmpty then true
    else
      match (lib.strip m).splitOn ':' with
      | [moduleName, stream] =>
        modulePattern moduleName && !alreadyEnabled.contains moduleName &&
          modulePattern stream && validModules (moduleName :: alreadyEnabled) rest
      | _ => false

/-- `ModuleEnableNameValidator` accepts the text. -/
def moduleEnableNameValidator (data : String) : Bool := validModules lib [] (Text.split data ',')

/-- A select box that is `Optional` accepts nothing, its choices and blanks. -/
def OptionalChoice (choices : List String) (value : Option String) : Prop :=
  ∀ s ∈ value, s ∈ choices ∨ lib.strip s.toList = []

instance OptionalChoice.decidable (choices : List String) (value : Option String) :
    Decidable (OptionalChoice lib choices value) :=
  inferInstanceAs (Decidable (∀ s ∈ value, _ ∨ _))

/-- The field of the image accepts nothing, the name of an image and blanks. -/
def OptionalImage (image : Option String) : Prop :=
  ∀ s ∈ image, regexBootstrapImage lib s = true ∨ lib.strip s.toList = []

instance OptionalImage.decidable (image : Option String) : Decidable (OptionalImage lib image) :=
  inferInstanceAs (Decidable (∀ s ∈ image, _ ∨ _))

/-- The forms of projects and their chroots accept what gets into the task from them. Nothing is
asked of the packages. -/
structure AcceptedSettings (existing : String → String → Bool) (copr : BuildProject)
    (config : BuildConfig) : Prop where
  /-- `NameCharactersValidator`. -/
  name : nameCharacters lib.chars copr.name = true
  /-- The repositories of the project. -/
  repos : urlRepoListValidator lib existing (copr.repos.getD "") = true
  /-- The repositories of the chroot. -/
  chrootRepos : urlRepoListValidator lib existing config.repos = true
  /-- The modules. -/
  modules : moduleEnableNameValidator lib (config.moduleToggle.getD "") = true
  /-- The select box of the project. -/
  bootstrap : OptionalChoice lib ["default", "off", "on", "image"] copr.bootstrap
  /-- The select box of the chroot. -/
  chrootBootstrap : OptionalChoice lib
    ["unchanged", "default", "off", "on", "image", "custom_image"] config.bootstrap
  /-- The custom image. -/
  bootstrapImage : OptionalImage lib config.bootstrapImage
  /-- The select box of the project. -/
  isolation : OptionalChoice lib ["default", "nspawn", "simple"] copr.isolation
  /-- The select box of the chroot. -/
  chrootIsolation : OptionalChoice lib ["unchanged", "default", "nspawn", "simple"]
    config.isolation
  /-- A custom image is given. -/
  customImage : config.bootstrap = some "custom_image" → config.bootstrapImage.isSome = true

end Forms

end BuildConfigLogic

end Copr
