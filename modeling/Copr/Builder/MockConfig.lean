import Copr.Lib.Templates
import Copr.Lib.IniFiles
import Copr.Frontend.BuildTasks

/-!
# The configuration of mock

How a builder makes the configuration of mock for a task: `macros_for_task`,
`mock_snippet_for_tags` and the template `mock.cfg.j2`, which puts the values of the task between
quotes as they are. The pieces of the template are also what it means.
-/

namespace Copr

open Literals IniFiles

/-! ## What the template is given -/

/-- The configuration of a builder. -/
structure BuilderConfig where
  /-- `rpm_vendor_copr_name`. -/
  rpmVendorCoprName : Option String
  /-- `enabled_source_protocols`. -/
  enabledSourceProtocols : Option String
  /-- `tags_to_mock_snippet`: sets of tags with a snippet. -/
  tagsToMockSnippet : List (List String × String)

namespace MockBuilder

/-- `string2list`. -/
def string2list (lib : UrlLibrary) (text : String) : List String :=
  ((text.toList.splitOnP fun c => lib.isspace c || c = ',').filter fun elem =>
    !elem.isEmpty).map String.ofList

/-- `re.sub("-.*", "", task_id)`: each line is cut at its first dash. -/
def beforeDash (taskId : String) : String :=
  String.ofList (['\n'].intercalate
    ((Text.split taskId '\n').map fun line => line.takeWhile (· ≠ '-')))

/-- A setting that is there and not empty. -/
def given (setting : Option String) : Option String := setting.filter fun text => text != ""

/-- `macros_for_task` for the task of a build of RPM packages, which has no `source_type`. -/
def macrosForTask (lib : UrlLibrary) (task : BuilderTask) (config : BuilderConfig) :
    List (String × String) :=
  let vendor := (given config.rpmVendorCoprName).map fun name =>
    let kind := if Text.startswith task.projectOwner "@" then "group" else "user"
    ("%vendor", name ++ " - " ++ kind ++ " " ++ task.projectOwner)
  let buildtag := (given (some task.taskId)).map fun taskId =>
    ("%buildtag", ".copr" ++ beforeDash taskId)
  let protocols := (given config.enabledSourceProtocols).map fun protocolsStr =>
    let protocolsList := string2list lib protocolsStr
    let protocols := ",".intercalate (protocolsList.map fun protocol => "+" ++ protocol)
    ("%__urlhelper_localopts", "--proto -all," ++ protocols)
  [("%copr_username", task.projectOwner), ("%copr_projectname", task.projectName)] ++
    vendor.toList ++ buildtag.toList ++ protocols.toList

/-- `mock_snippet_for_tags`. -/
def mockSnippetForTags (tagsToMockSnippet : List (List String × String)) (tags : List String) :
    String :=
  if tags.isEmpty then ""
  else
    "\n".intercalate ((tagsToMockSnippet.filter fun item =>
      item.1.all fun tag => tags.contains tag).map Prod.snd)

/-! ## The template -/

/-- The quotes of most literals of the template. -/
def short : Quote := ⟨apostrophe, false⟩

/-- Text of the template, or text that is complete by itself. -/
def code (text : String) : Piece := .code text.toList

/-- A literal between apostrophes. -/
def quoted (value : String) : Piece := .literal short value.toList

/-- A parameter as it is printed. -/
def printParam : RepoParam → String
  | .number n => toString n
  | .text s => s

/-- The keys of a repository with their values. -/
def repoKeys (repo : RepoView) : List (String × String) :=
  let quote := String.singleton apostrophe
  [("name", quote ++ repo.name ++ quote), ("baseurl", repo.baseurl), ("gpgcheck", "0")] ++
    (repo.repoGpgcheck.map fun b => ("repo_gpgcheck", if b then "1" else "0")).toList ++
    [("enabled", "1"), ("skip_if_unavailable", "0"), ("metadata_expire", "0"), ("cost", "1"),
      ("best", "1")] ++
    (repo.priority.map fun p => ("priority", printParam p)).toList ++
    (repo.moduleHotfixes.map fun b => ("module_hotfixes", if b then "True" else "False")).toList

/-- The section of a repository. -/
def repoSection (repo : RepoView) : List IniFiles.Item :=
  .header repo.id.toList :: (repoKeys repo).map fun entry => .key entry.1.toList entry.2.toList

/-- The sections that the template means, one for each repository. -/
def dnfSections (repos : List RepoView) : List IniFiles.Item := repos.flatMap repoSection

/-- The lines of a repository; a blank line follows `module_hotfixes`. -/
def repoLines (repo : RepoView) : List (Option IniFiles.Item) :=
  (repoSection repo).map some ++ if repo.moduleHotfixes.isSome then [none] else []

/-- The text between the triple quotes. -/
def dnfConf (repos : List RepoView) : List Char :=
  print ([none] ++ repos.flatMap repoLines ++ [none])

section Template

variable (lib : UrlLibrary) (pprint : List ModuleCommand → String) (config : BuilderConfig)
  (task : BuilderTask)

/-- The lines before the options of the task. The snippet is on lines of its own. -/
def headPieces : List Piece :=
  [code "include(", quoted ("/etc/mock/" ++ task.chroot ++ ".cfg"),
    code ")\n\nconfig_opts.setdefault(", quoted "plugin_conf",
    code ", \x7b\x7d)\nconfig_opts[", quoted "plugin_conf",
    code "].setdefault(", quoted "tmpfs_opts",
    code ", \x7b\x7d)\nconfig_opts[", quoted "plugin_conf",
    code "][", quoted "tmpfs_opts", code "][", quoted "keep_mounted",
    code ("] = True\n\n# Custom mock snippets configured in copr-crpmbuild config file" ++
      " - can be empty\n"),
    code (mockSnippetForTags config.tagsToMockSnippet task.tags ++ "\n"), code "\n"]

/-- `chroot_additional_packages`. -/
def packagePieces : List Piece :=
  match task.buildrootPkgs with
  | none => []
  | some [] => []
  | some packages =>
    [code "\nconfig_opts[", quoted "chroot_additional_packages", code "] = ",
      quoted (" ".intercalate packages), code "\n"]

/-- The options for the network. -/
def networkPieces : List Piece :=
  let value := if task.enableNet then "True" else "False"
  [code "\nconfig_opts[", quoted "rpmbuild_networking", code ("] = " ++ value ++ "\nconfig_opts["),
    quoted "use_host_resolv", code ("] = " ++ value ++ "\n")]

/-- `isolation`. -/
def isolationPieces : List Piece :=
  match task.isolation with
  | none => []
  | some "default" => []
  | some isolation =>
    [code "\nconfig_opts[", quoted "isolation", code "] = ", quoted isolation]

/-- One of the macros. -/
def macroPieces (entry : String × String) : List Piece :=
  [code "\nconfig_opts[", quoted "macros", code "][", quoted entry.1, code "] = ", quoted entry.2]

/-- `use_bootstrap` and `use_bootstrap_image`. -/
def useBootstrapPieces (useBootstrap useBootstrapImage : String) : List Piece :=
  [code "\nconfig_opts[", quoted "use_bootstrap",
    code ("] = " ++ useBootstrap ++ "\nconfig_opts["), quoted "use_bootstrap_image",
    code ("] = " ++ useBootstrapImage)]

/-- `bootstrap_image`. -/
def imagePieces : List Piece :=
  match given task.bootstrapImage with
  | none => []
  | some image =>
    [code "\nconfig_opts[", quoted "bootstrap_image", code "] = ",
      .literal ⟨doubleQuote, false⟩ image.toList]

/-- The options for the bootstrap chroot. -/
def bootstrapPieces : List Piece :=
  if task.bootstrap = some "on" then useBootstrapPieces "True" "False"
  else if task.bootstrap = some "off" then useBootstrapPieces "False" "False"
  else if task.bootstrap = some "image" ∨ task.bootstrap = some "custom_image" then
    useBootstrapPieces "True" "True" ++ imagePieces task
  else []

/-- `module_setup_commands`, as `pprint` prints them. -/
def modulePieces : List Piece :=
  match task.modules with
  | none => []
  | some modules =>
    [code "\nconfig_opts[", quoted "module_setup_commands", code "] = ", code (pprint modules)]

/-- What is appended to `dnf.conf`. -/
def dnfPieces : List Piece :=
  match task.repos with
  | none => []
  | some [] => []
  | some repos =>
    [code "\nconfig_opts[", .literal ⟨doubleQuote, false⟩ "dnf.conf".toList, code "] += ",
      .literal ⟨doubleQuote, true⟩ (dnfConf repos), code "\n"]

/-- The template with the values of a task. -/
def mockConfig : List Piece :=
  headPieces config task ++ (packagePieces task ++ (code "\n" :: (networkPieces task ++
    (isolationPieces task ++ ((macrosForTask lib task config).flatMap macroPieces ++
      (bootstrapPieces task ++ (modulePieces pprint task ++
        (code "\n\n" :: dnfPieces task))))))))

/-- `render_config_template`. -/
def renderConfigTemplate : List Char := render (mockConfig lib pprint config task)

end Template

end MockBuilder

end Copr
