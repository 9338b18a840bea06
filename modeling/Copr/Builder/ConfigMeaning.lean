import Copr.Frontend.RepoIds
import Copr.Builder.ConfigBlocks

/-!
# What the configuration of mock means

The template puts values between quotes as they are, and the repositories into an ini file between
triple quotes. When the text that is made so means what the template does.
-/

namespace Copr

open Literals IniFiles

namespace MockBuilder

/-! ## Repositories -/

/-- The value may be the one of a key within the triple quotes: it has no escape sequence, no three
double quotes in a row, no line end and no blanks around it. -/
structure FitsKey (value : List Char) : Prop where
  /-- It is read as it is as a part of the literal. -/
  long : FitsLong doubleQuote value
  /-- It is on one line. -/
  newlines : '\n' ∉ value
  /-- It is read as it is as a value in an ini file. -/
  trimmed : trim value = value

/-- A value fits a key exactly when it fits a long literal, is one line and has no blanks at its
ends. -/
theorem fitsKey_iff {value : List Char} :
    FitsKey value ↔ FitsLong doubleQuote value ∧ '\n' ∉ value ∧ trim value = value := by
  constructor
  · intro fits
    exact ⟨fits.long, fits.newlines, fits.trimmed⟩
  · rintro ⟨long, newlines, trimmed⟩
    exact ⟨long, newlines, trimmed⟩

instance FitsKey.decidable (value : List Char) : Decidable (FitsKey value) :=
  decidable_of_iff' _ fitsKey_iff

/-- The repository may be put into the template. -/
structure FitsRepo (repo : RepoView) : Prop where
  /-- The URL. -/
  baseurl : FitsKey repo.baseurl.toList
  /-- The priority, unless it is a number. -/
  priority : ∀ s, repo.priority = some (.text s) → FitsKey s.toList

/-- A letter, a digit, an underscore or a dash. -/
def plainChar (c : Char) : Bool := c.isAlphanum || c = '_' || c = '-'

/-- The names of the repository are made of such characters, and of blanks. -/
structure NamedRepo (repo : RepoView) : Prop where
  /-- `id`. -/
  id : repo.id.toList.all plainChar = true
  /-- `name`. -/
  name : repo.name.toList.all (fun c => plainChar c || c = ' ') = true

section Repositories

variable {text : List Char} {repo : RepoView} {repos : List RepoView} {c : Char}

/-- Other characters are not in such a text. -/
theorem not_mem_of_plain (plain : text.all plainChar = true) (other : plainChar c = false) :
    c ∉ text := by
  intro member
  rw [List.all_eq_true.mp plain c member] at other
  contradiction

/-- A blank is no such character. -/
theorem not_blank_of_plain (plain : plainChar c = true) : isBlank c = false := by
  have each : blanks.all (fun d => !plainChar d) = true := by decide
  by_contra blank
  have listed : c ∈ blanks := List.contains_iff_mem.mp (Bool.of_not_eq_false blank)
  have other := List.all_eq_true.mp each c listed
  rw [plain] at other
  contradiction

/-- A value without special characters and without blanks at its ends. -/
theorem fitsKey_of_plain (plain : text.all plainChar = true) : FitsKey text := by
  have none {c : Char} (other : plainChar c = false) : c ∉ text := not_mem_of_plain plain other
  have harmless : Harmless doubleQuote text :=
    ⟨none (by decide), none (by decide), none (by decide), none (by decide)⟩
  have each : ∀ c ∈ text, isBlank c = false := fun c member =>
    not_blank_of_plain (List.all_eq_true.mp plain c member)
  exact ⟨harmless.fitsLong, none (by decide),
    trim_eq (fun c member => each c (List.mem_of_mem_head? member))
      fun c member => each c (List.mem_of_getLast? member)⟩

/-- A printed number fits a key. -/
theorem fitsKey_number (n : Int) : FitsKey (toString n).toList := by
  apply fitsKey_of_plain
  have digits (m : Nat) : m.repr.toList.all plainChar = true := by
    rw [Nat.toList_repr, List.all_eq_true]
    intro c member
    have digit := Nat.isDigit_of_mem_toDigits (by decide) (by decide) member
    simp [plainChar, Char.isAlphanum, digit]
  cases n with
  | ofNat m => exact digits m
  | negSucc m =>
    show ("-" ++ (m + 1).repr).toList.all plainChar = true
    rw [String.toList_append, List.all_append, digits]
    rfl

/-- A repository fits exactly when its base URL and its printed priority fit their keys. -/
theorem fitsRepo_iff : FitsRepo repo ↔ FitsKey repo.baseurl.toList ∧
    ∀ p ∈ repo.priority, FitsKey (printParam p).toList := by
  constructor
  · intro fits
    refine ⟨fits.baseurl, fun p given => ?_⟩
    cases p with
    | number n => exact fitsKey_number n
    | text s => exact fits.priority s given
  · rintro ⟨baseurl, priority⟩
    exact ⟨baseurl, fun s given => priority (.text s) given⟩

instance FitsRepo.decidable (repo : RepoView) : Decidable (FitsRepo repo) :=
  decidable_of_iff' _ fitsRepo_iff

/-- The name of a repository between its quotes. -/
theorem fitsKey_name {name : String}
    (plain : name.toList.all (fun c => plainChar c || c = ' ') = true) :
    FitsKey (String.singleton apostrophe ++ name ++ String.singleton apostrophe).toList := by
  have same : (String.singleton apostrophe ++ name ++ String.singleton apostrophe).toList =
      apostrophe :: (name.toList ++ [apostrophe]) := by
    rw [String.toList_append, String.toList_append, String.toList_singleton]
    rfl
  have none {c : Char} (other : plainChar c = false) (visible : c ≠ ' ' ∧ c ≠ apostrophe) :
      c ∉ apostrophe :: (name.toList ++ [apostrophe]) := by
    intro member
    simp only [List.mem_cons, List.mem_append, List.not_mem_nil, or_false] at member
    rcases member with quote | inside | quote
    · exact visible.2 quote
    · have allowed := List.all_eq_true.mp plain c inside
      rw [other, Bool.false_or, decide_eq_true_eq] at allowed
      exact visible.1 allowed
    · exact visible.2 quote
  have harmless : Harmless doubleQuote (apostrophe :: (name.toList ++ [apostrophe])) :=
    ⟨none (by decide) (by decide), none (by decide) (by decide), none (by decide) (by decide),
      none (by decide) (by decide)⟩
  rw [same]
  refine ⟨harmless.fitsLong, none (by decide) (by decide), trim_eq ?_ ?_⟩
  · intro c first
    cases first
    decide
  · intro c last
    rw [← List.cons_append, List.getLast?_concat] at last
    cases last
    decide

/-- The keys and their values fit exactly when the URL and the priority do. -/
theorem repoKeys_fit_iff (named : NamedRepo repo) :
    (∀ entry ∈ repoKeys repo, FitsKey entry.2.toList) ↔ FitsRepo repo := by
  have constants : ∀ entry ∈ [("enabled", "1"), ("skip_if_unavailable", "0"),
      ("metadata_expire", "0"), ("cost", "1"), ("best", "1")], FitsKey entry.2.toList := by decide
  constructor
  · intro fits
    constructor
    · exact fits ("baseurl", repo.baseurl) (by simp [repoKeys])
    · intro s given
      exact fits ("priority", s) (by simp [repoKeys, given, printParam])
  · intro fits
    simp only [repoKeys, List.forall_mem_append]
    refine ⟨⟨⟨⟨?_, ?_⟩, constants⟩, ?_⟩, ?_⟩
    · simp only [List.forall_mem_cons]
      exact ⟨fitsKey_name named.name, fits.baseurl, by decide, fun _ member => nomatch member⟩
    · cases repo.repoGpgcheck with
      | none => exact fun _ member => nomatch member
      | some b => cases b <;> decide
    · cases given : repo.priority with
      | none => exact fun _ member => nomatch member
      | some p =>
        rw [Option.map_some, Option.toList_some, List.forall_mem_singleton]
        cases p with
        | number n => exact fitsKey_number n
        | text s => exact fits.priority s given
    · cases repo.moduleHotfixes with
      | none => exact fun _ member => nomatch member
      | some b => cases b <;> decide

/-- The sections as the lines of a literal. -/
theorem dnfConf_eq : dnfConf repos = stack ((none :: repos.flatMap repoLines).map
    (fun item => (item.map IniFiles.Item.text).getD []) ++ [[]]) := by
  have lines : ∀ items : List (Option IniFiles.Item), print items =
      stack (items.map fun item => (item.map IniFiles.Item.text).getD []) := fun items =>
    (List.flatMap_map _ _ items).symm
  rw [dnfConf, lines, List.singleton_append, List.map_append]
  rfl

/-- The items between the blank lines. -/
theorem reduceOption_dnf :
    ([none] ++ repos.flatMap repoLines ++ [none]).reduceOption = dnfSections repos := by
  rw [List.reduceOption_append, List.reduceOption_append]
  have each : ∀ repo, (repoLines repo).reduceOption = repoSection repo := by
    intro repo
    have all : ((repoSection repo).map some).reduceOption = repoSection repo := by
      rw [List.reduceOption, List.filterMap_map]
      exact List.filterMap_some
    rw [repoLines, List.reduceOption_append, all]
    split
    · exact List.append_nil _
    · exact List.append_nil _
  have sections : (repos.flatMap repoLines).reduceOption = dnfSections repos := by
    induction repos with
    | nil => rfl
    | cons repo rest ih =>
      rw [List.flatMap_cons, List.reduceOption_append, ih, each]
      rfl
  rw [sections]
  exact List.append_nil _

/-- The keys of the template are read as they are, and nothing in them matters in the literal. -/
theorem repoKeys_proper {entry : String × String} (member : entry ∈ repoKeys repo) :
    ProperKey entry.1.toList ∧ Harmless doubleQuote (entry.1.toList ++ ['=']) := by
  have listed : entry.1 ∈ ["name", "baseurl", "gpgcheck", "repo_gpgcheck", "enabled",
      "skip_if_unavailable", "metadata_expire", "cost", "best", "priority", "module_hotfixes"] := by
    simp only [repoKeys, List.mem_append, List.mem_cons, List.not_mem_nil, or_false,
      Option.mem_toList, Option.map_eq_some_iff] at member
    rcases member with ((((rfl | rfl | rfl) | ⟨b, -, rfl⟩) | rfl | rfl | rfl | rfl | rfl) |
      ⟨p, -, rfl⟩) | ⟨b, -, rfl⟩ <;> simp
  have each : ∀ name ∈ ["name", "baseurl", "gpgcheck", "repo_gpgcheck", "enabled",
      "skip_if_unavailable", "metadata_expire", "cost", "best", "priority", "module_hotfixes"],
      ProperKey name.toList ∧ Harmless doubleQuote (name.toList ++ ['=']) := by decide
  exact each _ listed

/-- The header of a repository is read as it is. -/
theorem header_fits (named : NamedRepo repo) :
    FitsLong doubleQuote (IniFiles.Item.header repo.id.toList).text ∧
      (IniFiles.Item.header repo.id.toList).Fits := by
  have none_ : ∀ c, plainChar c = false → c ∉ repo.id.toList := fun c =>
    not_mem_of_plain named.id
  have outside : ∀ c, plainChar c = false → c ≠ '[' → c ≠ ']' →
      c ∉ (IniFiles.Item.header repo.id.toList).text := by
    intro c other opening closing member
    rcases List.mem_cons.mp member with same | inside
    · exact opening same
    · rcases List.mem_append.mp inside with inside | same
      · exact none_ c other inside
      · exact closing (List.mem_singleton.mp same)
  have harmless : Harmless doubleQuote (IniFiles.Item.header repo.id.toList).text :=
    ⟨outside _ (by decide) (by decide) (by decide), outside _ (by decide) (by decide) (by decide),
      outside _ (by decide) (by decide) (by decide), outside _ (by decide) (by decide) (by decide)⟩
  exact ⟨harmless.fitsLong, none_ _ (by decide), none_ _ (by decide)⟩

/-- The section of a repository is read as it is when its URL and its priority fit. -/
theorem repoSection_fits_iff (named : NamedRepo repo) :
    (∀ item ∈ repoSection repo, FitsLong doubleQuote item.text ∧ item.Fits) ↔ FitsRepo repo := by
  rw [← repoKeys_fit_iff named, repoSection, List.forall_mem_cons, List.forall_mem_map]
  have key : ∀ entry ∈ repoKeys repo,
      FitsLong doubleQuote (IniFiles.Item.key entry.1.toList entry.2.toList).text ∧
        (IniFiles.Item.key entry.1.toList entry.2.toList).Fits ↔ FitsKey entry.2.toList := by
    intro entry member
    obtain ⟨-, harmless⟩ := repoKeys_proper member
    have text : (IniFiles.Item.key entry.1.toList entry.2.toList).text =
        entry.1.toList ++ ['='] ++ entry.2.toList := by
      rw [List.append_assoc]
      rfl
    rw [text, fitsLong_append harmless, fitsKey_iff]
    rfl
  constructor
  · rintro ⟨-, keys⟩ entry member
    exact (key entry member).mp (keys entry member)
  · intro fits
    exact ⟨header_fits named, fun entry member => (key entry member).mpr (fits entry member)⟩

/-- The text for `dnf.conf` is read as the sections of the repositories when their URLs and
priorities fit. -/
theorem dnfConf_fits_iff (named : ∀ repo ∈ repos, NamedRepo repo) :
    Fits ⟨doubleQuote, true⟩ (dnfConf repos) ∧
        readIni (dnfConf repos) = some (dnfSections repos) ↔
      ∀ repo ∈ repos, FitsRepo repo := by
  have lines : (∀ line ∈ (none :: repos.flatMap repoLines).map
      (fun item => (item.map IniFiles.Item.text).getD []), FitsLong doubleQuote line) ↔
        ∀ item ∈ dnfSections repos, FitsLong doubleQuote item.text := by
    have blank : FitsLong doubleQuote [] := by decide
    rw [← reduceOption_dnf]
    simp only [List.forall_mem_map, List.reduceOption_mem_iff, List.mem_append, List.mem_cons,
      List.not_mem_nil, or_false]
    constructor
    · intro all item member
      refine all (some item) (.inr ?_)
      rcases member with (none_ | inside) | none_
      · contradiction
      · exact inside
      · contradiction
    · intro all item member
      cases item with
      | none => exact blank
      | some item =>
        rcases member with none_ | inside
        · contradiction
        · exact all item (.inl (.inr inside))
  have proper : ∀ item ∈ dnfSections repos, item.Proper := by
    intro item member
    obtain ⟨repo, -, inside⟩ := List.mem_flatMap.mp member
    rcases List.mem_cons.mp inside with rfl | key
    · trivial
    · obtain ⟨entry, listed, rfl⟩ := List.mem_map.mp key
      exact (repoKeys_proper listed).1
  have headed : Headed (dnfSections repos) := by
    cases repos with
    | nil => trivial
    | cons repo rest => trivial
  have ini := @readIni_print_iff ([none] ++ repos.flatMap repoLines ++ [none])
  rw [reduceOption_dnf] at ini
  have read : readIni (dnfConf repos) = some (dnfSections repos) ↔
      ∀ item ∈ dnfSections repos, item.Fits := ini proper headed
  rw [read, dnfConf_eq, fits_stack_iff (by decide), lines, ← forall₂_and, dnfSections,
    List.forall_mem_flatMap]
  exact forall₂_congr fun repo member => repoSection_fits_iff (named repo member)

end Repositories

/-! ## Names of repositories -/

section Names

variable {lib : UrlLibrary} {view : FrontendView} {coprdir : BuildDir} {chrootId : String}

open BuildConfigLogic

/-- The id that is made of a URL has letters, digits and underscores only. -/
theorem generateRepoName_plain (url : String) :
    (generateRepoName url).toList.all plainChar = true := by
  have each : ∀ c ∈ url.toList.map fun c => if c.isAlphanum then c else '_',
      plainChar c = true := by
    rw [List.forall_mem_map]
    intro c _
    split
    · rename_i letter
      simp [plainChar, letter]
    · rfl
  rw [generateRepoName, String.toList_ofList, List.all_eq_true]
  intro c member
  exact each c ((Tokens.trim_squeeze_sublist _).subset member)

/-- The project's own repositories have such names. -/
theorem namedRepo_own {repo : RepoView} (member : repo ∈ ownRepos view coprdir chrootId) :
    NamedRepo repo := by
  have names : ∀ name ∈ ["Copr repository", "Copr buildroot", "Coprdir repository"],
      name.toList.all (fun c => plainChar c || c = ' ') = true := by decide
  have ids : ∀ id ∈ ownIds, id.toList.all plainChar = true := by decide
  have id := ids _ (ownRepos_ids.subset (List.mem_map_of_mem member))
  refine ⟨id, ?_⟩
  unfold ownRepos at member
  rcases List.mem_append.mp member with first | dir
  · rcases List.mem_append.mp first with base | devel
    · rw [List.mem_singleton.mp base]
      exact names _ (by simp)
    · split at devel
      · contradiction
      · rw [List.mem_singleton.mp devel]
        exact names _ (by simp)
  · split at dir
    · contradiction
    · rw [List.mem_singleton.mp dir]
      exact names _ (by simp)

/-- The additional repositories have such names. -/
theorem namedRepo_additional {url : String} {repo : RepoView}
    (done : additionalRepoView lib view chrootId url = some repo) : NamedRepo repo := by
  obtain ⟨id, name⟩ := additionalRepoView_names done
  have plain := generateRepoName_plain url
  refine ⟨id ▸ plain, ?_⟩
  rw [name, String.toList_append, List.all_append, Bool.and_eq_true]
  refine ⟨rfl, List.all_eq_true.mpr fun c member => ?_⟩
  rw [List.all_eq_true.mp plain c member]
  rfl

/-- All repositories of a task have such names. -/
theorem namedRepo_task {queued : QueuedBuild} {task : BuilderTask} {repos : List RepoView}
    (generated : BuildConfigLogic.getBuildRecord lib view queued = some (some task))
    (given : task.repos = some repos) : ∀ repo ∈ repos, NamedRepo repo := by
  unfold BuildConfigLogic.getBuildRecord at generated
  dsimp only at generated
  split at generated
  · cases Option.some.inj generated
  · obtain ⟨modules, -, generated⟩ := Option.bind_eq_some_iff.mp generated
    obtain ⟨config, configured, generated⟩ := Option.bind_eq_some_iff.mp generated
    obtain rfl := Option.some.inj (Option.some.inj generated)
    obtain ⟨dict, rfl, rfl⟩ := Option.map_eq_some_iff.mp given
    cases sought : soughtChroot queued.coprDir queued.mockChroot.name with
    | none =>
      rw [generateBuildConfig_none sought] at configured
      cases Option.some.inj configured
    | some chroot =>
      obtain ⟨_, same, members⟩ := mem_repos_of_generated sought configured
      obtain rfl := Option.some.inj same
      intro repo member
      rcases (members repo).mp member with own | ⟨url, -, viewed⟩
      · exact namedRepo_own own
      · exact namedRepo_additional viewed

end Names

/-! ## Values of a task -/

/-- Every value that is put into the template fits. -/
structure FitsTask (lib : UrlLibrary) (config : BuilderConfig) (task : BuilderTask) : Prop where
  /-- The name of the chroot, in the name of the file that is included. -/
  chroot : FitsLine apostrophe ("/etc/mock/" ++ task.chroot ++ ".cfg").toList
  /-- The additional packages. -/
  packages : ∀ packages, task.buildrootPkgs = some packages →
    FitsLine apostrophe (" ".intercalate packages).toList
  /-- The isolation. -/
  isolation : ∀ isolation, task.isolation = some isolation →
    FitsLine apostrophe isolation.toList
  /-- The macros. -/
  macros : ∀ entry ∈ macrosForTask lib task config, FitsLine apostrophe entry.2.toList
  /-- The image of the bootstrap chroot, when there is to be one. -/
  image : task.bootstrap = some "image" ∨ task.bootstrap = some "custom_image" →
    ∀ image, task.bootstrapImage = some image → FitsLine doubleQuote image.toList
  /-- The repositories. -/
  repos : ∀ repos, task.repos = some repos → ∀ repo ∈ repos, FitsRepo repo

section Values

variable {lib : UrlLibrary} {pprint : List ModuleCommand → String} {config : BuilderConfig}
  {task : BuilderTask} {value text : String}

/-- Text of the template has no value. -/
theorem code_fits : (code text).Fits := trivial

/-- A value between apostrophes. -/
theorem quoted_fits : (quoted value).Fits ↔ FitsLine apostrophe value.toList := fits_short_iff

/-- The keys of the template. -/
def templateKeys : List String :=
  ["plugin_conf", "tmpfs_opts", "keep_mounted", "chroot_additional_packages",
    "rpmbuild_networking", "use_host_resolv", "isolation", "macros", "use_bootstrap",
    "use_bootstrap_image", "bootstrap_image", "module_setup_commands"]

/-- The keys of the template fit. -/
theorem key_fits (listed : value ∈ templateKeys) : (quoted value).Fits := by
  have each : ∀ key ∈ templateKeys, FitsLine apostrophe key.toList := by decide
  exact quoted_fits.mpr (each value listed)

/-- The lines before the options of the task. -/
theorem head_fits_iff : (∀ p ∈ headPieces config task, p.Fits) ↔
    FitsLine apostrophe ("/etc/mock/" ++ task.chroot ++ ".cfg").toList := by
  have plugin : (quoted "plugin_conf").Fits := key_fits (by decide)
  have options : (quoted "tmpfs_opts").Fits := key_fits (by decide)
  have mounted : (quoted "keep_mounted").Fits := key_fits (by decide)
  simp [headPieces, code_fits, plugin, options, mounted, quoted_fits]

/-- The packages fit exactly when their names, joined by blanks, fit a line in apostrophes. -/
theorem packages_fit_iff : (∀ p ∈ packagePieces task, p.Fits) ↔
    ∀ packages, task.buildrootPkgs = some packages →
      FitsLine apostrophe (" ".intercalate packages).toList := by
  have key : (quoted "chroot_additional_packages").Fits := key_fits (by decide)
  unfold packagePieces
  cases task.buildrootPkgs with
  | none => simp
  | some packages =>
    cases packages with
    | nil =>
      have empty : FitsLine apostrophe (" ".intercalate []).toList := by decide
      exact ⟨fun _ _ same => Option.some.inj same ▸ empty, fun _ => List.forall_mem_nil _⟩
    | cons package more => simp [code_fits, key, quoted_fits]

/-- The network settings always fit. -/
theorem network_fits : ∀ p ∈ networkPieces task, p.Fits := by
  have networking : (quoted "rpmbuild_networking").Fits := key_fits (by decide)
  have resolv : (quoted "use_host_resolv").Fits := key_fits (by decide)
  simp [networkPieces, code_fits, networking, resolv]

/-- The isolation fits exactly when its value fits a line in apostrophes. -/
theorem isolation_fits_iff : (∀ p ∈ isolationPieces task, p.Fits) ↔
    ∀ isolation, task.isolation = some isolation → FitsLine apostrophe isolation.toList := by
  have key : (quoted "isolation").Fits := key_fits (by decide)
  have default : FitsLine apostrophe "default".toList := by decide
  unfold isolationPieces
  split
  · rename_i none_
    simp [none_]
  · rename_i given
    rw [given]
    exact ⟨fun _ _ same => Option.some.inj same ▸ default, fun _ => List.forall_mem_nil _⟩
  · rename_i isolation given
    simp [given, code_fits, key, quoted_fits]

/-- The macros fit exactly when all their values fit a line in apostrophes. -/
theorem macros_fit_iff :
    (∀ p ∈ (macrosForTask lib task config).flatMap macroPieces, p.Fits) ↔
      ∀ entry ∈ macrosForTask lib task config, FitsLine apostrophe entry.2.toList := by
  have key : (quoted "macros").Fits := key_fits (by decide)
  have names : ∀ entry ∈ macrosForTask lib task config, (quoted entry.1).Fits := by
    have each : ∀ name ∈ ["%copr_username", "%copr_projectname", "%vendor", "%buildtag",
        "%__urlhelper_localopts"], FitsLine apostrophe name.toList := by decide
    intro entry member
    refine quoted_fits.mpr (each entry.1 ?_)
    simp only [macrosForTask, List.mem_append, List.mem_cons, List.not_mem_nil, or_false,
      Option.mem_toList, Option.map_eq_some_iff] at member
    rcases member with (((rfl | rfl) | ⟨vendor, -, rfl⟩) | ⟨tag, -, rfl⟩) | ⟨protocols, -, rfl⟩ <;>
      simp
  rw [List.forall_mem_flatMap]
  refine forall₂_congr fun entry member => ?_
  simp [macroPieces, code_fits, key, names entry member, quoted_fits]

/-- Whether a bootstrap chroot is used. -/
theorem useBootstrap_fits {one other : String} :
    ∀ p ∈ useBootstrapPieces one other, p.Fits := by
  have bootstrap : (quoted "use_bootstrap").Fits := key_fits (by decide)
  have image : (quoted "use_bootstrap_image").Fits := key_fits (by decide)
  simp [useBootstrapPieces, code_fits, bootstrap, image]

/-- The bootstrap image fits exactly when its name fits a line in double quotes. -/
theorem image_fits_iff : (∀ p ∈ imagePieces task, p.Fits) ↔
    ∀ image, task.bootstrapImage = some image → FitsLine doubleQuote image.toList := by
  have key : (quoted "bootstrap_image").Fits := key_fits (by decide)
  unfold imagePieces given
  cases task.bootstrapImage with
  | none => simp
  | some image =>
    rw [Option.filter_some]
    by_cases nothing : image = ""
    · have empty : FitsLine doubleQuote "".toList := by decide
      rw [nothing]
      exact ⟨fun _ _ same => Option.some.inj same ▸ empty, fun _ => List.forall_mem_nil _⟩
    · have value : Piece.Fits (.literal ⟨doubleQuote, false⟩ image.toList) ↔
          FitsLine doubleQuote image.toList := fits_short_iff
      simp [nothing, code_fits, key, value]

/-- The bootstrap settings fit exactly when the image that they ask for does. -/
theorem bootstrap_fits_iff : (∀ p ∈ bootstrapPieces task, p.Fits) ↔
    (task.bootstrap = some "image" ∨ task.bootstrap = some "custom_image" →
      ∀ image, task.bootstrapImage = some image → FitsLine doubleQuote image.toList) := by
  unfold bootstrapPieces
  by_cases on : task.bootstrap = some "on"
  · rw [if_pos on]
    exact ⟨fun _ image => by simp [on] at image, fun _ => useBootstrap_fits⟩
  · by_cases off : task.bootstrap = some "off"
    · rw [if_neg on, if_pos off]
      exact ⟨fun _ image => by simp [off] at image, fun _ => useBootstrap_fits⟩
    · rw [if_neg on, if_neg off]
      split
      · rename_i image
        rw [List.forall_mem_append, and_iff_right useBootstrap_fits, image_fits_iff,
          imp_iff_right image]
      · rename_i other
        exact ⟨fun _ image => absurd image other, fun _ => List.forall_mem_nil _⟩

/-- The modules always fit. -/
theorem modules_fit : ∀ p ∈ modulePieces pprint task, p.Fits := by
  have key : (quoted "module_setup_commands").Fits := key_fits (by decide)
  unfold modulePieces
  split
  · simp
  · simp [code_fits, key]

/-- What is appended to `dnf.conf`. -/
theorem dnf_fits_iff : (∀ p ∈ dnfPieces task, p.Fits) ↔
    ∀ repos, task.repos = some repos → Fits ⟨doubleQuote, true⟩ (dnfConf repos) := by
  have key : Piece.Fits (.literal ⟨doubleQuote, false⟩ "dnf.conf".toList) :=
    fits_short_iff.mpr (by decide)
  unfold dnfPieces
  cases task.repos with
  | none => simp
  | some repos =>
    cases repos with
    | nil =>
      have empty : Fits ⟨doubleQuote, true⟩ (dnfConf []) := by
        rw [dnfConf_eq, fits_stack_iff (by decide)]
        decide
      simp [empty]
    | cons repo more =>
      have value : Piece.Fits (.literal ⟨doubleQuote, true⟩ (dnfConf (repo :: more))) ↔
          Fits ⟨doubleQuote, true⟩ (dnfConf (repo :: more)) := Iff.rfl
      simp only [List.forall_mem_cons, List.not_mem_nil, code_fits, key, value, true_and,
        Option.some.injEq, forall_eq', false_implies, implies_true, and_true]

end Values

/-! ## Meaning -/

/-- The text is read as the template means it: with the same tokens outside of the literals that are
given values, and with these values. What is appended to `dnf.conf` has one section for each
repository, with the keys of the template. -/
structure MeansTask (names : List Char → Option Nat) (lib : UrlLibrary)
    (pprint : List ModuleCommand → String) (config : BuilderConfig) (task : BuilderTask) :
    Prop where
  /-- The program. -/
  program : ReadAs names (mockConfig lib pprint config task)
    (renderConfigTemplate lib pprint config task)
  /-- The sections. -/
  sections : ∀ repos, task.repos = some repos →
    readIni (dnfConf repos) = some (dnfSections repos)

section Meaning

variable {names : List Char → Option Nat} {lib : UrlLibrary} {view : FrontendView}
  {pprint : List ModuleCommand → String} {config : BuilderConfig} {queued : QueuedBuild}
  {task : BuilderTask}

/-- The pieces of the template fit when the values of the task do, as far as the text for `dnf.conf`
is one literal. -/
theorem pieces_fit_iff : (∀ p ∈ mockConfig lib pprint config task, p.Fits) ↔
    FitsLine apostrophe ("/etc/mock/" ++ task.chroot ++ ".cfg").toList ∧
      (∀ packages, task.buildrootPkgs = some packages →
        FitsLine apostrophe (" ".intercalate packages).toList) ∧
      (∀ isolation, task.isolation = some isolation →
        FitsLine apostrophe isolation.toList) ∧
      (∀ entry ∈ macrosForTask lib task config, FitsLine apostrophe entry.2.toList) ∧
      (task.bootstrap = some "image" ∨ task.bootstrap = some "custom_image" →
        ∀ image, task.bootstrapImage = some image → FitsLine doubleQuote image.toList) ∧
      ∀ repos, task.repos = some repos → Fits ⟨doubleQuote, true⟩ (dnfConf repos) := by
  simp only [mockConfig, List.forall_mem_append, List.forall_mem_cons, head_fits_iff,
    packages_fit_iff, isolation_fits_iff, macros_fit_iff, bootstrap_fits_iff, dnf_fits_iff,
    iff_true_intro code_fits, iff_true_intro network_fits, iff_true_intro modules_fit, true_and]

/-- The program is read as it is meant when the pieces fit. -/
theorem program_iff
    (snippet : Given (mockSnippetForTags config.tagsToMockSnippet task.tags ++ "\n"))
    (printed : ∀ modules, task.modules = some modules → Given (pprint modules)) :
    ReadAs names (mockConfig lib pprint config task)
        (renderConfigTemplate lib pprint config task) ↔
      ∀ p ∈ mockConfig lib pprint config task, p.Fits := by
  obtain ⟨formed, separated⟩ := @mockConfig_formed lib pprint config task snippet printed
  exact readAs_iff formed separated

/-- The configuration of mock means the task exactly when every value that the template puts into
it fits. -/
theorem means_task_iff
    (generated : BuildConfigLogic.getBuildRecord lib view queued = some (some task))
    (snippet : Given (mockSnippetForTags config.tagsToMockSnippet task.tags ++ "\n"))
    (printed : ∀ modules, task.modules = some modules → Given (pprint modules)) :
    MeansTask names lib pprint config task ↔ FitsTask lib config task := by
  have program := @program_iff names lib pprint config task snippet printed
  have repositories : ∀ repos, task.repos = some repos →
      (Fits ⟨doubleQuote, true⟩ (dnfConf repos) ∧
        readIni (dnfConf repos) = some (dnfSections repos) ↔ ∀ repo ∈ repos, FitsRepo repo) :=
    fun repos given => dnfConf_fits_iff (namedRepo_task generated given)
  constructor
  · intro means
    obtain ⟨chroot, packages, isolation, macros, image, dnf⟩ :=
      pieces_fit_iff.mp (program.mp means.program)
    refine ⟨chroot, packages, isolation, macros, image, fun repos given => ?_⟩
    exact (repositories repos given).mp ⟨dnf repos given, means.sections repos given⟩
  · intro fits
    refine ⟨program.mpr (pieces_fit_iff.mpr ?_), fun repos given => ?_⟩
    · refine ⟨fits.chroot, fits.packages, fits.isolation, fits.macros, fits.image, ?_⟩
      exact fun repos given => ((repositories repos given).mpr (fits.repos repos given)).1
    · exact ((repositories repos given).mpr (fits.repos repos given)).2

end Meaning

end MockBuilder

namespace Sample

/-- The configuration of a builder. -/
def builderConfig : BuilderConfig where
  rpmVendorCoprName := some "Fedora Copr"
  enabledSourceProtocols := some "https ftps"
  tagsToMockSnippet := []

/-- The settings of a chroot with these packages and a repository. -/
def packageConfig (packages : String) : BuildConfig where
  buildrootPkgs := some packages
  repos := "https://example.com/$chroot/?priority=high"

/-- A project with a chroot that has these packages. -/
def packageProject (packages : String) : BuildProject where
  ownerName := "user"
  name := "project"
  coprChroots := [{
    row := { copr := 1, mockChroot := "fedora-41-x86_64", config := packageConfig packages }
    mockChroot := ⟨"fedora", "41", "x86_64", "f41"⟩
    isActive := true
    rolling := false }]

/-- A build of this project. -/
def queuedBuild (packages : String) : QueuedBuild where
  buildId := 7
  coprDir := ⟨packageProject packages, "project", true⟩
  enableNet := false
  mockChroot := ⟨"fedora", "41", "x86_64", "f41"⟩

/-- Its task. -/
def builderTask (packages : List String) : BuilderTask where
  taskId := "7-fedora-41-x86_64"
  projectOwner := "user"
  projectName := "project"
  chroot := "fedora-41-x86_64"
  tags := []
  enableNet := false
  modules := none
  repos := some [
    { id := "copr_base"
      baseurl := "https://backend/results/user/project/fedora-41-x86_64/"
      name := "Copr repository"
      repoGpgcheck := some false },
    { id := "https_example_com_chroot_priority_high"
      baseurl := "https://example.com/fedora-41-x86_64/"
      name := "Additional repo https_example_com_chroot_priority_high"
      priority := some (.text "high") }]
  buildrootPkgs := some packages
  bootstrap := none
  bootstrapImage := none
  isolation := some "default"

end Sample

namespace MockBuilder

open Sample

/-- The configuration of a task with two additional packages means the task. -/
theorem means_task_two_packages : MeansTask (fun _ => none) urlLibrary (fun _ => "") builderConfig
    (builderTask ["gcc", "make"]) := by
  have generated : BuildConfigLogic.getBuildRecord urlLibrary frontendView
      (queuedBuild "gcc make") = some (some (builderTask ["gcc", "make"])) := by decide
  refine (means_task_iff generated (by decide) (fun _ same => by cases same)).mpr ?_
  refine ⟨by decide, fun _ same => ?_, fun _ same => ?_, by decide, by decide, fun _ same => ?_⟩
  · exact Option.some.inj same ▸ by decide
  · exact Option.some.inj same ▸ by decide
  · exact Option.some.inj same ▸ by decide

/-- A package with an apostrophe ends the literal of the packages. -/
theorem package_ends_literal : ¬ ∀ names lib view pprint config existing queued task chroot,
    BuildConfigLogic.soughtChroot queued.coprDir queued.mockChroot.name = some chroot →
    BuildConfigLogic.AcceptedSettings lib existing queued.coprDir.copr chroot.row.config →
    BuildConfigLogic.getBuildRecord lib view queued = some (some task) →
    Given (mockSnippetForTags config.tagsToMockSnippet task.tags ++ "\n") →
    (∀ modules, task.modules = some modules → Given (pprint modules)) →
      MeansTask names lib pprint config task := by
  intro always
  have means : MeansTask (fun _ => none) urlLibrary (fun _ => "") builderConfig
      (builderTask ["vim'"]) := by
    refine always _ _ frontendView _ _ (fun _ _ => true) (queuedBuild "vim'") _ _ rfl ?_ (by decide)
      (by decide) (fun _ same => by cases same)
    exact ⟨by decide, by decide, by decide, by decide, by decide, by decide, by decide, by decide,
      by decide, by decide⟩
  have fits := (program_iff (by decide) (fun _ same => by cases same)).mp means.program
  obtain ⟨-, packages, -⟩ := pieces_fit_iff.mp fits
  exact absurd (packages _ rfl) (by decide)

end MockBuilder

end Copr
