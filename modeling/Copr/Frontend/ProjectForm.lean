import Mathlib.Data.Rat.Defs

/-!
# The form of a project

`CoprForm` of `coprs/forms.py` with its filters, and how the values of a request get into its
fields: `get_form_compatible_data`, `rename_fields` and the `process` and `validate` methods of the
fields. A value of a request is any value of JSON.
-/

namespace Copr

/-- A value that is no list. -/
inductive FormScalar
  /-- `true` or `false`. -/
  | bool (b : Bool)
  /-- A number without a fraction. -/
  | int (n : Int)
  /-- Another number. -/
  | real (q : Rat)
  /-- A text. -/
  | text (s : String)
  /-- An object. -/
  | object (empty : Bool)
  deriving DecidableEq

/-- Optional values are looked up in lists by their equality. -/
instance instLawfulBEqFormScalar : LawfulBEq (Option FormScalar) := inferInstance

/-- `bool(value)`. -/
def FormScalar.truthy : FormScalar → Bool
  | .bool b => b
  | .int n => n != 0
  | .real q => decide (q ≠ 0)
  | .text s => s != ""
  | .object empty => !empty

/-- A value of a request. -/
inductive InputValue
  /-- `null`. -/
  | null
  /-- A value that is no list. -/
  | scalar (v : FormScalar)
  /-- A list, with the texts of its elements. -/
  | list (items : List String)
  deriving DecidableEq

/-- What the form uses of other libraries and of the database of Unicode. -/
structure TextLibrary where
  /-- `c.isspace()`. -/
  isspace : Char → Bool
  /-- `int(text)`; `none` when it raises `ValueError`. -/
  int : String → Option Int
  /-- `str(value)` of a value that is no text. -/
  str : FormScalar → String
  /-- `netloc` and `path` of `urlparse`; `none` when it raises `ValueError`. -/
  urlparse : String → Option (String × String)
  /-- `wtforms.validators.URL` accepts a text. -/
  url : String → Bool
  /-- `wtforms.validators.Email` accepts a text. -/
  email : String → Bool
  /-- `UrlRepoListValidator` accepts a text. -/
  urlRepoList : String → Bool
  /-- `UrlListValidator` and `UrlSrpmListValidator` accept a text. -/
  urlSrpmList : String → Bool
  /-- There is no number in a blank text. -/
  int_blank : ∀ s : String, s.toList.all isspace = true → int s = none

namespace TextLibrary

variable (lib : TextLibrary)

/-- `text.split()`. -/
def words (text : String) : List String :=
  ((text.toList.splitOnP lib.isspace).filter fun word => !word.isEmpty).map String.ofList

/-- `text.strip()`. -/
def strip (text : String) : String :=
  String.ofList (((text.toList.dropWhile lib.isspace).reverse.dropWhile lib.isspace).reverse)

/-- `text.strip() == ""`. -/
def blank (text : String) : Bool := text.toList.all lib.isspace

/-- `str(value)`. -/
def toText : FormScalar → String
  | .text s => s
  | v => lib.str v

end TextLibrary

/-! ## Filters -/

/-- How the processing of a field fails. -/
inductive FilterError
  /-- `ValueError`, which becomes an error of the field. -/
  | valueError
  /-- Another exception, which ends the request. -/
  | raised
  deriving DecidableEq

/-- A filter of a field; no data stands for `None`. -/
abbrev FieldFilter := Option FormScalar → Except FilterError (Option FormScalar)

section Filters

variable (lib : TextLibrary)

/-- `StringListFilter`. -/
def stringListFilter : FieldFilter
  | none => .ok (some (.text ""))
  | some value =>
    if !value.truthy then .ok (some (.text ""))
    else
      match value with
      | .text s => .ok (some (.text ("\n".intercalate (lib.words s))))
      | _ => .error .raised

/-- `StripUrlSchemaListFilter`. -/
def stripUrlSchemaListFilter : FieldFilter
  | none => .ok (some (.text ""))
  | some value =>
    if !value.truthy then .ok (some (.text ""))
    else
      match value with
      | .text s =>
        match (lib.words s).mapM lib.urlparse with
        | some parsed => .ok (some (.text ("\n".intercalate (parsed.map fun u => u.1 ++ u.2))))
        | none => .error .valueError
      | _ => .error .raised

/-- `_optional_checkbox_filter`. -/
def optionalCheckboxFilter : FieldFilter := fun data =>
  if data ∈ [some (.bool true), some (.int 1), some (.real 1), some (.text "true")] then
    .ok (some (.bool true))
  else if data ∈ [some (.bool false), some (.int 0), some (.real 0), some (.text "false")] then
    .ok (some (.bool false))
  else .ok none

/-- `EmptyStringToNone`. -/
def emptyStringToNone : FieldFilter
  | none => .ok none
  | some (.text s) => if lib.blank s then .ok none else .ok (some (.text s))
  | some _ => .error .raised

/-- `strip_whitespace_filter`. -/
def stripWhitespaceFilter : FieldFilter
  | some (.text s) => .ok (some (.text (lib.strip s)))
  | data => .ok data

/-- `NoneFilter(None)`. -/
def noneFilter : FieldFilter := fun data =>
  if data ∈ [none, some (.text "None")] then .ok none else .ok data

/-- The filter of `delete_after_days`. -/
def withoutLimitFilter : FieldFilter
  | none => .ok (some (.int (-1)))
  | data => .ok data

end Filters

/-! ## Fields -/

/-- The fields of `CoprForm`, apart from `chroots`. -/
inductive ProjectField
  /-- `description`. -/
  | description
  /-- `instructions`. -/
  | instructions
  /-- `homepage`. -/
  | homepage
  /-- `contact`. -/
  | contact
  /-- `delete_after_days`. -/
  | deleteAfterDays
  /-- `repos`. -/
  | repos
  /-- `runtime_dependencies`. -/
  | runtimeDependencies
  /-- `initial_pkgs`. -/
  | initialPkgs
  /-- `disable_createrepo`. -/
  | disableCreaterepo
  /-- `unlisted_on_hp`. -/
  | unlistedOnHp
  /-- `auto_prune`. -/
  | autoPrune
  /-- `use_bootstrap_container`. -/
  | useBootstrapContainer
  /-- `bootstrap`. -/
  | bootstrap
  /-- `isolation`. -/
  | isolation
  /-- `follow_fedora_branching`. -/
  | followFedoraBranching
  /-- `multilib`. -/
  | multilib
  /-- `build_enable_net`. -/
  | buildEnableNet
  /-- `enable_net`. -/
  | enableNet
  /-- `module_hotfixes`. -/
  | moduleHotfixes
  /-- `fedora_review`. -/
  | fedoraReview
  /-- `appstream`. -/
  | appstream
  /-- `packit_forge_projects_allowed`. -/
  | packitForgeProjectsAllowed
  /-- `repo_priority`. -/
  | repoPriority
  /-- `storage`. -/
  | storage
  deriving DecidableEq

/-- The kinds of fields, after the classes of WTForms. -/
inductive FieldKind
  /-- `TextAreaField` or `StringField`. -/
  | text
  /-- `IntegerField`. -/
  | integer
  /-- `BooleanField` with `FALSE_VALUES`. -/
  | boolean
  /-- `SelectField`. -/
  | select (choices : List String)
  deriving DecidableEq

namespace ProjectField

/-- The fields in the order of the form. -/
def all : List ProjectField :=
  [description, instructions, homepage, contact, deleteAfterDays, repos, runtimeDependencies,
    initialPkgs, disableCreaterepo, unlistedOnHp, autoPrune, useBootstrapContainer, bootstrap,
    isolation, followFedoraBranching, multilib, buildEnableNet, enableNet, moduleHotfixes,
    fedoraReview, appstream, packitForgeProjectsAllowed, repoPriority, storage]

/-- `field.name`. -/
def name : ProjectField → String
  | description => "description"
  | instructions => "instructions"
  | homepage => "homepage"
  | contact => "contact"
  | deleteAfterDays => "delete_after_days"
  | repos => "repos"
  | runtimeDependencies => "runtime_dependencies"
  | initialPkgs => "initial_pkgs"
  | disableCreaterepo => "disable_createrepo"
  | unlistedOnHp => "unlisted_on_hp"
  | autoPrune => "auto_prune"
  | useBootstrapContainer => "use_bootstrap_container"
  | bootstrap => "bootstrap"
  | isolation => "isolation"
  | followFedoraBranching => "follow_fedora_branching"
  | multilib => "multilib"
  | buildEnableNet => "build_enable_net"
  | enableNet => "enable_net"
  | moduleHotfixes => "module_hotfixes"
  | fedoraReview => "fedora_review"
  | appstream => "appstream"
  | packitForgeProjectsAllowed => "packit_forge_projects_allowed"
  | repoPriority => "repo_priority"
  | storage => "storage"

/-- The class of a field, with its choices. -/
def kind : ProjectField → FieldKind
  | description | instructions | homepage | contact | repos | runtimeDependencies | initialPkgs
  | useBootstrapContainer | packitForgeProjectsAllowed => .text
  | deleteAfterDays | repoPriority => .integer
  | bootstrap => .select ["default", "off", "on", "image"]
  | isolation => .select ["default", "nspawn", "simple"]
  | storage => .select ["backend", "pulp"]
  | disableCreaterepo | unlistedOnHp | autoPrune | followFedoraBranching | multilib
  | buildEnableNet | enableNet | moduleHotfixes | fedoraReview | appstream => .boolean

/-- The filters of a field; `bind_field` adds the stripping of a `StringField`. -/
def filters (lib : TextLibrary) : ProjectField → List FieldFilter
  | homepage | contact => [emptyStringToNone lib, stripWhitespaceFilter lib]
  | deleteAfterDays => [withoutLimitFilter]
  | repos | runtimeDependencies | initialPkgs => [stringListFilter lib]
  | useBootstrapContainer => [optionalCheckboxFilter, stripWhitespaceFilter lib]
  | bootstrap | isolation => [noneFilter]
  | packitForgeProjectsAllowed => [stringListFilter lib, stripUrlSchemaListFilter lib]
  | _ => []

end ProjectField

/-! ## Processing -/

section Processing

variable (lib : TextLibrary)

/-- `process_formdata` of a field, with the value of the request if there is one. -/
def processFormdata : FieldKind → FieldFilter
  | .text, raw => .ok raw
  | .integer, none => .ok none
  | .integer, some (.int n) => .ok (some (.int n))
  | .integer, some (.bool b) => .ok (some (.int (if b then 1 else 0)))
  | .integer, some (.real q) => .ok (some (.int (q.num.tdiv q.den)))
  | .integer, some (.text s) =>
    match lib.int s with
    | some n => .ok (some (.int n))
    | none => .error .valueError
  | .integer, some (.object _) => .error .raised
  | .boolean, none => .ok (some (.bool false))
  -- An object cannot be looked up in a set.
  | .boolean, some (.object _) => .error .raised
  | .boolean, some (.text s) => .ok (some (.bool (decide (s ∉ ["false", ""]))))
  | .boolean, some v => .ok (some (.bool v.truthy))
  | .select _, none => .ok none
  | .select _, some v => .ok (some (.text (lib.toText v)))

/-- A field after `process`. -/
structure ProcessedField where
  /-- `data`. -/
  data : Option FormScalar
  /-- There are `process_errors`. -/
  failed : Bool
  deriving DecidableEq

/-- The filters of a field, up to the first `ValueError`; `none` when another exception ends the
request. -/
def applyFilters : List FieldFilter → ProcessedField → Option ProcessedField
  | [], field => some field
  | filter :: others, field =>
    match filter field.data with
    | .ok data => applyFilters others { field with data := data }
    | .error .valueError => some { field with failed := true }
    | .error .raised => none

/-- `process`; `none` when an exception ends the request. -/
def ProjectField.process (f : ProjectField) (raw : Option FormScalar) : Option ProcessedField :=
  match processFormdata lib f.kind raw with
  | .ok data => applyFilters (f.filters lib) ⟨data, false⟩
  | .error .valueError => applyFilters (f.filters lib) ⟨none, true⟩
  | .error .raised => none

/-- `wtforms.validators.Optional` ends the validation of a field, without errors. -/
def leftOut : Option FormScalar → Bool
  | none => true
  | some (.text s) => lib.blank s
  | some _ => false

/-- A text is accepted. -/
def acceptsText (validator : String → Bool) : Option FormScalar → Bool
  | some (.text s) => validator s
  | _ => false

/-- `NumberRange`. -/
def inRange (least : Int) (most : Option Int) : Option FormScalar → Bool
  | some (.int n) => decide (least ≤ n) && most.all fun m => decide (n ≤ m)
  | _ => false

/-- `validate` of a field. -/
def ProjectField.validate (f : ProjectField) (raw : Option FormScalar) (p : ProcessedField) :
    Bool :=
  match f with
  | homepage => leftOut lib raw || (!p.failed && acceptsText lib.url p.data)
  | contact =>
    leftOut lib raw || (!p.failed && acceptsText (fun s => lib.email s || lib.url s) p.data)
  | deleteAfterDays => leftOut lib raw || (!p.failed && inRange (-1) (some 720) p.data)
  | repos | runtimeDependencies => !p.failed && acceptsText lib.urlRepoList p.data
  | initialPkgs => !p.failed && acceptsText lib.urlSrpmList p.data
  | useBootstrapContainer | packitForgeProjectsAllowed => leftOut lib raw || !p.failed
  | repoPriority => leftOut lib raw || (!p.failed && inRange 1 none p.data)
  | f =>
    match f.kind with
    | .select choices =>
      leftOut lib raw || (!p.failed && acceptsText (fun s => decide (s ∈ choices)) p.data)
    | _ => !p.failed

end Processing

/-! ## The data of a request -/

/-- `rename_fields`. -/
def renameField : String → String
  | "devel_mode" => "disable_createrepo"
  | "additional_repos" => "repos"
  | key => key

/-- A request: keys with values. -/
abbrev FormInput := List (String × InputValue)

namespace FormInput

variable (input : FormInput)

/-- `get_form_compatible_data` and `rename_fields`, apart from the chroots: what is not `null`, with
lists joined by spaces. -/
def data : List (String × FormScalar) :=
  input.filterMap fun (key, value) =>
    if key = "chroots" then none
    else
      match value with
      | .null => none
      | .scalar v => some (renameField key, v)
      | .list items => some (renameField key, .text (" ".intercalate items))

/-- A field is supplied: `field.name in data.keys()`. -/
def Supplies (f : ProjectField) : Prop := f.name ∈ input.data.map Prod.fst

/-- It can be looked up. -/
instance (f : ProjectField) : Decidable (input.Supplies f) :=
  inferInstanceAs (Decidable (f.name ∈ input.data.map Prod.fst))

/-- The value that a field takes: the first one under its name. -/
def raw (f : ProjectField) : Option FormScalar := input.data.lookup f.name

/-- `chroots` of the request, unless it is `null`. -/
def chroots : Option InputValue :=
  match List.lookup "chroots" input with
  | some .null => none
  | value => value

end FormInput

end Copr
