import Copr.Lib.Dicts
import Copr.Lib.Paths
import Copr.Frontend.ProjectForm

/-!
# The forms of packages

The forms of `coprs/forms.py` for the five source types, as far as the source definition of a
package goes: their fields with filters and validators, and `source_json`. The other fields of
`BasePackageForm` only have a say in whether the form is accepted.
-/

namespace Copr

/-! ## Filters -/

/-- `text.replace('\r\n', '\n')`. -/
def replaceLineEnds : List Char → List Char
  | '\r' :: '\n' :: rest => '\n' :: replaceLineEnds rest
  | c :: rest => c :: replaceLineEnds rest
  | [] => []

/-- The first line of a text ends with `'\r'`. -/
def carriageReturn (text : List Char) : Bool :=
  (text.takeWhile (· ≠ '\n')).getLast? = some '\r'

/-- `cleanup_script` of a text. -/
def cleanupText (text : List Char) : List Char :=
  if text = [] then text
  else
    let unix := if carriageReturn text then replaceLineEnds text else text
    if unix.getLast? = some '\n' then unix else unix ++ ['\n']

/-- `cleanup_script`. -/
def cleanupScript : FieldFilter
  | none => .ok none
  | some (.text s) => .ok (some (.text (String.ofList (cleanupText s.toList))))
  | some value => if value.truthy then .error .raised else .ok (some value)

/-- The filter of `namespace`, before white space is removed. -/
def namespaceFilter : FieldFilter
  | none => .ok none
  | some value =>
    if !value.truthy then .ok none
    else
      match value with
      | .text s => .ok (some (.text (String.ofList (Paths.normpath s.toList))))
      | _ => .error .raised

/-- `NoneFilter(default)`. -/
def noneFilterTo (default : String) : FieldFilter := fun data =>
  if data ∈ [none, some (.text "None")] then .ok (some (.text default)) else .ok data

/-! ## The database -/

/-- `DistGitInstance`. -/
structure DistGitInstance where
  /-- `name`. -/
  name : String
  /-- `clone_url`. -/
  cloneUrl : String
  /-- `clone_package_uri.format(**params)` for a name and a namespace, if there is one; `none` when
  it raises an exception. -/
  formatUri : String → Option String → Option String
  /-- `default_namespace`. -/
  defaultNamespace : Option String

/-- `package_clone_url`; `none` when it raises an exception. -/
def DistGitInstance.packageCloneUrl (inst : DistGitInstance) (pkgname : String)
    (inNamespace : Option String) : Option String :=
  let inNamespace :=
    match inNamespace with
    | none | some "" => inst.defaultNamespace
    | some text => some text
  (inst.formatUri pkgname inNamespace).map fun uri =>
    inst.cloneUrl ++ "/" ++ String.ofList (Paths.strip (Paths.normpath uri.toList))

/-- A `MockChroot` that is active. -/
structure ActiveChroot where
  /-- `os_release`. -/
  osRelease : String
  /-- `os_version`. -/
  osVersion : String
  /-- `arch`. -/
  arch : String
  deriving DecidableEq, Repr

/-- `name`. -/
def ActiveChroot.name (chroot : ActiveChroot) : String :=
  chroot.osRelease ++ "-" ++ chroot.osVersion ++ "-" ++ chroot.arch

/-- What the forms read from the database. -/
structure FormTables where
  /-- The first of `DistGitLogic.ordered()`; there is one. -/
  firstDistGit : DistGitInstance
  /-- The other ones. -/
  otherDistGits : List DistGitInstance
  /-- The active chroots. -/
  chroots : List ActiveChroot

namespace FormTables

variable (tables : FormTables)

/-- `DistGitLogic.ordered()`. -/
def distGits : List DistGitInstance := tables.firstDistGit :: tables.otherDistGits

/-- `self.chroot.choices` of `PackageFormCustom`, in some order. -/
def chrootChoices : List String :=
  ((tables.chroots.filter fun chroot => chroot.osRelease = "fedora").map fun chroot =>
    "fedora-latest-" ++ chroot.arch) ++ tables.chroots.map ActiveChroot.name

/-- `DistGitLogic.get_clone_url`; `none` when it raises an exception. -/
def getCloneUrl (distgitName packageName : String) (inNamespace : Option String) :
    Option String :=
  match tables.distGits.find? fun inst => inst.name = distgitName with
  | none => none
  | some inst => inst.packageCloneUrl packageName inNamespace

end FormTables

/-! ## Fields -/

/-- The fields of the forms that the source definition is made of. -/
inductive PackageField
  /-- `scm_type`. -/
  | scmType
  /-- `clone_url`. -/
  | cloneUrl
  /-- `committish`. -/
  | committish
  /-- `subdirectory`. -/
  | subdirectory
  /-- `spec`. -/
  | spec
  /-- `srpm_build_method`. -/
  | srpmBuildMethod
  /-- `pypi_package_name`. -/
  | pypiPackageName
  /-- `pypi_package_version`. -/
  | pypiPackageVersion
  /-- `spec_generator`. -/
  | specGenerator
  /-- `spec_template`. -/
  | specTemplate
  /-- `python_versions`. -/
  | pythonVersions
  /-- `gem_name`. -/
  | gemName
  /-- `script`. -/
  | script
  /-- `builddeps`. -/
  | builddeps
  /-- `repos`. -/
  | repos
  /-- `chroot`. -/
  | chroot
  /-- `resultdir`. -/
  | resultdir
  /-- `distgit`. -/
  | distgit
  /-- `namespace`. -/
  | distGitNamespace
  deriving DecidableEq, Repr

/-- The classes of the fields. -/
inductive PackageFieldKind
  /-- `StringField` or `TextAreaField`. -/
  | text
  /-- `SelectField`. -/
  | select (choices : List String) (default : Option String)
  /-- `MultiCheckboxField`. -/
  | multi (choices : List String)
  deriving DecidableEq, Repr

/-- The values that a form gets under each name, a `MultiDict`; no value stands for `None`. -/
abbrev PackageFormdata := List (String × List (Option FormScalar))

/-- A value that may be `None`. -/
def InputValue.ofData : Option FormScalar → InputValue
  | none => .null
  | some value => .scalar value

/-- `bool(value)`. -/
def InputValue.truthy : InputValue → Bool
  | .null => false
  | .scalar value => value.truthy
  | .list items => !items.isEmpty

namespace PackageField

/-- `field.name`. -/
def name : PackageField → String
  | scmType => "scm_type"
  | cloneUrl => "clone_url"
  | committish => "committish"
  | subdirectory => "subdirectory"
  | spec => "spec"
  | srpmBuildMethod => "srpm_build_method"
  | pypiPackageName => "pypi_package_name"
  | pypiPackageVersion => "pypi_package_version"
  | specGenerator => "spec_generator"
  | specTemplate => "spec_template"
  | pythonVersions => "python_versions"
  | gemName => "gem_name"
  | script => "script"
  | builddeps => "builddeps"
  | repos => "repos"
  | chroot => "chroot"
  | resultdir => "resultdir"
  | distgit => "distgit"
  | distGitNamespace => "namespace"

variable (lib : TextLibrary) (tables : FormTables)

/-- The class of a field, with its choices and its default. -/
def kind : PackageField → PackageFieldKind
  | scmType => .select ["git", "svn"] (some "git")
  | srpmBuildMethod => .select ["rpkg", "tito", "tito_test", "make_srpm"] (some "rpkg")
  | specGenerator => .select ["pyp2rpm", "pyp2spec"] (some "pyp2spec")
  | specTemplate => .select ["", "fedora", "epel7", "mageia", "pld"] (some "")
  | pythonVersions => .multi ["3", "2"]
  | chroot => .select tables.chrootChoices (some "fedora-latest-x86_64")
  | distgit => .select (tables.distGits.map DistGitInstance.name) none
  | _ => .text

/-- The filters of a field; `bind_field` adds the stripping of a `StringField`. -/
def filters : PackageField → List FieldFilter
  | script => [cleanupScript]
  | repos => [stringListFilter lib]
  | distgit => [noneFilterTo tables.firstDistGit.name]
  | distGitNamespace => [namespaceFilter, stripWhitespaceFilter lib]
  | scmType | srpmBuildMethod | specGenerator | specTemplate | pythonVersions | chroot => []
  | _ => [stripWhitespaceFilter lib]

end PackageField

section Processing

variable (lib : TextLibrary)

/-- `str(value)`. -/
def textOfValue : Option FormScalar → String
  | none => "None"
  | some value => lib.toText value

/-- The default and `process_formdata` of a field, with the values under its name if there are
any. -/
def PackageFieldKind.processFormdata (values : Option (List (Option FormScalar))) :
    PackageFieldKind → InputValue
  | .text =>
    match values with
    | some (value :: _) => .ofData value
    | _ => .null
  | .select _ default =>
    match values with
    | some (value :: _) => .scalar (.text (textOfValue lib value))
    | _ => .ofData (default.map .text)
  | .multi _ => .list ((values.getD []).map (textOfValue lib))

/-- The filters, on what is no list; `none` when an exception ends the request. -/
def filterData (filters : List FieldFilter) : InputValue → Option InputValue
  | .list items => some (.list items)
  | .null => (applyFilters filters ⟨none, false⟩).map fun field => .ofData field.data
  | .scalar value => (applyFilters filters ⟨some value, false⟩).map fun field => .ofData field.data

/-- `process`; `none` when an exception ends the request. -/
def PackageField.process (tables : FormTables) (f : PackageField)
    (values : Option (List (Option FormScalar))) : Option InputValue :=
  filterData (f.filters lib tables) ((f.kind tables).processFormdata lib values)

/-- `wtforms.validators.Optional` ends the validation of a field, without errors. -/
def noValue : Option (List (Option FormScalar)) → Bool
  | some (some (.text s) :: _) => lib.blank s
  | some (_ :: _) => false
  | _ => true

/-- `DataRequired`. -/
def dataRequired : InputValue → Bool
  | .scalar (.text s) => !lib.blank s
  | data => data.truthy

/-- `Length(max)`; the number of entries of an object is not limited here. -/
def lengthAtMost (most : Nat) : InputValue → Bool
  | .scalar (.text s) => decide (s.length ≤ most)
  | .scalar (.object _) => true
  | data => !data.truthy

/-- A text is accepted; for another value an exception ends the request, or it is not accepted. -/
def textAccepted (accepts : String → Bool) : InputValue → Bool
  | .scalar (.text s) => accepts s
  | _ => false

/-- `^.+\.spec$`, for a text without white space at its end. -/
def isSpecFile (text : String) : Bool :=
  ".spec".toList.isSuffixOf text.toList && decide (5 < text.length) && decide ('\n' ∉ text.toList)

/-- `validate` of a field, with the values under its name. -/
def PackageField.validate (tables : FormTables) (f : PackageField)
    (values : Option (List (Option FormScalar))) (data : InputValue) : Bool :=
  match f with
  | cloneUrl => dataRequired lib data && textAccepted lib.url data
  | spec => noValue lib values || textAccepted isSpecFile data
  | pypiPackageName => dataRequired lib data && lengthAtMost (100 - 7) data
  | gemName => dataRequired lib data && lengthAtMost (100 - 8) data
  | script => dataRequired lib data && lengthAtMost 4096 data
  | repos => textAccepted lib.urlRepoList data
  | f =>
    match f.kind tables with
    | .select choices _ => textAccepted (fun text => decide (text ∈ choices)) data
    | .multi choices =>
      match data with
      | .list items => items.all fun text => decide (text ∈ choices)
      | _ => false
    | .text => true

/-- `package_name`; `none` when an exception ends the request. -/
def packageName (formdata : PackageFormdata) : Option InputValue :=
  filterData [stripWhitespaceFilter lib]
    (PackageFieldKind.text.processFormdata lib (formdata.lookup "package_name"))

/-- `package_name_regex`. -/
def matchesPackageName (text : String) : Bool :=
  text ≠ "" && text.toList.all fun c =>
    c ∈ ['-', '+', '_', '.'] || ('a' ≤ c && c ≤ 'z') || ('A' ≤ c && c ≤ 'Z') || ('0' ≤ c && c ≤ '9')

/-- `validate` of `package_name`. -/
def validPackageName (data : InputValue) : Bool :=
  lengthAtMost 100 data && textAccepted matchesPackageName data

end Processing

end Copr
