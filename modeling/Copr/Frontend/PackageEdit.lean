import Copr.Lib.Tokens
import Copr.Frontend.PackageForms

/-!
# Partial edits of packages

`source_json` of the forms, `process_package_add_or_edit` for a package that exists, and what the
API makes of a request (`get_form_compatible_data`, `rename_fields`, `PackageEdit.post`). The stored
definition is turned back into data of the form under its own keys, which are not always the
names of the fields.
-/

namespace Copr

/-- A stored source definition. -/
abbrev SourceJson := List (String × InputValue)

/-- A value that is a text. -/
def InputValue.text? : InputValue → Option String
  | .scalar (.text s) => some s
  | _ => none

/-- A value that is stored only if it is true. -/
def InputValue.optional (v : InputValue) : Option InputValue := if v.truthy then some v else none

/-- The form classes. -/
inductive SourceForm
  /-- `PackageFormScm`. -/
  | scm
  /-- `PackageFormPyPI`. -/
  | pypi
  /-- `PackageFormRubyGems`. -/
  | rubygems
  /-- `PackageFormCustom`. -/
  | custom
  /-- `PackageFormDistGitSimple`. -/
  | distgit
  deriving DecidableEq, Repr

namespace SourceForm

/-- `get_package_form_cls_by_source_type_text`. -/
def ofText : String → Option SourceForm
  | "scm" => some .scm
  | "pypi" => some .pypi
  | "rubygems" => some .rubygems
  | "custom" => some .custom
  | "distgit" => some .distgit
  | _ => none

/-- The source type of a form. -/
def text : SourceForm → String
  | .scm => "scm"
  | .pypi => "pypi"
  | .rubygems => "rubygems"
  | .custom => "custom"
  | .distgit => "distgit"

/-- The keys of `source_json` with the fields whose data are stored under them. -/
def keys : SourceForm → List (String × PackageField)
  | .scm => [("type", .scmType), ("clone_url", .cloneUrl), ("subdirectory", .subdirectory),
      ("committish", .committish), ("spec", .spec), ("srpm_build_method", .srpmBuildMethod)]
  | .pypi => [("pypi_package_name", .pypiPackageName),
      ("pypi_package_version", .pypiPackageVersion), ("spec_generator", .specGenerator),
      ("spec_template", .specTemplate), ("python_versions", .pythonVersions)]
  | .rubygems => [("gem_name", .gemName)]
  | .custom => [("script", .script), ("chroot", .chroot), ("builddeps", .builddeps),
      ("resultdir", .resultdir), ("repos", .repos)]
  | .distgit => [("distgit", .distgit), ("namespace", .distGitNamespace),
      ("committish", .committish)]

variable (lib : TextLibrary) (tables : FormTables) (form : SourceForm) (formdata : PackageFormdata)

/-- `field.data`. -/
def fieldData (f : PackageField) : InputValue :=
  (f.process lib tables (formdata.lookup f.name)).getD .null

/-- `clone_url` of `PackageFormDistGitSimple`; `none` when it raises an exception. -/
def cloneUrl : Option String := do
  let distgit ← (fieldData lib tables formdata .distgit).text?
  let packageName ← (packageName lib formdata).bind InputValue.text?
  tables.getCloneUrl distgit packageName (fieldData lib tables formdata .distGitNamespace).text?

/-- `source_json`. -/
def sourceJson : SourceJson :=
  match form with
  | .distgit =>
    ("clone_url", InputValue.ofData ((cloneUrl lib tables formdata).map .text)) ::
      SourceForm.distgit.keys.filterMap fun entry =>
        (fieldData lib tables formdata entry.2).optional.map fun data => (entry.1, data)
  | form => form.keys.map fun entry => (entry.1, fieldData lib tables formdata entry.2)

/-- `validate_on_submit`, with what the other fields of `BasePackageForm` make of the data. -/
def accepts (others : PackageFormdata → Bool) : Bool :=
  (packageName lib formdata).any validPackageName && others formdata &&
    (form.keys.all fun entry =>
      (entry.2.process lib tables (formdata.lookup entry.2.name)).any
        (entry.2.validate lib tables (formdata.lookup entry.2.name))) &&
    (form ≠ .distgit || (cloneUrl lib tables formdata).isSome)

end SourceForm

/-! ## Requests -/

/-- `rename_fields`. -/
def renamePackageField : String → String
  | "is_background" => "background"
  | "memory_limit" => "memory_reqs"
  | "source_build_method" => "srpm_build_method"
  | "script_builddeps" => "builddeps"
  | "script_resultdir" => "resultdir"
  | "script_chroot" => "chroot"
  | "script_repos" => "repos"
  | key => key

/-- `get_form_compatible_data` that preserves `python_versions`, and `rename_fields`: an empty list
that is preserved leaves no value. -/
def packageData (input : FormInput) : PackageFormdata :=
  Dicts.group <| input.flatMap fun (key, value) =>
    match value with
    | .null => []
    | .scalar v => [(renamePackageField key, some v)]
    | .list items =>
      if key = "python_versions" then
        items.map fun item => (renamePackageField key, some (.text item))
      else [(renamePackageField key, some (.text (" ".intercalate items)))]

/-- The columns of a package that its source definition consists of. -/
structure PackageSource where
  /-- `source_type_text`. -/
  sourceTypeText : String
  /-- `source_json_dict`. -/
  sourceJson : SourceJson

/-- The values under which a stored value is added to the data of the form. -/
def InputValue.values : InputValue → List (Option FormScalar)
  | .null => [none]
  | .scalar v => [some v]
  | .list items => items.map fun item => some (.text item)

/-- `formdata`: the data of the request and what is stored under other keys. A request without data
is not completed. -/
def completed (package : PackageSource) (data : PackageFormdata) : PackageFormdata :=
  if data = [] then data
  else
    data ++ (package.sourceJson.filter fun entry => entry.1 ∉ data.map Prod.fst).map fun entry =>
      (entry.1, entry.2.values)

/-- How a request is answered that does not edit a package. -/
inductive PackageEditError
  /-- `InsufficientRightsException`. -/
  | insufficientRights (message : String)
  /-- `ApiError`. -/
  | apiError (message : String) (code : Nat)
  /-- `InvalidForm`, or another exception ends the request. -/
  | invalidForm
  deriving DecidableEq, Repr

section Editing

variable (lib : TextLibrary) (tables : FormTables) (others : PackageFormdata → Bool)

/-- `process_package_add_or_edit` for a package that exists. -/
def processPackageAddOrEdit (canEdit : Bool) (sourceTypeText : String) (package : PackageSource)
    (data : PackageFormdata) : Except PackageEditError PackageSource :=
  if !canEdit then
    .error (.insufficientRights "You are not allowed to add or edit packages in this copr.")
  else
    match SourceForm.ofText sourceTypeText with
    | none => .error (.apiError ("Unsupported package source type " ++ sourceTypeText) 400)
    | some form =>
      let formdata := completed package data
      if form.accepts lib tables formdata others then
        .ok { sourceTypeText := sourceTypeText, sourceJson := form.sourceJson lib tables formdata }
      else .error .invalidForm

/-- `PackageEdit.post` for a package that exists. -/
def PackageEdit.post (canEdit : Bool) (sourceTypeText : Option String) (package : PackageSource)
    (input : FormInput) : Except PackageEditError PackageSource :=
  let sourceTypeText :=
    match sourceTypeText with
    | none | some "" => package.sourceTypeText
    | some text => text
  processPackageAddOrEdit lib tables others canEdit sourceTypeText package (packageData input)

end Editing

/-! ## Processing again -/

section Reprocessing

variable {lib : TextLibrary} {tables tables' : FormTables} {f : PackageField}
  {values : Option (List (Option FormScalar))} {v : InputValue} {d x : Option FormScalar}
  {filter : FieldFilter}

/-- The value that a text field takes. -/
def firstValue : Option (List (Option FormScalar)) → Option FormScalar
  | some (value :: _) => value
  | _ => none

/-- Data of a field are determined by their value. -/
theorem ofData_inj (same : InputValue.ofData d = .ofData x) : d = x := by
  cases d <;> cases x <;> simp_all [InputValue.ofData]

/-- The filters, on what may be `None`. -/
theorem filterData_ofData (filters : List FieldFilter) (d : Option FormScalar) :
    filterData filters (.ofData d) =
      (applyFilters filters ⟨d, false⟩).map fun field => .ofData field.data := by
  cases d <;> rfl

/-- A text field takes its first value. -/
theorem processFormdata_text (lib : TextLibrary) (values : Option (List (Option FormScalar))) :
    PackageFieldKind.text.processFormdata lib values = .ofData (firstValue values) := by
  match values with
  | none | some [] | some (_ :: _) => rfl

/-- A stored value is the first one under its key. -/
theorem firstValue_ofData (x : Option FormScalar) :
    firstValue (some (InputValue.ofData x).values) = x := by
  cases x <;> rfl

/-- A field with one filter that never raises `ValueError`. -/
theorem process_one_filter (text : f.kind tables = .text) (one : f.filters lib tables = [filter])
    (fine : ∀ d, filter d ≠ .error .valueError) :
    f.process lib tables values = some v ↔
      ∃ x, v = .ofData x ∧ filter (firstValue values) = .ok x := by
  rw [PackageField.process, text, one, processFormdata_text, filterData_ofData]
  cases filtered : filter (firstValue values) with
  | ok x => simp [applyFilters, filtered, eq_comm]
  | error e =>
    cases e with
    | valueError => exact absurd filtered (fine _)
    | raised => simp [applyFilters, filtered]

/-- What the one filter of a field has made is kept exactly if the filter keeps it. -/
theorem reprocess_one_filter (text : ∀ tables, f.kind tables = .text)
    (one : ∀ tables, f.filters lib tables = [filter]) (fine : ∀ d, filter d ≠ .error .valueError) :
    f.process lib tables' (some (InputValue.ofData x).values) = some (.ofData x) ↔
      filter x = .ok x := by
  rw [process_one_filter (text tables') (one tables') fine, firstValue_ofData]
  constructor
  · rintro ⟨y, same, kept⟩
    rw [ofData_inj same]
    exact ofData_inj same ▸ kept
  · exact fun kept => ⟨x, rfl, kept⟩

/-! ### Stripping -/

/-- Nothing is stripped twice. -/
theorem TextLibrary.strip_strip (lib : TextLibrary) (s : String) :
    lib.strip (lib.strip s) = lib.strip s := by
  have again := Tokens.trimmed_twice lib.isspace s.toList
  simp only [List.rdropWhile] at again
  simp only [TextLibrary.strip, String.toList_ofList]
  rw [again, List.reverse_reverse, List.dropWhile_idempotent]

/-- Stripping white space raises no `ValueError`. -/
theorem stripWhitespaceFilter_fine (d : Option FormScalar) :
    stripWhitespaceFilter lib d ≠ .error .valueError := by
  unfold stripWhitespaceFilter
  split <;> simp

/-- What was stripped is kept. -/
theorem stripWhitespaceFilter_keeps (made : stripWhitespaceFilter lib d = .ok x) :
    stripWhitespaceFilter lib x = .ok x := by
  match d with
  | none | some (.bool _) | some (.int _) | some (.real _) | some (.object _) =>
    obtain rfl := Except.ok.inj made
    rfl
  | some (.text s) =>
    obtain rfl := Except.ok.inj made
    rw [stripWhitespaceFilter, lib.strip_strip]

/-- The words of a list of words. -/
theorem words_intercalate (newline : lib.isspace '\n' = true) (s : String) :
    lib.words ("\n".intercalate (lib.words s)) = lib.words s := by
  have words : ∀ text : String, lib.words text =
      (Tokens.runs (fun c => !lib.isspace c) text.toList).map String.ofList := by
    intro text
    simp only [TextLibrary.words, Tokens.runs, Bool.not_not]
  have joined : ("\n".intercalate (lib.words s)).toList =
      ['\n'].intercalate (Tokens.runs (fun c => !lib.isspace c) s.toList) := by
    rw [String.toList_intercalate, words, List.map_map]
    have same : String.toList ∘ String.ofList = id := funext fun l => String.toList_ofList
    rw [same, List.map_id]
    rfl
  rw [words, joined, Tokens.runs_intercalate (by simp [newline]), words]
  intro run listed
  have kept : ∀ c ∈ run, (!lib.isspace c) = true := by
    intro c member
    have keep := Tokens.keep_of_mem_runs listed member
    exact keep
  exact ⟨Tokens.ne_nil_of_mem_runs listed, kept⟩

/-- A list of words is made, or an exception ends the request. -/
theorem stringListFilter_fine (d : Option FormScalar) :
    stringListFilter lib d ≠ .error .valueError := by
  unfold stringListFilter
  split
  · simp
  · split
    · simp
    · split <;> simp

/-- A list of words is kept. -/
theorem stringListFilter_keeps (newline : lib.isspace '\n' = true)
    (made : stringListFilter lib d = .ok x) : stringListFilter lib x = .ok x := by
  have words : ∀ s : String, stringListFilter lib (some (.text s)) =
      .ok (some (.text ("\n".intercalate (lib.words s)))) := by
    intro s
    by_cases empty : s = ""
    · subst empty
      rfl
    · have truthy : (FormScalar.text s).truthy = true := by simp [FormScalar.truthy, empty]
      rw [stringListFilter, truthy]
      rfl
  match d with
  | none =>
    obtain rfl := Except.ok.inj made
    rfl
  | some value =>
    cases value with
    | text s =>
      rw [words] at made
      obtain rfl := Except.ok.inj made
      rw [words, words_intercalate newline]
    | _ =>
      simp only [stringListFilter] at made
      split at made
      · obtain rfl := Except.ok.inj made
        rfl
      · contradiction

/-! ### Scripts -/

/-- A text that ends with a newline still does. -/
theorem getLast?_replaceLineEnds (text : List Char) (last : text.getLast? = some '\n') :
    (replaceLineEnds text).getLast? = some '\n' := by
  fun_induction replaceLineEnds text with
  | case1 rest ih =>
    cases rest with
    | nil => rfl
    | cons c rest =>
      have later := ih (by simpa using last)
      rw [List.getLast?_cons, later]
      rfl
  | case2 c rest other ih =>
    cases rest with
    | nil => simpa [replaceLineEnds] using last
    | cons d rest =>
      have later := ih (by simpa using last)
      rw [List.getLast?_cons, later]
      rfl
  | case3 => contradiction

/-- A replaced line end makes a text shorter. -/
theorem length_replaceLineEnds (text : List Char) :
    (replaceLineEnds text).length ≤ text.length ∧ ∀ before after,
      text = before ++ '\r' :: '\n' :: after → (replaceLineEnds text).length < text.length := by
  fun_induction replaceLineEnds text with
  | case1 rest ih =>
    have shorter : ('\n' :: replaceLineEnds rest).length < ('\r' :: '\n' :: rest).length := by
      simp only [List.length_cons]
      omega
    exact ⟨Nat.le_of_lt shorter, fun _ _ _ => shorter⟩
  | case2 c rest other ih =>
    refine ⟨by simpa using ih.1, fun before after split => ?_⟩
    cases before with
    | nil =>
      obtain ⟨rfl, rfl⟩ := List.cons.inj split
      exact absurd rfl (other after rfl)
    | cons d before =>
      obtain ⟨rfl, rfl⟩ := List.cons.inj split
      simpa using ih.2 before after rfl
  | case3 => simp

/-- A text whose first line ends with a carriage return and that ends with a newline has both in
a row. -/
theorem line_end_of_carriageReturn {text : List Char} (first : carriageReturn text = true)
    (last : text.getLast? = some '\n') :
    ∃ before after, text = before ++ '\r' :: '\n' :: after := by
  obtain ⟨before, line⟩ := List.getLast?_eq_some_iff.mp (of_decide_eq_true first)
  have whole := List.takeWhile_append_dropWhile (p := fun c => decide (c ≠ '\n')) (l := text)
  rw [line] at whole
  cases rest : text.dropWhile fun c => decide (c ≠ '\n') with
  | nil =>
    rw [rest, List.append_nil] at whole
    rw [← whole, List.getLast?_concat] at last
    contradiction
  | cons c after =>
    have stopped := List.head?_dropWhile_not (fun c => decide (c ≠ '\n')) text
    rw [rest] at stopped
    have newline : c = '\n' := by simpa using stopped
    subst newline
    rw [rest, List.append_assoc] at whole
    exact ⟨before, after, whole.symm⟩

/-- A text that ends with a newline is kept exactly if its first line does not end with a carriage
return. -/
theorem cleanupText_eq_iff {text : List Char} (last : text.getLast? = some '\n') :
    cleanupText text = text ↔ carriageReturn text = false := by
  have occupied : text ≠ [] := by
    rintro rfl
    contradiction
  cases first : carriageReturn text with
  | false => simp [cleanupText, occupied, first, last]
  | true =>
    obtain ⟨before, after, split⟩ := line_end_of_carriageReturn first last
    have shorter := (length_replaceLineEnds text).2 before after split
    have ends := getLast?_replaceLineEnds text last
    simp only [cleanupText, occupied, first, ends, if_false, if_true]
    exact iff_of_false (fun same => by rw [same] at shorter; omega) (by decide)

/-- A text that was cleaned up ends with a newline, unless it is empty. -/
theorem getLast?_cleanupText (text : List Char) :
    cleanupText text = [] ∨ (cleanupText text).getLast? = some '\n' := by
  by_cases empty : text = []
  · exact Or.inl (by simp [cleanupText, empty])
  · right
    rw [cleanupText, if_neg empty]
    generalize (if carriageReturn text then replaceLineEnds text else text) = unix
    by_cases ends : unix.getLast? = some '\n'
    · simp only [ends, if_true]
    · simp only [ends, if_false, List.getLast?_concat]

/-- A script is cleaned up, or an exception ends the request. -/
theorem cleanupScript_fine (d : Option FormScalar) : cleanupScript d ≠ .error .valueError := by
  unfold cleanupScript
  split
  · simp
  · simp
  · split <;> simp

/-- A script is kept exactly if its first line does not end with a carriage return. -/
theorem cleanupScript_keeps_iff (made : cleanupScript d = .ok x) : cleanupScript x = .ok x ↔
    ∀ s, x = some (.text s) → carriageReturn s.toList = false := by
  match d with
  | none =>
    obtain rfl := Except.ok.inj made
    exact iff_of_true rfl fun s same => by contradiction
  | some value =>
    cases value with
    | text t =>
      obtain rfl := Except.ok.inj made
      have again : cleanupScript (some (.text (String.ofList (cleanupText t.toList)))) =
          .ok (some (.text (String.ofList (cleanupText t.toList)))) ↔
            cleanupText (cleanupText t.toList) = cleanupText t.toList := by
        simp [cleanupScript, String.ofList_inj]
      rw [again]
      have texts : (∀ s, some (FormScalar.text (String.ofList (cleanupText t.toList))) =
          some (.text s) → carriageReturn s.toList = false) ↔
            carriageReturn (cleanupText t.toList) = false := by
        simp
      rw [texts]
      rcases getLast?_cleanupText t.toList with empty | last
      · rw [empty]
        decide
      · exact cleanupText_eq_iff last
    | _ =>
      simp only [cleanupScript] at made
      split at made
      · contradiction
      · obtain rfl := Except.ok.inj made
        refine iff_of_true ?_ (by simp)
        rename_i false_
        simp [cleanupScript, false_]

/-! ### Fields -/

/-- The value of a select box is one text. -/
theorem process_select {choices : List String} {default : String}
    (select : f.kind tables = .select choices (some default)) (plain : f.filters lib tables = [])
    (made : f.process lib tables values = some v) : ∃ t, v = .scalar (.text t) := by
  rw [PackageField.process, select, plain] at made
  match values with
  | none | some [] =>
    obtain rfl := Option.some.inj made
    exact ⟨default, rfl⟩
  | some (value :: _) =>
    obtain rfl := Option.some.inj made
    exact ⟨textOfValue lib value, rfl⟩

/-- A text is kept by a select box. -/
theorem reprocess_select {choices : List String} {default : Option String} {t : String}
    (select : f.kind tables = .select choices default) (plain : f.filters lib tables = []) :
    f.process lib tables (some (InputValue.scalar (.text t)).values) =
      some (.scalar (.text t)) := by
  rw [PackageField.process, select, plain]
  rfl

/-- The value of a list of checkboxes is kept. -/
theorem reprocess_pythonVersions
    (made : PackageField.pythonVersions.process lib tables values = some v) :
    PackageField.pythonVersions.process lib tables' (some v.values) = some v := by
  obtain rfl := Option.some.inj made
  simp [PackageField.process, PackageField.kind, PackageFieldKind.processFormdata, filterData,
    InputValue.values, textOfValue, TextLibrary.toText, Function.comp_def]

/-- `NoneFilter`, on a text. -/
theorem noneFilterTo_text (default t : String) : noneFilterTo default (some (.text t)) =
    .ok (some (.text (if t = "None" then default else t))) := by
  by_cases none_ : t = "None" <;> simp [noneFilterTo, none_]

/-- What a name of a DistGit instance becomes. -/
theorem filterData_distgit (t : String) :
    filterData (PackageField.distgit.filters lib tables) (.scalar (.text t)) =
      some (.scalar (.text (if t = "None" then tables.firstDistGit.name else t))) := by
  simp [PackageField.filters, filterData, applyFilters, noneFilterTo_text, InputValue.ofData]

/-- The DistGit instance is a text. -/
theorem process_distgit (made : PackageField.distgit.process lib tables values = some v) :
    ∃ t, v = .scalar (.text t) := by
  rw [PackageField.process] at made
  match values with
  | none | some [] =>
    obtain rfl := Option.some.inj made
    exact ⟨tables.firstDistGit.name, rfl⟩
  | some (value :: _) =>
    obtain rfl := Option.some.inj ((filterData_distgit (textOfValue lib value)).symm.trans made)
    exact ⟨_, rfl⟩

/-- A name of a DistGit instance is kept, apart from `None`. -/
theorem reprocess_distgit_iff {t : String} :
    PackageField.distgit.process lib tables (some (InputValue.scalar (.text t)).values) =
        some (.scalar (.text t)) ↔ (t = "None" → tables.firstDistGit.name = "None") := by
  have processed : PackageField.distgit.process lib tables
      (some (InputValue.scalar (.text t)).values) =
        some (.scalar (.text (if t = "None" then tables.firstDistGit.name else t))) :=
    filterData_distgit t
  rw [processed]
  by_cases none_ : t = "None" <;> simp [none_]

/-- What a namespace becomes. -/
theorem filterData_namespace (t : String) :
    filterData (PackageField.distGitNamespace.filters lib tables) (.scalar (.text t)) =
      some (if t = "" then .null
        else .scalar (.text (lib.strip (String.ofList (Paths.normpath t.toList))))) := by
  by_cases empty : t = ""
  · subst empty
    rfl
  · simp [PackageField.filters, filterData, applyFilters, namespaceFilter, FormScalar.truthy, empty,
      stripWhitespaceFilter, InputValue.ofData]

/-- A namespace is `None` or a text. -/
theorem process_namespace
    (made : PackageField.distGitNamespace.process lib tables values = some v) :
    v = .null ∨ ∃ t, v = .scalar (.text t) := by
  have kind : PackageField.distGitNamespace.kind tables = .text := rfl
  rw [PackageField.process, kind, processFormdata_text] at made
  generalize firstValue values = d at made
  match d with
  | none =>
    obtain rfl := Option.some.inj made
    exact Or.inl rfl
  | some (.text t) =>
    obtain rfl := Option.some.inj ((filterData_namespace t).symm.trans made)
    by_cases empty : t = ""
    · exact Or.inl (if_pos empty)
    · exact Or.inr ⟨_, if_neg empty⟩
  | some (.bool _) | some (.int _) | some (.real _) | some (.object _) =>
    simp only [InputValue.ofData, filterData, PackageField.filters, applyFilters,
      namespaceFilter] at made
    split at made
    · rename_i ignored
      split at ignored
      · obtain rfl := Except.ok.inj ignored
        obtain rfl := Option.some.inj made
        exact Or.inl rfl
      · contradiction
    · rename_i failed
      split at failed <;> contradiction
    · contradiction

/-- A namespace is kept exactly if it is normalized and stripped. -/
theorem reprocess_namespace_iff {t : String} (occupied : t ≠ "") :
    PackageField.distGitNamespace.process lib tables (some (InputValue.scalar (.text t)).values) =
        some (.scalar (.text t)) ↔
      lib.strip (String.ofList (Paths.normpath t.toList)) = t := by
  have processed : PackageField.distGitNamespace.process lib tables
      (some (InputValue.scalar (.text t)).values) = _ := filterData_namespace t
  rw [processed, if_neg occupied]
  simp

/-- A stored value is kept when its field is processed again. -/
def Lasting (lib : TextLibrary) (tables : FormTables) (v : InputValue) : PackageField → Prop
  | .scmType => v = .scalar (.text "git")
  | .script => ∀ s, v = .scalar (.text s) → carriageReturn s.toList = false
  | .distgit => v = .scalar (.text "None") → tables.firstDistGit.name = "None"
  | .distGitNamespace => ∀ s, v = .scalar (.text s) →
      lib.strip (String.ofList (Paths.normpath s.toList)) = s
  | _ => True

/-- What a field makes of its stored value. -/
theorem reprocess_iff (newline : lib.isspace '\n' = true)
    (made : f.process lib tables values = some v) (different : f ≠ .scmType)
    (occupied : f = .distGitNamespace → v.truthy = true) :
    f.process lib tables' (some v.values) = some v ↔ Lasting lib tables' v f := by
  cases f with
  | scmType => contradiction
  | srpmBuildMethod | specGenerator | specTemplate | chroot =>
    obtain ⟨t, rfl⟩ := process_select rfl rfl made
    exact iff_of_true (reprocess_select rfl rfl) trivial
  | pythonVersions => exact iff_of_true (reprocess_pythonVersions made) trivial
  | distgit =>
    obtain ⟨t, rfl⟩ := process_distgit made
    rw [reprocess_distgit_iff, Lasting]
    simp
  | distGitNamespace =>
    rcases process_namespace made with rfl | ⟨t, rfl⟩
    · exact absurd (occupied rfl) (by decide)
    · have full : t ≠ "" := by simpa [InputValue.truthy, FormScalar.truthy] using occupied rfl
      rw [reprocess_namespace_iff full, Lasting]
      simp
  | script =>
    obtain ⟨x, rfl, kept⟩ := (process_one_filter rfl rfl cleanupScript_fine).mp made
    rw [reprocess_one_filter (fun _ => rfl) (fun _ => rfl) cleanupScript_fine,
      cleanupScript_keeps_iff kept, Lasting]
    cases x <;> simp [InputValue.ofData]
  | repos =>
    obtain ⟨x, rfl, kept⟩ := (process_one_filter rfl rfl stringListFilter_fine).mp made
    rw [reprocess_one_filter (fun _ => rfl) (fun _ => rfl) stringListFilter_fine]
    exact iff_of_true (stringListFilter_keeps newline kept) trivial
  | _ =>
    obtain ⟨x, rfl, kept⟩ := (process_one_filter rfl rfl stripWhitespaceFilter_fine).mp made
    rw [reprocess_one_filter (fun _ => rfl) (fun _ => rfl) stripWhitespaceFilter_fine]
    exact iff_of_true (stripWhitespaceFilter_keeps kept) trivial

end Reprocessing

/-! ## What an edit keeps -/

/-- A field is supplied by the request. -/
def SuppliesField (data : PackageFormdata) (f : PackageField) : Prop :=
  f.name ∈ data.map Prod.fst

instance (data : PackageFormdata) (f : PackageField) : Decidable (SuppliesField data f) :=
  inferInstanceAs (Decidable (f.name ∈ data.map Prod.fst))

/-- The request supplies no field of the source definition. -/
def SuppliesNothing (form : SourceForm) (data : PackageFormdata) : Prop :=
  ∀ entry ∈ form.keys, ¬ SuppliesField data entry.2

/-- What is stored of the fields that the request does not supply stays, and everything stays if it
supplies none. -/
def KeepsRest (form : SourceForm) (data : PackageFormdata) (old new : SourceJson) : Prop :=
  (∀ entry ∈ form.keys, ¬ SuppliesField data entry.2 →
    new.lookup entry.1 = old.lookup entry.1) ∧ (SuppliesNothing form data → new = old)

/-- The package name of a request. -/
def requestedName (lib : TextLibrary) (data : PackageFormdata) : Option String :=
  (packageName lib data).bind InputValue.text?

/-- The clone URL that a stored definition now has, for the package name of a request. -/
def presentCloneUrl (lib : TextLibrary) (tables : FormTables) (data : PackageFormdata)
    (old : SourceJson) : Option String := do
  let packageName ← requestedName lib data
  tables.getCloneUrl (((old.lookup "distgit").bind InputValue.text?).getD "") packageName
    ((old.lookup "namespace").bind InputValue.text?)

/-- The conditions under which a request keeps what it does not supply. -/
def KeptBy (lib : TextLibrary) (tables : FormTables) (data : PackageFormdata) (old : SourceJson) :
    SourceForm → Prop
  | .scm => SuppliesField data .scmType ∨ old.lookup "type" = some (.scalar (.text "git"))
  | .pypi | .rubygems => True
  | .custom => SuppliesField data .script ∨
      ∀ s, old.lookup "script" = some (.scalar (.text s)) → carriageReturn s.toList = false
  | .distgit =>
    (SuppliesField data .distgit ∨
      match old.lookup "distgit" with
      | some instance_ => instance_ = .scalar (.text "None") → tables.firstDistGit.name = "None"
      | none => tables.firstDistGit.name = "") ∧
    (SuppliesField data .distGitNamespace ∨
      ∀ s, old.lookup "namespace" = some (.scalar (.text s)) →
        lib.strip (String.ofList (Paths.normpath s.toList)) = s) ∧
    (SuppliesNothing .distgit data → old.lookup "clone_url" =
      (presentCloneUrl lib tables data old).map fun url => .scalar (.text url))

section Completing

variable {lib : TextLibrary} {tables tables' : FormTables} {form : SourceForm}
  {formdata data : PackageFormdata} {package : PackageSource} {f : PackageField} {key : String}
  {entry : String × PackageField} {others others' : PackageFormdata → Bool} {v v' : InputValue}

/-- What is listed for a key whose field has something. -/
theorem lookup_filterMap {keys : List (String × PackageField)}
    (distinct : (keys.map Prod.fst).Nodup) (g : PackageField → Option InputValue)
    (listed : entry ∈ keys) :
    (keys.filterMap fun entry => (g entry.2).map fun v => (entry.1, v)).lookup entry.1 =
      g entry.2 := by
  induction keys with
  | nil => contradiction
  | cons first keys ih =>
    obtain ⟨fresh, rest⟩ := List.nodup_cons.mp distinct
    have elsewhere : ∀ other ∈ keys, other.1 ≠ first.1 := fun other member same =>
      fresh (List.mem_map.mpr ⟨other, member, same⟩)
    rcases List.mem_cons.mp listed with rfl | later
    · cases has : g entry.2 with
      | some v => simp [has]
      | none =>
        simp only [List.filterMap_cons, has, Option.map_none]
        refine List.lookup_eq_none_iff.mpr fun pair member => ?_
        obtain ⟨other, inKeys, made⟩ := List.mem_filterMap.mp member
        obtain ⟨w, -, rfl⟩ := Option.map_eq_some_iff.mp made
        simpa using fun same => elsewhere other inKeys same.symm
    · have apart : (entry.1 == first.1) = false := by simpa using elsewhere entry later
      cases has : g first.2 with
      | some v =>
        simp only [List.filterMap_cons, has, Option.map_some, List.lookup_cons, apart]
        exact ih rest later
      | none =>
        simp only [List.filterMap_cons, has, Option.map_none]
        exact ih rest later

/-- What a form stores of the value of a field. -/
def SourceForm.stored (form : SourceForm) (v : InputValue) : Option InputValue :=
  if form = .distgit then v.optional else some v

/-- What is stored is the value. -/
theorem eq_of_stored (stored : form.stored v' = some v) : v' = v := by
  unfold SourceForm.stored InputValue.optional at stored
  grind

/-- The keys of a form differ. -/
theorem keys_nodup (form : SourceForm) : (form.keys.map Prod.fst).Nodup := by
  cases form <;> decide

/-- What is stored under a key of the form. -/
theorem lookup_sourceJson (listed : entry ∈ form.keys) :
    (form.sourceJson lib tables formdata).lookup entry.1 =
      form.stored (SourceForm.fieldData lib tables formdata entry.2) := by
  have plain : ∀ keys : List (String × PackageField),
      (keys.map fun entry => (entry.1, SourceForm.fieldData lib tables formdata entry.2)) =
        keys.filterMap fun entry =>
          (some (SourceForm.fieldData lib tables formdata entry.2)).map fun v => (entry.1, v) := by
    intro keys
    simp only [Option.map_some, ← List.filterMap_eq_map']
  cases form with
  | distgit =>
    have apart : (entry.1 == "clone_url") = false := by
      revert entry
      decide
    rw [SourceForm.sourceJson, List.lookup_cons, apart]
    exact lookup_filterMap (keys_nodup .distgit)
      (fun f => (SourceForm.fieldData lib tables formdata f).optional) listed
  | _ =>
    simp only [SourceForm.sourceJson]
    rw [plain]
    exact lookup_filterMap (keys_nodup _)
      (fun f => some (SourceForm.fieldData lib tables formdata f)) listed

/-- Nothing is stored under another key. -/
theorem lookup_sourceJson_none (absent : key ∉ form.keys.map Prod.fst)
    (notUrl : key ≠ "clone_url") : (form.sourceJson lib tables formdata).lookup key = none := by
  have stored : ∀ pair ∈ form.sourceJson lib tables formdata,
      pair.1 = "clone_url" ∨ pair.1 ∈ form.keys.map Prod.fst := by
    intro pair member
    cases form with
    | distgit =>
      rcases List.mem_cons.mp member with rfl | later
      · exact Or.inl rfl
      · obtain ⟨entry, listed, made⟩ := List.mem_filterMap.mp later
        obtain ⟨v, -, rfl⟩ := Option.map_eq_some_iff.mp made
        exact Or.inr (List.mem_map.mpr ⟨entry, listed, rfl⟩)
    | _ =>
      obtain ⟨entry, listed, rfl⟩ := List.mem_map.mp member
      exact Or.inr (List.mem_map.mpr ⟨entry, listed, rfl⟩)
  refine List.lookup_eq_none_iff.mpr fun pair member => ?_
  rcases stored pair member with url | other
  · simpa using fun same : key = pair.1 => notUrl (same.trans url)
  · simpa using fun same : key = pair.1 => absent (same ▸ other)

/-- What is not in the request is looked up in the stored definition. -/
theorem lookup_completed (some_ : data ≠ []) (absent : key ∉ data.map Prod.fst) :
    (completed package data).lookup key =
      (package.sourceJson.lookup key).map InputValue.values := by
  rw [completed, if_neg some_, List.lookup_append, List.lookup_eq_none_iff.mpr]
  · rw [Option.none_or]
    induction package.sourceJson with
    | nil => rfl
    | cons first json ih =>
      obtain ⟨name, value⟩ := first
      by_cases same : key = name
      · subst same
        simp [absent]
      · have apart : (key == name) = false := by simpa using same
        rw [List.lookup_cons, apart, List.filter_cons]
        split
        · rw [List.map_cons, List.lookup_cons]
          simpa [apart] using ih
        · exact ih
  · intro pair member
    simpa using fun same => absent (List.mem_map.mpr ⟨pair, member, same.symm⟩)

/-- A field is stored under its name, apart from `scm_type`. -/
theorem key_eq_name (listed : entry ∈ form.keys) (different : entry.2 ≠ .scmType) :
    entry.1 = entry.2.name := by
  have all : ∀ entry ∈ form.keys, entry.2 ≠ .scmType → entry.1 = entry.2.name := by
    cases form <;> decide
  exact all entry listed different

/-- An accepted form has processed its fields. -/
theorem process_of_accepts (accepted : form.accepts lib tables formdata others = true)
    (listed : entry ∈ form.keys) : entry.2.process lib tables (formdata.lookup entry.2.name) =
      some (SourceForm.fieldData lib tables formdata entry.2) := by
  simp only [SourceForm.accepts, Bool.and_eq_true] at accepted
  have valid := List.all_eq_true.mp accepted.1.2 entry listed
  obtain ⟨v, processed, -⟩ := (Option.any_eq_true _ _).mp valid
  rw [SourceForm.fieldData, processed, Option.getD_some]

/-- A value that is stored, or the lack of one, stays. -/
def LastingEntry (lib : TextLibrary) (tables : FormTables) (f : PackageField) :
    Option InputValue → Prop
  | some v => Lasting lib tables v f
  | none => f = .distgit → tables.firstDistGit.name = ""

/-- The type of a repository is stored under a key of its own. -/
theorem eq_of_scmType (listed : entry ∈ form.keys) (scm : entry.2 = .scmType) :
    form = .scm ∧ entry = ("type", .scmType) := by
  have all : ∀ entry ∈ form.keys,
      entry.2 = .scmType → form = .scm ∧ entry = ("type", .scmType) := by
    cases form <;> decide
  exact all entry listed scm

/-- A stored namespace is not empty. -/
theorem truthy_of_namespace (listed : entry ∈ form.keys) (isNamespace : entry.2 = .distGitNamespace)
    (has : form.stored v = some v') : v.truthy = true := by
  have all : ∀ entry ∈ form.keys, entry.2 = .distGitNamespace → form = .distgit := by
    cases form <;> decide
  obtain rfl := all entry listed isNamespace
  simp only [SourceForm.stored, InputValue.optional, if_true] at has
  split at has
  · assumption
  · contradiction

/-- Where nothing is stored, nothing is stored again unless there is a default. -/
theorem absent_iff (listed : entry ∈ form.keys) (has : form.stored v = none)
    (remade : entry.2.process lib tables none = some v') :
    form.stored v' = none ↔ (entry.2 = .distgit → tables.firstDistGit.name = "") := by
  have simple : form = .distgit := by
    by_contra other
    rw [SourceForm.stored, if_neg other] at has
    contradiction
  subst simple
  have fields : ∀ entry ∈ SourceForm.distgit.keys,
      entry.2 = .distgit ∨ entry.2 = .distGitNamespace ∨ entry.2 = .committish := by
    decide
  rcases fields entry listed with distgit | nameSpace | committish
  · rw [distgit] at remade
    obtain rfl := Option.some.inj remade
    simp [SourceForm.stored, InputValue.optional, InputValue.truthy, InputValue.ofData,
      FormScalar.truthy, distgit]
  · rw [nameSpace] at remade
    obtain rfl := Option.some.inj remade
    exact iff_of_true rfl fun distgit => by rw [nameSpace] at distgit; contradiction
  · rw [committish] at remade
    obtain rfl := Option.some.inj remade
    exact iff_of_true rfl fun distgit => by rw [committish] at distgit; contradiction

/-- Under the key of a field that is not supplied the same is stored exactly if it lasts. -/
theorem kept_iff (newline : lib.isspace '\n' = true) (some_ : data ≠ [])
    (accepted : form.accepts lib tables formdata others = true)
    (stored : package.sourceJson = form.sourceJson lib tables formdata)
    (accepted' : form.accepts lib tables' (completed package data) others' = true)
    (listed : entry ∈ form.keys) (absent : ¬ SuppliesField data entry.2) :
    (form.sourceJson lib tables' (completed package data)).lookup entry.1 =
        package.sourceJson.lookup entry.1 ↔
      LastingEntry lib tables' entry.2 (package.sourceJson.lookup entry.1) := by
  have made := process_of_accepts accepted listed
  have remade := process_of_accepts accepted' listed
  have lookup : (completed package data).lookup entry.2.name =
      (package.sourceJson.lookup entry.2.name).map InputValue.values :=
    lookup_completed some_ absent
  rw [stored] at lookup ⊢
  rw [lookup_sourceJson listed, lookup_sourceJson listed]
  have storedHere : (form.sourceJson lib tables formdata).lookup entry.1 =
      form.stored (SourceForm.fieldData lib tables formdata entry.2) := lookup_sourceJson listed
  generalize SourceForm.fieldData lib tables formdata entry.2 = v at made storedHere
  generalize SourceForm.fieldData lib tables' (completed package data) entry.2 = v' at remade
  by_cases scm : entry.2 = .scmType
  · -- The stored key is no name of a field, so the field gets its default.
    obtain ⟨rfl, rfl⟩ := eq_of_scmType listed scm
    rw [lookup_sourceJson_none (by decide) (by decide)] at lookup
    rw [lookup] at remade
    obtain rfl := Option.some.inj remade
    simp [SourceForm.stored, LastingEntry, Lasting, InputValue.ofData, eq_comm]
  · rw [← key_eq_name listed scm, storedHere] at lookup
    rw [← key_eq_name listed scm, lookup] at remade
    cases has : form.stored v with
    | some w =>
      obtain rfl := eq_of_stored has
      rw [has, Option.map_some] at remade
      have same : form.stored v' = some v ↔ v' = v :=
        ⟨eq_of_stored, fun equal => equal ▸ has⟩
      have occupied : entry.2 = .distGitNamespace → v.truthy = true :=
        fun isNamespace => truthy_of_namespace listed isNamespace has
      rw [same, LastingEntry, ← reprocess_iff newline made scm occupied, remade, Option.some.injEq]
    | none =>
      rw [has] at remade
      exact absent_iff listed has remade

/-- A request that is accepted has data. -/
theorem data_ne_nil (accepted : form.accepts lib tables (completed package data) others = true) :
    data ≠ [] := by
  rintro rfl
  have nothing : packageName lib (completed package []) = some .null := rfl
  simp [SourceForm.accepts, nothing, validPackageName, textAccepted] at accepted

/-- The package name is that of the request. -/
theorem packageName_completed (some_ : data ≠ [])
    (stored : package.sourceJson = form.sourceJson lib tables formdata) :
    packageName lib (completed package data) = packageName lib data := by
  have lookup : (completed package data).lookup "package_name" = data.lookup "package_name" := by
    cases present : data.lookup "package_name" with
    | some values => rw [completed, if_neg some_, List.lookup_append, present, Option.some_or]
    | none =>
      have absent : package.sourceJson.lookup "package_name" = none := by
        rw [stored]
        exact lookup_sourceJson_none (by cases form <;> decide) (by decide)
      have notGiven : "package_name" ∉ data.map Prod.fst := by
        intro given
        obtain ⟨pair, member, same⟩ := List.mem_map.mp given
        have other := List.lookup_eq_none_iff.mp present pair member
        simp [same] at other
      rw [lookup_completed some_ notGiven, absent, Option.map_none]
  rw [packageName, packageName, lookup]

/-- Fields that are stored as before make the same definition, apart from the clone URL. -/
theorem sourceJson_eq_iff {formdata' : PackageFormdata}
    (same : ∀ entry ∈ form.keys, (form.sourceJson lib tables' formdata').lookup entry.1 =
      (form.sourceJson lib tables formdata).lookup entry.1) :
    form.sourceJson lib tables' formdata' = form.sourceJson lib tables formdata ↔
      (form = .distgit → SourceForm.cloneUrl lib tables' formdata' =
        SourceForm.cloneUrl lib tables formdata) := by
  have values : ∀ entry ∈ form.keys,
      form.stored (SourceForm.fieldData lib tables' formdata' entry.2) =
        form.stored (SourceForm.fieldData lib tables formdata entry.2) := by
    intro entry listed
    have lookup := same entry listed
    rwa [lookup_sourceJson listed, lookup_sourceJson listed] at lookup
  cases form with
  | distgit =>
    have entries : (SourceForm.distgit.keys.filterMap fun entry =>
        (SourceForm.fieldData lib tables' formdata' entry.2).optional.map fun v => (entry.1, v)) =
          SourceForm.distgit.keys.filterMap fun entry =>
            (SourceForm.fieldData lib tables formdata entry.2).optional.map
              fun v => (entry.1, v) := by
      refine List.filterMap_congr fun entry listed => ?_
      have optional := values entry listed
      simp only [SourceForm.stored, if_true] at optional
      rw [optional]
    have url_iff : ∀ a b : Option String, InputValue.ofData (a.map .text) = .ofData (b.map .text) ↔
        a = b := by
      intro a b
      cases a <;> cases b <;> simp [InputValue.ofData]
    simp only [SourceForm.sourceJson, entries, List.cons.injEq, Prod.mk.injEq, true_and, and_true,
      forall_const]
    exact url_iff _ _
  | _ =>
    refine iff_of_true ?_ (by simp)
    simp only [SourceForm.sourceJson]
    refine List.map_congr_left fun entry listed => ?_
    rw [Option.some.inj (values entry listed)]

/-- An empty namespace is the default one. -/
theorem getCloneUrl_empty (tables : FormTables) (distgitName packageName : String) :
    tables.getCloneUrl distgitName packageName (some "") =
      tables.getCloneUrl distgitName packageName none := by
  unfold FormTables.getCloneUrl
  split <;> rfl

/-- The clone URL that is stored. -/
theorem lookup_cloneUrl
    (accepted : SourceForm.distgit.accepts lib tables formdata others = true) :
    (SourceForm.distgit.sourceJson lib tables formdata).lookup "clone_url" =
      (SourceForm.cloneUrl lib tables formdata).map fun url => .scalar (.text url) := by
  simp only [SourceForm.accepts, Bool.and_eq_true] at accepted
  have made : (SourceForm.cloneUrl lib tables formdata).isSome = true := by
    simpa using accepted.2
  obtain ⟨url, has⟩ := Option.isSome_iff_exists.mp made
  simp [SourceForm.sourceJson, has, InputValue.ofData]

/-- The clone URL is made of what is stored, if this stays. -/
theorem cloneUrl_eq_present (some_ : data ≠ [])
    (stored : package.sourceJson = SourceForm.distgit.sourceJson lib tables formdata)
    (accepted' : SourceForm.distgit.accepts lib tables' (completed package data) others = true)
    (same : ∀ entry ∈ SourceForm.distgit.keys,
      (SourceForm.distgit.sourceJson lib tables' (completed package data)).lookup entry.1 =
        package.sourceJson.lookup entry.1) :
    SourceForm.cloneUrl lib tables' (completed package data) =
      presentCloneUrl lib tables' data package.sourceJson := by
  have inst : ("distgit", PackageField.distgit) ∈ SourceForm.distgit.keys := by decide
  have nameSpace : ("namespace", PackageField.distGitNamespace) ∈ SourceForm.distgit.keys := by
    decide
  obtain ⟨t, distgit⟩ := process_distgit (process_of_accepts accepted' inst)
  have ofNamespace := process_namespace (process_of_accepts accepted' nameSpace)
  have storedDistgit := same _ inst
  have storedNamespace := same _ nameSpace
  rw [lookup_sourceJson inst] at storedDistgit
  rw [lookup_sourceJson nameSpace] at storedNamespace
  simp only at distgit ofNamespace storedDistgit storedNamespace
  rw [SourceForm.cloneUrl, presentCloneUrl, requestedName, packageName_completed some_ stored,
    ← storedDistgit, ← storedNamespace, distgit]
  have name : (((SourceForm.distgit.stored (.scalar (.text t))).bind InputValue.text?).getD "") =
      t := by
    by_cases empty : t = ""
    · subst empty
      rfl
    · simp [SourceForm.stored, InputValue.optional, InputValue.truthy, FormScalar.truthy, empty,
        InputValue.text?]
  rw [name]
  have url : ∀ packageName, tables'.getCloneUrl t packageName
      (SourceForm.fieldData lib tables' (completed package data) .distGitNamespace).text? =
        tables'.getCloneUrl t packageName ((SourceForm.distgit.stored (SourceForm.fieldData lib
          tables' (completed package data) .distGitNamespace)).bind InputValue.text?) := by
    intro packageName
    rcases ofNamespace with null | ⟨s, text⟩
    · rw [null]
      rfl
    · rw [text]
      by_cases empty : s = ""
      · subst empty
        exact getCloneUrl_empty tables' t packageName
      · simp [SourceForm.stored, InputValue.optional, InputValue.truthy, FormScalar.truthy, empty,
          InputValue.text?]
  cases (packageName lib data).bind InputValue.text? with
  | none => rfl
  | some packageName => exact url packageName

/-- For the other fields nothing is asked. -/
theorem lastingEntry_plain (o : Option InputValue)
    (plain : f ∉ [.scmType, .script, .distgit, .distGitNamespace]) :
    LastingEntry lib tables f o := by
  cases o with
  | none =>
    rintro rfl
    exact absurd (by decide) plain
  | some v => cases f <;> trivial

/-- The entries that are not supplied last exactly under the conditions of the form. -/
theorem lasting_iff (stored : package.sourceJson = form.sourceJson lib tables formdata) :
    (∀ entry ∈ form.keys, ¬ SuppliesField data entry.2 →
        LastingEntry lib tables' entry.2 (package.sourceJson.lookup entry.1)) ∧
      (form = .distgit → SuppliesNothing .distgit data → package.sourceJson.lookup "clone_url" =
        (presentCloneUrl lib tables' data package.sourceJson).map fun url => .scalar (.text url)) ↔
    KeptBy lib tables' data package.sourceJson form := by
  cases form with
  | scm =>
    have listed : ("type", PackageField.scmType) ∈ SourceForm.scm.keys := by decide
    have typed : (SourceForm.scm.sourceJson lib tables formdata).lookup "type" =
        some (SourceForm.fieldData lib tables formdata .scmType) := lookup_sourceJson listed
    have repository : LastingEntry lib tables' .scmType (package.sourceJson.lookup "type") ↔
        package.sourceJson.lookup "type" = some (.scalar (.text "git")) := by
      rw [stored, typed]
      simp [LastingEntry, Lasting]
    simp (disch := decide) only [SourceForm.keys, List.forall_mem_cons, List.not_mem_nil,
      false_imp_iff, implies_true, and_true, lastingEntry_plain, KeptBy, repository, reduceCtorEq,
      or_iff_not_imp_left]
  | pypi | rubygems =>
    simp (disch := decide) [SourceForm.keys, lastingEntry_plain, KeptBy]
  | custom =>
    have script : ∀ o, LastingEntry lib tables' .script o ↔
        ∀ s, o = some (.scalar (.text s)) → carriageReturn s.toList = false := by
      intro o
      cases o <;> simp [LastingEntry, Lasting]
    simp (disch := decide) only [SourceForm.keys, List.forall_mem_cons, List.not_mem_nil,
      false_imp_iff, implies_true, and_true, lastingEntry_plain, KeptBy, script, reduceCtorEq,
      or_iff_not_imp_left]
  | distgit =>
    have inst : ∀ o, LastingEntry lib tables' .distgit o ↔
        match o with
        | some instance_ => instance_ = .scalar (.text "None") → tables'.firstDistGit.name = "None"
        | none => tables'.firstDistGit.name = "" := by
      intro o
      cases o <;> simp [LastingEntry, Lasting]
    have nameSpace : ∀ o, LastingEntry lib tables' .distGitNamespace o ↔
        ∀ s, o = some (.scalar (.text s)) →
          lib.strip (String.ofList (Paths.normpath s.toList)) = s := by
      intro o
      cases o <;> simp [LastingEntry, Lasting]
    simp (disch := decide) only [SourceForm.keys, List.forall_mem_cons, List.not_mem_nil,
      false_imp_iff, implies_true, and_true, lastingEntry_plain, KeptBy, inst, nameSpace,
      forall_const, or_iff_not_imp_left, and_assoc]

/-- An edit that is answered was accepted by the form of its source type. -/
theorem accepted_of_post {canEdit : Bool} {sourceTypeText : Option String} {input : FormInput}
    {edited : PackageSource} (typed : package.sourceTypeText = form.text)
    (sameType : sourceTypeText = none ∨ sourceTypeText = some form.text)
    (answered : PackageEdit.post lib tables others canEdit sourceTypeText package input =
      .ok edited) :
    form.accepts lib tables (completed package (packageData input)) others = true ∧
      edited = {
        sourceTypeText := form.text
        sourceJson := form.sourceJson lib tables (completed package (packageData input)) } := by
  have resolved : PackageEdit.post lib tables others canEdit sourceTypeText package input =
      processPackageAddOrEdit lib tables others canEdit form.text package (packageData input) := by
    rcases sameType with rfl | rfl
    · rw [PackageEdit.post, typed]
    · cases form <;> rfl
  have known : SourceForm.ofText form.text = some form := by cases form <;> rfl
  rw [resolved, processPackageAddOrEdit, known] at answered
  split at answered
  · contradiction
  · simp only at answered
    split at answered
    · rename_i accepted
      exact ⟨accepted, (Except.ok.inj answered).symm⟩
    · contradiction

end Completing

/-- An edit of the same source type keeps what it does not supply exactly if: the type of a
repository is supplied or `git`; a script is supplied or its first line does not end with a carriage
return; the DistGit instance is supplied or stored under a name that is no placeholder, the
namespace is supplied or normalized, and, if nothing is supplied, the clone URL is still that of the
package. -/
theorem partial_package_edit_iff (lib : TextLibrary) (newline : lib.isspace '\n' = true)
    (tables tables' : FormTables) (others others' : PackageFormdata → Bool) (form : SourceForm)
    (formdata : PackageFormdata) (accepted : form.accepts lib tables formdata others = true)
    (package : PackageSource) (typed : package.sourceTypeText = form.text)
    (stored : package.sourceJson = form.sourceJson lib tables formdata) (canEdit : Bool)
    (sourceTypeText : Option String)
    (sameType : sourceTypeText = none ∨ sourceTypeText = some form.text) (input : FormInput)
    (edited : PackageSource)
    (answered : PackageEdit.post lib tables' others' canEdit sourceTypeText package input =
      .ok edited) :
    KeepsRest form (packageData input) package.sourceJson edited.sourceJson ↔
      KeptBy lib tables' (packageData input) package.sourceJson form := by
  obtain ⟨accepted', rfl⟩ := accepted_of_post typed sameType answered
  have some_ := data_ne_nil accepted'
  rw [← lasting_iff stored, KeepsRest]
  have entries : (∀ entry ∈ form.keys, ¬ SuppliesField (packageData input) entry.2 →
      (form.sourceJson lib tables' (completed package (packageData input))).lookup entry.1 =
        package.sourceJson.lookup entry.1) ↔
      ∀ entry ∈ form.keys, ¬ SuppliesField (packageData input) entry.2 →
        LastingEntry lib tables' entry.2 (package.sourceJson.lookup entry.1) :=
    forall₃_congr fun entry listed absent =>
      kept_iff newline some_ accepted stored accepted' listed absent
  rw [entries]
  refine and_congr_right fun lasting => ?_
  -- Where nothing is supplied, only the clone URL can still differ.
  have same : SuppliesNothing form (packageData input) → ∀ entry ∈ form.keys,
      (form.sourceJson lib tables' (completed package (packageData input))).lookup entry.1 =
        package.sourceJson.lookup entry.1 :=
    fun nothing entry listed => entries.mpr lasting entry listed (nothing entry listed)
  constructor
  · rintro whole rfl nothing
    rw [← cloneUrl_eq_present some_ stored accepted' (same nothing), ← lookup_cloneUrl accepted']
    exact congrArg (List.lookup "clone_url") (whole nothing).symm
  · intro url nothing
    have kept := same nothing
    simp only [stored] at kept ⊢
    refine (sourceJson_eq_iff kept).mpr ?_
    rintro rfl
    have before := lookup_cloneUrl accepted
    rw [← stored, url rfl nothing, ← cloneUrl_eq_present some_ stored accepted' (same nothing)]
      at before
    exact Option.map_injective (fun a b equal => by simpa using equal) before

namespace Sample

/-- A library for texts of ASCII that accepts all URLs. -/
def asciiTexts : TextLibrary where
  isspace c := c ∈ [' ', '\t', '\n', '\r']
  int _ := none
  str _ := ""
  urlparse s := some ("", s)
  url _ := true
  email _ := true
  urlRepoList _ := true
  urlSrpmList _ := true
  int_blank _ _ := rfl

/-- A database with one DistGit instance and one chroot. -/
def formTables : FormTables where
  firstDistGit := {
    name := "fedora"
    cloneUrl := "https://src.fedoraproject.org"
    formatUri := fun pkgname _ => some ("rpms/" ++ pkgname)
    defaultNamespace := none }
  otherDistGits := []
  chroots := [⟨"fedora", "rawhide", "x86_64"⟩]

/-- The data with which a package was added from a repository of this type. -/
def addedData (type_ : String) : PackageFormdata :=
  [("package_name", [some (.text "hello")]), ("scm_type", [some (.text type_)]),
    ("clone_url", [some (.text "https://example.com/hello")]),
    ("spec", [some (.text "hello.spec")])]

/-- The package. -/
def addedPackage (type_ : String) : PackageSource where
  sourceTypeText := "scm"
  sourceJson := SourceForm.scm.sourceJson asciiTexts formTables (addedData type_)

/-- A request that supplies only the name of the package. -/
def nameOnly : FormInput := [("package_name", .scalar (.text "hello"))]

end Sample

open Sample in
/-- A package from a Git repository stays as it is. -/
theorem partial_package_edit_iff_git :
    PackageEdit.post asciiTexts formTables (fun _ => true) true none (addedPackage "git") nameOnly =
        .ok (addedPackage "git") ∧
      KeepsRest .scm (packageData nameOnly) (addedPackage "git").sourceJson
        (addedPackage "git").sourceJson := by
  have posted : PackageEdit.post asciiTexts formTables (fun _ => true) true none
      (addedPackage "git") nameOnly = .ok (addedPackage "git") := rfl
  exact ⟨posted, (partial_package_edit_iff asciiTexts rfl formTables formTables (fun _ => true)
    (fun _ => true) .scm (addedData "git") rfl (addedPackage "git") rfl rfl true none (Or.inl rfl)
    nameOnly _ posted).mpr (Or.inr rfl)⟩

open Sample in
/-- A package from a Subversion repository becomes one from a Git repository. -/
theorem svn_package_becomes_git :
    SourceForm.scm.accepts asciiTexts formTables (addedData "svn") (fun _ => true) = true ∧
      PackageEdit.post asciiTexts formTables (fun _ => true) true none (addedPackage "svn")
        nameOnly = .ok (addedPackage "git") ∧
      ¬ KeepsRest .scm (packageData nameOnly) (addedPackage "svn").sourceJson
        (addedPackage "git").sourceJson := by
  refine ⟨rfl, rfl, fun keeps => ?_⟩
  have kept := keeps.1 ("type", .scmType) (by decide) (by decide)
  exact absurd kept (by decide)

end Copr
