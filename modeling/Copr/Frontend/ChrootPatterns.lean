import Copr.Lib.Text
import Copr.Frontend.BackendGeneral

/-!
# Which chroots a build request selects

Patterns for chroot names are matched as `fnmatch` does. The build forms of `coprs/forms.py`
accept two lists of patterns and expand them against the active chroots of the project;
`create_new` and `_chroots_to_add` of `coprs/logic/builds_logic.py` take an empty list as
nothing specified, and fall back to the chroots of the package, which `Package.chroots` of
`coprs/models.py` filters by a denylist. Who may build, and when, is left out.
-/

namespace Copr

/-! ## Patterns -/

/-- A part of a pattern. -/
inductive PatternPart
  /-- `*`. -/
  | star
  /-- `?`. -/
  | one
  /-- A character that stands for itself. -/
  | char (c : Char)
  /-- `[seq]` or `[!seq]`: single characters are ranges as well. -/
  | seq (negated : Bool) (ranges : List (Char × Char))
  deriving DecidableEq, Repr

namespace PatternPart

/-- The characters and ranges of a `seq`. A hyphen at the end stands for itself. -/
def ranges : List Char → List (Char × Char)
  | low :: '-' :: high :: rest => (low, high) :: ranges rest
  | c :: rest => (c, c) :: ranges rest
  | [] => []

/-- What follows a `[`, up to the next `]` that is not the first member; `none` if there is no
such bracket. -/
def seq? (rest : List Char) : Option (PatternPart × List Char) :=
  let (negated, body) :=
    match rest with
    | '!' :: body => (true, body)
    | body => (false, body)
  let (first, body) :=
    match body with
    | ']' :: body => ([']'], body)
    | body => ([], body)
  match body.dropWhile (· ≠ ']') with
  | [] => none
  | _ :: after => some (.seq negated (ranges (first ++ body.takeWhile (· ≠ ']'))), after)

/-- The parts of a pattern, which are not more than its characters. -/
def parse : Nat → List Char → List PatternPart
  | 0, _ => []
  | _ + 1, [] => []
  | fuel + 1, '*' :: rest => .star :: parse fuel rest
  | fuel + 1, '?' :: rest => .one :: parse fuel rest
  | fuel + 1, '[' :: rest =>
    match seq? rest with
    | some (part, after) => part :: parse fuel after
    | none => .char '[' :: parse fuel rest
  | fuel + 1, c :: rest => .char c :: parse fuel rest

/-- A part takes a character. -/
def takes (c : Char) : PatternPart → Bool
  | .star => true
  | .one => true
  | .char d => decide (c = d)
  | .seq negated ranges =>
    negated != ranges.any fun range => decide (range.1 ≤ c) && decide (c ≤ range.2)

/-- The parts take a whole text. -/
def accepts : List PatternPart → List Char → Bool
  | [], text => text.isEmpty
  | .star :: parts, text => text.tails.any (accepts parts)
  | _ :: _, [] => false
  | part :: parts, c :: text => part.takes c && accepts parts text

end PatternPart

/-- `fnmatch`. -/
def fnmatch (name pattern : String) : Bool :=
  PatternPart.accepts (PatternPart.parse pattern.length pattern.toList) name.toList

/-- `fnmatch.filter`. -/
def fnmatchFilter (names : List String) (pattern : String) : List String :=
  names.filter fun name => fnmatch name pattern

/-! ## The build forms -/

/-- The pattern stands for the name among these names. -/
def patternMatches (names : List String) (name pattern : String) : Bool :=
  if pattern ∈ names then decide (name = pattern) else fnmatch name pattern

/-- `expand_chroots`. -/
def expandChroots (patterns chrootsList : List String) : List String :=
  chrootsList.filter fun name => patterns.any (patternMatches chrootsList name)

/-- `ChrootPatternsField.pre_validate`. -/
def preValidate (available data : List String) : Bool :=
  data.all fun value => decide (value ∈ available) || !(fnmatchFilter available value).isEmpty

/-- The fields `chroots` and `exclude_chroots` of a build form. -/
structure ChrootPatterns where
  /-- `chroots`. -/
  chroots : List String
  /-- `exclude_chroots`. -/
  excludeChroots : List String
  deriving DecidableEq, Repr

namespace ChrootPatterns

/-- The form accepts both fields. -/
def validate (p : ChrootPatterns) (chrootsList : List String) : Bool :=
  preValidate chrootsList p.chroots && preValidate chrootsList p.excludeChroots

/-- `selected_chroots`. -/
def selectedChroots (p : ChrootPatterns) (chrootsList : List String) : List String :=
  let chroots := expandChroots p.chroots chrootsList
  if p.excludeChroots = [] then chroots
  else
    let chroots := if chroots = [] then chrootsList else chroots
    chroots.filter fun name => decide (name ∉ expandChroots p.excludeChroots chrootsList)

end ChrootPatterns

/-! ## Packages -/

/-- White space, as `strip` takes it. -/
def isSpace (c : Char) : Bool :=
  let n := c.toNat
  (9 ≤ n && n ≤ 13) || (28 ≤ n && n ≤ 32) || n == 0x85 || n == 0xa0 || n == 0x1680 ||
    (0x2000 ≤ n && n ≤ 0x200a) || n == 0x2028 || n == 0x2029 || n == 0x202f || n == 0x205f ||
    n == 0x3000

/-- `strip`. -/
def strip (text : List Char) : List Char :=
  ((text.dropWhile isSpace).reverse.dropWhile isSpace).reverse

/-- Some of the chroots. -/
def ChrootSet.filter (s : ChrootSet) (selected : MockChroot → Bool) : ChrootSet where
  chroots := s.chroots.filter selected
  distinct := s.distinct.sublist (List.filter_sublist.map _)

/-- No chroots. -/
def ChrootSet.empty : ChrootSet := ⟨[], List.nodup_nil⟩

/-- `Package`. -/
structure Package where
  /-- `name`. -/
  name : String
  /-- `chroot_denylist_raw`. -/
  chrootDenylistRaw : Option String := none
  deriving DecidableEq, Repr

namespace Package

/-- `chroot_denylist`. -/
def chrootDenylist (package : Package) : List String :=
  match truthyText package.chrootDenylistRaw with
  | none => []
  | some raw =>
    ((Text.split raw ',').map fun pattern => String.ofList (strip pattern)).filter fun pattern =>
      decide (pattern ≠ "")

/-- `matched_chroot`. -/
def matchedChroot (chroot : MockChroot) (patterns : List String) : Bool :=
  patterns.any fun pattern => fnmatch chroot.name pattern

/-- `chroots`, of a package in a project with these active chroots. -/
def chroots (package : Package) (activeChroots : ChrootSet) : ChrootSet :=
  if truthyText package.chrootDenylistRaw = none then activeChroots
  else
    let filtered :=
      activeChroots.filter fun chroot => !matchedChroot chroot package.chrootDenylist
    if filtered.chroots = [] then activeChroots else filtered

end Package

/-! ## Submissions -/

/-- A build request behind a form. -/
structure BuildRequest where
  /-- The chroot fields. -/
  patterns : ChrootPatterns
  /-- `package`, where it is known. -/
  package : Option Package := none
  /-- `package_chroots_subset`. -/
  packageChrootsSubset : Bool := false
  /-- `git_hashes`. -/
  gitHashes : List (String × String) := []
  /-- `skip_import and srpm_url`. -/
  skipImport : Bool := false
  /-- Names of the chroots that `create_new_from_other_build` marks as skipped. -/
  skipped : List String := []
  /-- `background`. -/
  background : Bool := false
  /-- The batch options. -/
  batching : Option Batching := none
  deriving DecidableEq, Repr

namespace BuildsLogic

/-- `_chroots_to_add`; `none` is the `MalformedArgumentException`. -/
def chrootsToAdd (package : Option Package) (activeChroots chroots : ChrootSet)
    (packageChrootsSubset : Bool) : Option ChrootSet :=
  match package with
  | none => some chroots
  | some package =>
    let chroots := if chroots.chroots = [] then package.chroots activeChroots else chroots
    let chroots :=
      if packageChrootsSubset then
        chroots.filter fun chroot => decide (chroot ∈ (package.chroots activeChroots).chroots)
      else chroots
    if chroots.chroots = [] then none else some chroots

/-- The chroots that `create_new` hands to `add`. -/
def chrootsOfNames (activeChroots : ChrootSet) (chrootNames : List String) (skipImport : Bool) :
    ChrootSet :=
  if chrootNames ≠ [] then activeChroots.filter fun chroot => decide (chroot.name ∈ chrootNames)
  else if skipImport then activeChroots
  else .empty

/-- `create_new`, up to the new rows. -/
def createNew (activeChroots : ChrootSet) (chrootNames : List String) (r : BuildRequest) :
    Option Submission :=
  if activeChroots.chroots = [] then none
  else
    let chroots := chrootsOfNames activeChroots chrootNames r.skipImport
    (chrootsToAdd r.package activeChroots chroots r.packageChrootsSubset).map fun chroots =>
      { package := r.package.map Package.name
        chroots := chroots
        gitHashes := r.gitHashes
        skipImport := r.skipImport
        skipped := r.skipped
        background := r.background
        batching := r.batching }

end BuildsLogic

/-- `chroots_list` of a build form. -/
def ChrootSet.names (s : ChrootSet) : List String := s.chroots.map MockChroot.name

/-- A request through a build form: it is validated, and a build is created. -/
def Database.request (db : Database) (cached : Nat → Bool) (activeChroots : ChrootSet)
    (r : BuildRequest) : Option Database :=
  if r.patterns.validate activeChroots.names then
    (BuildsLogic.createNew activeChroots (r.patterns.selectedChroots activeChroots.names) r).bind
      (db.add cached)
  else none

end Copr
