import Copr.Lib.Paths

/-!
# Pushed commits

`SubdirMatch` of `coprs/helpers.py` and `commits_belong_to_package` of
`coprs/logic/packages_logic.py`, with the data that `webhooks_git_push` hands over: which packages
are rebuilt after a push to a branch.
-/

namespace Copr

open Paths

/-- `source_json_dict`, as far as it is read here; a key can be missing or null. -/
structure SourceJsonDict where
  /-- `committish`. -/
  committish : Option String
  /-- `subdirectory`. -/
  subdirectory : Option String
  deriving DecidableEq, Repr

/-- A commit of the payload. -/
structure PushedCommit where
  /-- `added`. -/
  added : List String
  /-- `removed`. -/
  removed : List String
  /-- `modified`. -/
  modified : List String
  deriving DecidableEq, Repr

/-- `changed`. -/
def PushedCommit.changed (commit : PushedCommit) : List String :=
  commit.added ++ commit.removed ++ commit.modified

/-- `SubdirMatch`. -/
structure SubdirMatch where
  /-- `subdir`. -/
  subdir : List Char

namespace SubdirMatch

/-- `__init__`. -/
def construct (subdir : Option String) : SubdirMatch :=
  ⟨if subdir.getD "" = "" then ['.'] else Paths.strip (normpath (subdir.getD "").toList)⟩

/-- `match`. -/
def matchPath (sm : SubdirMatch) (path : String) : Bool :=
  if path = "" then false
  else
    let changed := Paths.strip (normpath path.toList)
    if changed = ['.'] then false
    else if sm.subdir = ['.'] then true
    else (sm.subdir ++ ['/']).isPrefixOf changed

end SubdirMatch

/-- `commits_belong_to_package`. -/
def commitsBelongToPackage (source : SourceJsonDict) (commits : List PushedCommit)
    (ref : String) : Bool :=
  let committish := source.committish.getD ""
  if committish ≠ "" && !committish.toList.isSuffixOf ref.toList then false
  else commits.any fun commit =>
    commit.changed.any (SubdirMatch.construct source.subdirectory).matchPath

/-! ## Which packages a push concerns -/

/-- The `ref` of a push to a branch. -/
def branchRef (branch : String) : String := "refs/heads/" ++ branch

/-- The committish of a package is not given, or names the branch. -/
def NamesBranch (committish : Option String) (branch : String) : Prop :=
  committish.getD "" = "" ∨ committish.getD "" = branch ∨ committish.getD "" = branchRef branch

/-- The names of the subdirectory of a package; the whole repository has none. -/
def SourceJsonDict.subdirNames (source : SourceJsonDict) : List Name :=
  names (source.subdirectory.getD "").toList

/-- A pushed path. -/
def Pushed (commits : List PushedCommit) (path : String) : Prop :=
  ∃ commit ∈ commits, path ∈ commit.changed

/-- A push to a branch concerns a package. -/
def Concerned (source : SourceJsonDict) (commits : List PushedCommit) (branch : String) : Prop :=
  NamesBranch source.committish branch ∧
    ∃ path, Pushed commits path ∧ Below source.subdirNames (names path.toList)

/-- A spelling of the root that starts with a slash. -/
def SlashRoot (path : String) : Prop :=
  names path.toList = [] ∧ isAbsolute path.toList = true

/-- When `commits_belong_to_package` is right. -/
structure RightlyMatched (source : SourceJsonDict) (commits : List PushedCommit)
    (branch : String) : Prop where
  /-- A committish that is the end of the ref names the branch, or no path matches. -/
  suffix : (source.committish.getD "").toList <:+ (branchRef branch).toList →
    NamesBranch source.committish branch ∨
      ∀ path, Pushed commits path →
        (SubdirMatch.construct source.subdirectory).matchPath path = false
  /-- The subdirectory is not the root with a slash in front, unless only the root is pushed. -/
  slash : NamesBranch source.committish branch → SlashRoot (source.subdirectory.getD "") →
    ∀ path, Pushed commits path → names path.toList = []
  /-- The root with a slash in front is not the only path pushed to a package of the whole
  repository. -/
  root : NamesBranch source.committish branch → source.subdirNames = [] →
    ¬ SlashRoot (source.subdirectory.getD "") → ∀ path, Pushed commits path → SlashRoot path →
      ∃ other, Pushed commits other ∧ names other.toList ≠ []

/-! ## What the match decides -/

/-- The subdirectory of a match is the dot for the root without a slash, else the names joined. -/
theorem construct_subdir (subdir : Option String) :
    (SubdirMatch.construct subdir).subdir = Paths.strip (normpath (subdir.getD "").toList) := by
  unfold SubdirMatch.construct
  by_cases empty : subdir.getD "" = ""
  · rw [if_pos empty, empty]
    rfl
  · rw [if_neg empty]

/-- The normalized text of a path does not start with a slash. -/
theorem strip_normpath_no_slash (path rest : List Char) :
    Paths.strip (normpath path) ≠ '/' :: rest := by
  rw [strip_normpath]
  split
  · simp
  · intro same
    by_cases nothing : names path = []
    · rw [nothing] at same
      contradiction
    · have ends := join_ends (fun name member => (solid_of_mem_names member).1) nothing
      exact ends.2.1 (by rw [same]; rfl)

/-- What a match finds: below the root without a slash every path but that root, below the root
with a slash nothing, below any other directory exactly what is there. -/
theorem matchPath_iff {subdir : Option String} {path : String} :
    (SubdirMatch.construct subdir).matchPath path = true ↔
      if names (subdir.getD "").toList = [] then
        ¬ SlashRoot (subdir.getD "") ∧ (names path.toList ≠ [] ∨ SlashRoot path)
      else Below (names (subdir.getD "").toList) (names path.toList) := by
  have absolute : ∀ text : String,
      SlashRoot text ↔ names text.toList = [] ∧ ¬ isAbsolute text.toList = false := by
    intro text
    rw [Bool.not_eq_false]
    rfl
  rw [absolute, absolute]
  unfold SubdirMatch.matchPath
  rw [construct_subdir]
  generalize (subdir.getD "").toList = s
  by_cases dot : names path.toList = [] ∧ isAbsolute path.toList = false
  · -- The root without a slash is never matched.
    have changed := strip_normpath_eq_dot.mpr dot
    have never : ¬ Below (names s) [] ∨ names s = [] := by
      by_cases nothing : names s = []
      · exact Or.inr nothing
      · exact Or.inl fun below => nothing (List.prefix_nil.mp below.1)
    rw [dot.1, dot.2]
    simp only [changed, if_true, ite_self, Bool.false_eq_true, false_iff]
    split
    · simp
    · rename_i proper
      exact never.resolve_right proper
  · have given : path ≠ "" := by
      rintro rfl
      exact dot ⟨rfl, rfl⟩
    have changed : Paths.strip (normpath path.toList) ≠ ['.'] := mt strip_normpath_eq_dot.mp dot
    have some_path : names path.toList ≠ [] ∨
        names path.toList = [] ∧ ¬ isAbsolute path.toList = false := by
      by_cases nothing : names path.toList = []
      · exact Or.inr ⟨nothing, fun relative => dot ⟨nothing, relative⟩⟩
      · exact Or.inl nothing
    simp only [given, changed, if_false]
    by_cases root : names s = []
    · by_cases relative : isAbsolute s = false
      · simpa [strip_normpath_eq_dot.mpr ⟨root, relative⟩, root, relative] using some_path
      · have text : Paths.strip (normpath s) = [] := by
          rw [strip_normpath, if_neg (fun both => relative both.2), root]
          rfl
        have nothing : ¬ ['/'] <+: Paths.strip (normpath path.toList) := by
          rintro ⟨rest, same⟩
          exact strip_normpath_no_slash path.toList rest same.symm
        simp [text, root, relative, List.isPrefixOf_iff_prefix, nothing]
    · have subdir_text : Paths.strip (normpath s) = join (names s) := by
        rw [strip_normpath, if_neg fun both => root both.1]
      have changed_text : Paths.strip (normpath path.toList) = join (names path.toList) := by
        rw [strip_normpath, if_neg dot]
      have proper : Paths.strip (normpath s) ≠ ['.'] :=
        fun same => root (strip_normpath_eq_dot.mp same).1
      rw [if_neg proper, if_neg root, List.isPrefixOf_iff_prefix, subdir_text, changed_text]
      exact join_slash_prefix_iff (fun name member => (solid_of_mem_names member).1)
        (fun name member => (solid_of_mem_names member).1) root

/-- The answer of `commits_belong_to_package`. -/
theorem commitsBelongToPackage_iff {source : SourceJsonDict} {commits : List PushedCommit}
    {ref : String} :
    commitsBelongToPackage source commits ref = true ↔
      (source.committish.getD "").toList <:+ ref.toList ∧
        ∃ path, Pushed commits path ∧
          (SubdirMatch.construct source.subdirectory).matchPath path = true := by
  have found : (commits.any fun commit =>
      commit.changed.any (SubdirMatch.construct source.subdirectory).matchPath) = true ↔
      ∃ path, Pushed commits path ∧
        (SubdirMatch.construct source.subdirectory).matchPath path = true := by
    simp only [List.any_eq_true, Pushed]
    constructor
    · rintro ⟨commit, listed, path, changed, matched⟩
      exact ⟨path, ⟨commit, listed, changed⟩, matched⟩
    · rintro ⟨path, ⟨commit, listed, changed⟩, matched⟩
      exact ⟨commit, listed, path, changed, matched⟩
  unfold commitsBelongToPackage
  by_cases empty : source.committish.getD "" = ""
  · simp [empty, found]
  · by_cases ending : (source.committish.getD "").toList <:+ ref.toList
    · simp [ending, List.isSuffixOf_iff_suffix, found]
    · simp [ending, empty, List.isSuffixOf_iff_suffix]

/-- A committish that names the branch is the end of the ref. -/
theorem suffix_of_namesBranch {committish : Option String} {branch : String}
    (named : NamesBranch committish branch) :
    (committish.getD "").toList <:+ (branchRef branch).toList := by
  rcases named with same | same | same
  · rw [same]
    exact List.nil_suffix
  · rw [same, branchRef, String.toList_append]
    exact List.suffix_append _ _
  · rw [same]

/-- After a push to a branch `commits_belong_to_package` finds the packages that the push concerns
exactly if it matches rightly. -/
theorem commitsBelongToPackage_right_iff (source : SourceJsonDict) (commits : List PushedCommit)
    (branch : String) :
    (commitsBelongToPackage source commits (branchRef branch) = true ↔
      Concerned source commits branch) ↔ RightlyMatched source commits branch := by
  rw [commitsBelongToPackage_iff]
  have below_root : ∀ path : String, source.subdirNames = [] →
      (Below source.subdirNames (names path.toList) ↔ names path.toList ≠ []) := by
    intro path root
    rw [root]
    exact ⟨fun below => Ne.symm below.2, fun proper => ⟨List.nil_prefix, Ne.symm proper⟩⟩
  have matched : ∀ path, (SubdirMatch.construct source.subdirectory).matchPath path = true ↔
      if source.subdirNames = [] then
        ¬ SlashRoot (source.subdirectory.getD "") ∧ (names path.toList ≠ [] ∨ SlashRoot path)
      else Below source.subdirNames (names path.toList) := fun path => matchPath_iff
  constructor
  · intro right
    constructor
    · intro ending
      by_cases some_match : ∃ path, Pushed commits path ∧
          (SubdirMatch.construct source.subdirectory).matchPath path = true
      · exact Or.inl (right.mp ⟨ending, some_match⟩).1
      · refine Or.inr fun path pushed => ?_
        rw [← Bool.not_eq_true]
        exact fun found => some_match ⟨path, pushed, found⟩
    · intro named slash path pushed
      by_contra proper
      have root : source.subdirNames = [] := slash.1
      have concerned : Concerned source commits branch :=
        ⟨named, path, pushed, (below_root path root).mpr proper⟩
      obtain ⟨-, other, -, found⟩ := right.mpr concerned
      rw [matched, if_pos root] at found
      exact found.1 slash
    · intro named root noslash path pushed slash
      have found := (matched path).mpr (by rw [if_pos root]; exact ⟨noslash, Or.inr slash⟩)
      obtain ⟨-, other, pushed_other, below⟩ :=
        right.mp ⟨suffix_of_namesBranch named, path, pushed, found⟩
      exact ⟨other, pushed_other, (below_root other root).mp below⟩
  · intro rightly
    constructor
    · rintro ⟨ending, path, pushed, found⟩
      have named : NamesBranch source.committish branch := by
        refine (rightly.suffix ending).resolve_right fun never => ?_
        rw [never path pushed] at found
        contradiction
      refine ⟨named, ?_⟩
      rw [matched] at found
      split at found
      · rename_i root
        obtain ⟨noslash, proper | slash⟩ := found
        · exact ⟨path, pushed, (below_root path root).mpr proper⟩
        · obtain ⟨other, pushed_other, proper⟩ := rightly.root named root noslash path pushed slash
          exact ⟨other, pushed_other, (below_root other root).mpr proper⟩
      · exact ⟨path, pushed, found⟩
    · rintro ⟨named, path, pushed, below⟩
      refine ⟨suffix_of_namesBranch named, path, pushed, (matched path).mpr ?_⟩
      split
      · rename_i root
        have proper := (below_root path root).mp below
        exact ⟨fun slash => proper (rightly.slash named slash path pushed), Or.inl proper⟩
      · exact below

/-- A push to the branch `my-main` rebuilds a package of the branch `main`. -/
theorem other_branch_rebuilt : ¬ ∀ source commits branch,
    (commitsBelongToPackage source commits (branchRef branch) = true ↔
      Concerned source commits branch) := by
  intro always
  have found := (always ⟨some "main", none⟩ [⟨["a"], [], []⟩] "my-main").mp (by decide)
  rcases found.1 with same | same | same <;> revert same <;> decide

end Copr
