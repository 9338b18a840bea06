import Copr.Lib.Globs
import Copr.Lib.Text
import Copr.Backend.Createrepo

/-!
# The packages that a deletion excludes

`run_createrepo` excludes the packages of deleted subdirectories by patterns, before `delete_builds`
removes the subdirectories. When both are about the same packages.
-/

namespace Copr

/-- `arg_parser_subdir_type`, with the text of its error. -/
def argParserSubdirType (subdir : String) : Except String String :=
  if subdir = "" then .error "subdir can not be empty string"
  else if Text.contains subdir ".." then
    .error ("relative '..' in subdir name '" ++ subdir ++ "'")
  else if Text.contains subdir " " then
    .error ("space character in subdir name '" ++ subdir ++ "'")
  else if Text.contains subdir "/" then
    .error ("'/' in subdir name '" ++ subdir ++
      "', we support only single-level subdir for now")
  else .ok subdir

/-- A chroot directory with packages in it. -/
structure ChrootDirectory where
  /-- What `run_createrepo` finds. -/
  dir : RepoDirectory
  /-- The packages, with the names on the path to them. -/
  packages : List (List String)
  /-- The names on a path. -/
  named : ∀ path ∈ packages, path ≠ [] ∧
    ∀ name ∈ path, name ≠ "" ∧ name ≠ "." ∧ name ≠ ".." ∧ '/' ∉ name.toList
  /-- Every package is in something that exists. -/
  found : ∀ path ∈ packages, ∀ first rest, path = first :: rest → dir.present first = true

/-- A package lies in a subdirectory, or in the directory itself if that is what the name means. -/
def liesIn (path : List String) (subdir : String) : Bool :=
  subdir == "." || (path.head? == some subdir && decide (1 < path.length))

/-- `delete_builds` removes the subdirectories. -/
def CreaterepoRun.deleteBuilds (run : CreaterepoRun) (packages : List (List String)) :
    List (List String) :=
  packages.filter fun path => !run.delete.any (liesIn path)

/-- The run of `run_createrepo` in a chroot directory. -/
def ChrootDirectory.run (chroot : ChrootDirectory) (opts : CoprRepoOpts) : CreaterepoRun where
  opts := opts
  dir := chroot.dir

section Patterns

variable (dialect : GlobDialect) (chroot : ChrootDirectory) (opts : CoprRepoOpts)

/-- A pattern of the command fits the path of a package. -/
def Excluded (path : List String) : Prop :=
  ∃ pattern, .excludes pattern ∈ (chroot.run opts).cmd ∧
    dialect.fits pattern (pathText path) = true

/-- A package lies in one of the deleted subdirectories. -/
def Deleted (path : List String) : Prop :=
  ∃ subdir ∈ (chroot.run opts).delete, liesIn path subdir = true

/-- The packages that are excluded are those of the deleted subdirectories. -/
def ExcludesDeleted : Prop :=
  ∀ path ∈ chroot.packages, Excluded dialect chroot opts path ↔ Deleted chroot opts path

/-- A package lies, at any depth, in a directory whose path ends with something that the name,
read as a pattern, stands for. -/
def BelowNamed (path : List String) (subdir : String) : Prop :=
  ∃ dirs rest, path = dirs ++ rest ∧ dirs ≠ [] ∧ rest ≠ [] ∧
    ∃ ending, ending <:+ pathText dirs ∧ dialect.fits subdir ending = true

/-- The names of the deleted subdirectories do not reach further than the subdirectories, and if
the chroot directory itself is among them they reach everything. -/
structure NamesSeparate : Prop where
  /-- Directories whose names end with the name of a deleted one are in deleted ones. -/
  endings : ∀ subdir ∈ (chroot.run opts).delete, dialect.plain subdir.toList = true →
    ∀ path ∈ chroot.packages, (∃ dir ∈ path.dropLast, subdir.toList <:+ dir.toList) →
      Deleted chroot opts path
  /-- Directories whose paths end with something that a deleted name with special characters
  stands for are in deleted ones. -/
  wildcards : ∀ subdir ∈ (chroot.run opts).delete, dialect.plain subdir.toList = false →
    ∀ path ∈ chroot.packages, BelowNamed dialect path subdir → Deleted chroot opts path
  /-- If `.` is deleted, every package lies in a directory whose path ends with a deleted name, or
  is removed one by one. -/
  whole : "." ∈ (chroot.run opts).delete → ∀ path ∈ chroot.packages,
    (∃ subdir ∈ (chroot.run opts).delete, BelowNamed dialect path subdir) ∨
      ∃ rpm ∈ opts.rpmsToRemove, dialect.fits rpm (pathText path) = true
  /-- The packages that are removed one by one are in deleted subdirectories. -/
  rpms : ∀ rpm ∈ opts.rpmsToRemove, ∀ path ∈ chroot.packages,
    dialect.fits rpm (pathText path) = true → Deleted chroot opts path

end Patterns

section Exclusion

variable {dialect : GlobDialect} {chroot : ChrootDirectory} {opts : CoprRepoOpts}

/-- Accepted names have no slash. -/
theorem no_slash_of_accepted {subdir : String}
    (accepted : argParserSubdirType subdir = .ok subdir) : '/' ∉ subdir.toList := by
  intro slash
  have ⟨before, after, split⟩ := List.append_of_mem slash
  have holds : Text.contains subdir "/" = true :=
    Text.contains_iff.mpr ⟨before, after, by rw [split]; simp⟩
  unfold argParserSubdirType at accepted
  rw [holds] at accepted
  split at accepted
  · contradiction
  · split at accepted
    · contradiction
    · split at accepted
      · contradiction
      · contradiction

/-- The patterns are those of the subdirectories and the removed packages. -/
theorem excludes_mem_cmd_iff {run : CreaterepoRun} {pattern : String} :
    .excludes pattern ∈ run.cmd ↔
      (∃ subdir ∈ run.delete, excludedSubdir subdir = pattern) ∨
        pattern ∈ run.opts.rpmsToRemove := by
  simp [CreaterepoRun.cmd, databaseOption]

/-- The pattern of a name fits the packages in the directories that it names. -/
theorem fits_excludedSubdir_iff {subdir : String} {path : List String}
    (names : ∀ name ∈ path, '/' ∉ name.toList) :
    dialect.fits (excludedSubdir subdir) (pathText path) = true ↔
      BelowNamed dialect path subdir := by
  rw [excludedSubdir, GlobDialect.fits_between_stars]
  constructor
  · intro ⟨before, ending, after, whole, fits⟩
    rw [← List.append_assoc] at whole
    have ⟨dirs, rest, split, inside, below, text⟩ := pathText_at_slash names whole
    exact ⟨dirs, rest, split, inside, below, ending, ⟨before, text.symm⟩, fits⟩
  · intro ⟨dirs, rest, split, inside, below, ending, ⟨before, text⟩, fits⟩
    refine ⟨before, ending, pathText rest, ?_, fits⟩
    rw [split, pathText_append inside below, ← text, List.append_assoc]

/-- A plain name names the directories whose own names end with it. -/
theorem belowNamed_plain_iff {subdir : String} (plain : dialect.plain subdir.toList = true)
    (single : '/' ∉ subdir.toList) {path : List String} :
    BelowNamed dialect path subdir ↔ ∃ dir ∈ path.dropLast, subdir.toList <:+ dir.toList := by
  constructor
  · intro ⟨dirs, rest, split, inside, below, ending, ends, fits⟩
    rw [GlobDialect.fits_plain_iff plain] at fits
    refine ⟨dirs.getLast inside, ?_, suffix_pathText single inside (fits ▸ ends)⟩
    rw [split, List.dropLast_append_of_ne_nil below]
    exact List.mem_append_left _ (List.getLast_mem inside)
  · intro ⟨dir, member, ends⟩
    have proper : path ≠ [] := by
      intro empty
      rw [empty] at member
      contradiction
    have ⟨outer, inner, split⟩ := List.append_of_mem member
    refine ⟨outer ++ [dir], inner ++ [path.getLast proper], ?_, by simp, by simp, subdir.toList,
      suffix_pathText_concat outer ends, GlobDialect.fits_self subdir⟩
    calc path = path.dropLast ++ [path.getLast proper] :=
          (List.dropLast_append_getLast proper).symm
      _ = outer ++ [dir] ++ (inner ++ [path.getLast proper]) := by rw [split]; simp

/-- A package in a subdirectory has its name as the first directory. -/
theorem liesIn_iff {path : List String} {subdir : String} (proper : subdir ≠ ".") :
    liesIn path subdir = true ↔ ∃ rest, rest ≠ [] ∧ path = subdir :: rest := by
  rw [liesIn, beq_false_of_ne proper, Bool.false_or]
  cases path with
  | nil => simp
  | cons first rest =>
    cases rest with
    | nil => simp
    | cons next others => simp

/-- A package in a subdirectory lies in a directory that the subdirectory's name stands for. -/
theorem belowNamed_of_liesIn {subdir : String} (proper : subdir ≠ ".") {path : List String}
    (lies : liesIn path subdir = true) : BelowNamed dialect path subdir := by
  have ⟨rest, below, same⟩ := (liesIn_iff proper).mp lies
  exact ⟨[subdir], rest, same, List.cons_ne_nil _ _, below, subdir.toList, List.suffix_rfl,
    GlobDialect.fits_self subdir⟩

/-- A package is excluded if it lies in a directory that a deleted name stands for, or if it is
removed itself. -/
theorem excluded_iff {path : List String} (names : ∀ name ∈ path, '/' ∉ name.toList) :
    Excluded dialect chroot opts path ↔
      (∃ subdir ∈ (chroot.run opts).delete, BelowNamed dialect path subdir) ∨
        ∃ rpm ∈ opts.rpmsToRemove, dialect.fits rpm (pathText path) = true := by
  constructor
  · intro ⟨written, given, fits⟩
    cases excludes_mem_cmd_iff.mp given with
    | inl named =>
      have ⟨subdir, member, same⟩ := named
      exact Or.inl ⟨subdir, member, (fits_excludedSubdir_iff names).mp (same ▸ fits)⟩
    | inr member => exact Or.inr ⟨written, member, fits⟩
  · intro named
    cases named with
    | inl named =>
      have ⟨subdir, member, below⟩ := named
      exact ⟨_, excludes_mem_cmd_iff.mpr (Or.inl ⟨subdir, member, rfl⟩),
        (fits_excludedSubdir_iff names).mpr below⟩
    | inr removed =>
      have ⟨rpm, member, fits⟩ := removed
      exact ⟨rpm, excludes_mem_cmd_iff.mpr (Or.inr member), fits⟩

/-- What is left are the packages outside of the deleted subdirectories. -/
theorem mem_deleteBuilds_iff {path : List String} :
    path ∈ (chroot.run opts).deleteBuilds chroot.packages ↔
      path ∈ chroot.packages ∧ ¬Deleted chroot opts path := by
  rw [CreaterepoRun.deleteBuilds, List.mem_filter, Deleted, Bool.not_eq_true', ← Bool.not_eq_true,
    List.any_eq_true]

end Exclusion

/-- A deletion excludes exactly the packages of the deleted subdirectories if and only if their
names are separate from all others. -/
theorem excludes_deleted_iff (dialect : GlobDialect) (chroot : ChrootDirectory)
    (opts : CoprRepoOpts)
    (accepted : ∀ subdir ∈ opts.delete, argParserSubdirType subdir = .ok subdir) :
    ExcludesDeleted dialect chroot opts ↔ NamesSeparate dialect chroot opts := by
  have single : ∀ subdir ∈ (chroot.run opts).delete, '/' ∉ subdir.toList := fun subdir member =>
    no_slash_of_accepted (accepted subdir (List.mem_filter.mp member).1)
  have names : ∀ path ∈ chroot.packages, ∀ name ∈ path, '/' ∉ name.toList :=
    fun path listed name member => ((chroot.named path listed).2 name member).2.2.2
  constructor
  · intro exact
    have named : ∀ subdir ∈ (chroot.run opts).delete, ∀ path ∈ chroot.packages,
        BelowNamed dialect path subdir → Deleted chroot opts path :=
      fun subdir member path listed below => (exact path listed).mp
        ((excluded_iff (names path listed)).mpr (Or.inl ⟨subdir, member, below⟩))
    constructor
    · intro subdir member plain path listed ending
      apply named subdir member path listed
      exact (belowNamed_plain_iff plain (single subdir member)).mpr ending
    · intro subdir member _ path listed below
      exact named subdir member path listed below
    · intro member path listed
      apply (excluded_iff (names path listed)).mp
      exact (exact path listed).mpr ⟨".", member, rfl⟩
    · intro rpm member path listed fits
      apply (exact path listed).mp
      exact (excluded_iff (names path listed)).mpr (Or.inr ⟨rpm, member, fits⟩)
  · intro separate path listed
    rw [excluded_iff (names path listed)]
    constructor
    · intro excluded
      cases excluded with
      | inl named =>
        have ⟨subdir, member, below⟩ := named
        cases plain : dialect.plain subdir.toList with
        | true =>
          have ending := (belowNamed_plain_iff plain (single subdir member)).mp below
          exact separate.endings subdir member plain path listed ending
        | false => exact separate.wildcards subdir member plain path listed below
      | inr removed =>
        have ⟨rpm, member, fits⟩ := removed
        exact separate.rpms rpm member path listed fits
    · intro ⟨subdir, member, lies⟩
      by_cases itself : subdir = "."
      · exact separate.whole (itself ▸ member) path listed
      · exact Or.inl ⟨subdir, member, belowNamed_of_liesIn itself lies⟩

/-- A package of the build to be deleted, and one of another build. -/
def twoBuilds (other : String) (proper : other ≠ "" ∧ other ≠ "." ∧ other ≠ ".." ∧
    '/' ∉ other.toList) : ChrootDirectory where
  dir := ⟨false, true, fun _ => true⟩
  packages := [["00000001-foo", "foo.rpm"], [other, "foo.rpm"]]
  named path listed := by
    have rpm : "foo.rpm" ≠ "" ∧ "foo.rpm" ≠ "." ∧ "foo.rpm" ≠ ".." ∧ '/' ∉ "foo.rpm".toList := by
      decide
    have first : "00000001-foo" ≠ "" ∧ "00000001-foo" ≠ "." ∧ "00000001-foo" ≠ ".." ∧
        '/' ∉ "00000001-foo".toList := by decide
    rw [List.mem_cons, List.mem_singleton] at listed
    cases listed with
    | inl same =>
      rw [same]
      exact ⟨by simp, fun name member => by
        rw [List.mem_cons, List.mem_singleton] at member
        cases member with
        | inl same => exact same ▸ first
        | inr same => exact same ▸ rpm⟩
    | inr same =>
      rw [same]
      exact ⟨by simp, fun name member => by
        rw [List.mem_cons, List.mem_singleton] at member
        cases member with
        | inl same => exact same ▸ proper
        | inr same => exact same ▸ rpm⟩
  found _ _ _ _ _ := rfl

/-- The options of a process that deletes the build. -/
def deleteFirst : CoprRepoOpts where
  args := { directory := "/results/user/project/fedora-40-x86_64", delete := ["00000001-foo"] }
  full := false
  add := []
  delete := ["00000001-foo"]
  rpmsToRemove := []

/-- Next to a build of another package everything is excluded as it should be. -/
theorem separate_builds :
    ExcludesDeleted .basic (twoBuilds "00000002-bar" (by decide)) deleteFirst := by
  have accepted : ∀ subdir ∈ deleteFirst.delete, argParserSubdirType subdir = .ok subdir := by
    decide
  apply (excludes_deleted_iff _ _ _ accepted).mpr
  have own : Deleted (twoBuilds "00000002-bar" (by decide)) deleteFirst
      ["00000001-foo", "foo.rpm"] := ⟨"00000001-foo", by decide, by decide⟩
  constructor
  · intro subdir member _ path listed ⟨dir, inner, ending⟩
    rw [List.mem_singleton.mp member] at ending
    cases listed with
    | head => exact own
    | tail _ last =>
      rw [List.mem_singleton.mp last] at inner
      rw [List.mem_singleton.mp inner] at ending
      exact absurd ending (by decide)
  · intro subdir member special
    rw [List.mem_singleton.mp member] at special
    exact absurd special (by decide)
  · intro itself
    exact absurd (List.mem_singleton.mp itself) (by decide)
  · intro rpm member
    contradiction

/-- The pattern for the first build fits the path of the build with the number 100000001. -/
theorem longer_number_excluded :
    (∀ subdir ∈ deleteFirst.delete, argParserSubdirType subdir = .ok subdir) ∧
      ¬ExcludesDeleted .basic (twoBuilds "100000001-foo" (by decide)) deleteFirst := by
  constructor
  · decide
  · intro exact
    have listed : ["100000001-foo", "foo.rpm"] ∈
        (twoBuilds "100000001-foo" (by decide)).packages := by decide
    have excluded : Excluded .basic (twoBuilds "100000001-foo" (by decide)) deleteFirst
        ["100000001-foo", "foo.rpm"] := ⟨"*00000001-foo/*", by decide, by decide⟩
    have ⟨subdir, member, lies⟩ := (exact _ listed).mp excluded
    rw [List.mem_singleton.mp member] at lies
    revert lies
    decide

end Copr
