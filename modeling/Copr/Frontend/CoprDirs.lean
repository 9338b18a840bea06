import Mathlib.Data.List.Dedup
import Mathlib.Data.List.Sort
import Copr.Lib.Tables
import Copr.Lib.Text

/-!
# Directories of projects

`CoprDirsLogic` of `coprs/logic/coprs_logic.py` as far as it creates directories and removes those
of old pull requests: which names are accepted, which directories are expired, and what is
deleted and handed over to the backend.
-/

namespace Copr

open Tables Text

/-- `NameCharactersValidator`: a word with dots and dashes; `$` also matches before a newline at
the end. -/
def nameCharacters (chars : CharClasses) (name : String) : Bool :=
  let word := if name.toList.getLast? = some '\n' then name.toList.dropLast else name.toList
  !word.isEmpty && word.all fun c => chars.isalnum c || c = '_' || c = '.' || c = '-'

/-- A `Copr` as far as its directories are named after it. -/
structure NamedCopr (chars : CharClasses) where
  /-- `id`. -/
  id : Nat
  /-- `owner_name`: the name of a user, or that of a group behind an `@`. -/
  ownerName : String
  /-- `name`. -/
  name : String
  /-- Owners are a part of the URL before a slash. -/
  owner_plain : '/' ∉ ownerName.toList
  /-- The forms validate the name. -/
  named : nameCharacters chars name = true
  deriving DecidableEq

/-- `_valid_custom_dir_suffix`. -/
def validCustomDirSuffix (chars : CharClasses) (copr dirname : String) : Bool :=
  if startswith dirname (copr ++ ":custom:") then true
  else if !startswith dirname (copr ++ ":pr:") then false
  else
    match split dirname ':' with
    | [_, _, last] => chars.numeric (((last.splitOn '-').getLast?).getD [])
    | _ => false

/-- `validate`; an error has the text of the `BadRequest`. -/
def validate (chars : CharClasses) (copr dirname : String) : Except String Unit :=
  if !startswith dirname (copr ++ ":") then
    .error ("Copr dirname must start with '" ++ copr ++ ":' prefix")
  else if !validCustomDirSuffix chars copr dirname then
    .error ("Please use directory format " ++ copr ++ ":custom:<SUFFIX_OF_CHOICE> or " ++ copr ++
      ":pr:<ID> (for automatically removed directories)")
  else if !((split dirname ':').drop 1).all fun part => (part.splitOn '-').all chars.alnum then
    .error ("Wrong directory '" ++ dirname ++ "' specified.  Directory name can " ++
      "consist of alpha-numeric strings separated by colons.")
  else .ok ()

/-- The name is accepted for a directory of the project. -/
def Accepted (chars : CharClasses) (copr dirname : String) : Prop :=
  validate chars copr dirname = .ok ()

instance (chars : CharClasses) (copr dirname : String) : Decidable (Accepted chars copr dirname) :=
  inferInstanceAs (Decidable (_ = _))

/-- A `CoprDir`: the main directory has the name of its project, any other one has a name that was
accepted. -/
structure CoprDir (chars : CharClasses) where
  /-- `id`. -/
  id : Nat
  /-- `copr`. -/
  copr : NamedCopr chars
  /-- `name`. -/
  name : String
  /-- `main`. -/
  main : Bool
  /-- How the directory was named when it was created. -/
  created : if main then name = copr.name else Accepted chars copr.name name
  deriving DecidableEq

namespace CoprDir

variable {chars : CharClasses}

/-- `ownername` and `name`, which are unique together. -/
def key (d : CoprDir chars) : String × String := (d.copr.ownerName, d.name)

/-- `full_name`. -/
def fullName (d : CoprDir chars) : String := d.copr.ownerName ++ "/" ++ d.name

/-- The directory is one of pull requests by its name. -/
def isPr (d : CoprDir chars) : Bool := contains d.name ":pr:"

/-- The name begins as that of a custom directory. -/
def isCustom (d : CoprDir chars) : Bool := startswith d.name (d.copr.name ++ ":custom:")

end CoprDir

/-- A `Build` as far as it keeps its directory. -/
structure DirBuild where
  /-- `id`. -/
  id : Nat
  /-- `copr_dir_id`. -/
  coprDirId : Nat
  /-- `submitted_on`. -/
  submittedOn : Int
  deriving DecidableEq, Repr

/-- An `Action` of the type `remove_dirs`. -/
structure RemoveDirsAction where
  /-- `id`. -/
  id : Nat
  /-- `copr_id`. -/
  coprId : Nat
  /-- `data`: full names of directories. -/
  data : List String
  /-- `created_on`. -/
  createdOn : Int
  /-- `result` is still `waiting`. -/
  waiting : Bool
  deriving DecidableEq, Repr

/-- The configuration. -/
structure DirConfig where
  /-- `KEEP_PR_DIRS_DAYS`. -/
  keepPrDirsDays : Nat
  /-- `_compare_dir_pairs` puts the one name before the other; it uses the locale. -/
  precedes : String → String → Bool

/-- The tables with directories. -/
structure DirDatabase (chars : CharClasses) where
  /-- The directories. -/
  dirs : Table (@CoprDir.key chars)
  /-- The builds. -/
  builds : List DirBuild
  /-- The actions that remove directories. -/
  actions : Table RemoveDirsAction.id
  /-- The next `CoprDir.id`. -/
  nextDirId : Nat
  /-- The next `Action.id`. -/
  nextActionId : Nat

/-- What `get_all_with_latest_submitted_build` says about a directory. -/
structure DirInfo (chars : CharClasses) where
  /-- `copr_dir`. -/
  coprDir : CoprDir chars
  /-- `delete`. -/
  delete : Bool
  /-- `removal_candidate`. -/
  removalCandidate : Bool

namespace DirDatabase

variable {chars : CharClasses} (cfg : DirConfig) (db : DirDatabase chars)

/-- No directory has been created. -/
def empty : DirDatabase chars where
  dirs := .empty
  builds := []
  actions := .empty
  nextDirId := 1
  nextActionId := 1

/-- A new directory, which is rolled back when the owner has one of the same name. -/
def addDir (copr : NamedCopr chars) (name : String) (main : Bool)
    (created : if main then name = copr.name else Accepted chars copr.name name) :
    DirDatabase chars :=
  { db with
    dirs := db.dirs.insert ⟨db.nextDirId, copr, name, main, created⟩
    nextDirId := db.nextDirId + 1 }

/-- `CoprsLogic.add` and `fork_copr` create the main directory of a project. -/
def addMainDir (copr : NamedCopr chars) : DirDatabase chars :=
  db.addDir copr copr.name true rfl

/-- `get_by_copr_or_none`. -/
def getByCoprOrNone (copr : NamedCopr chars) (dirname : String) : Option (CoprDir chars) :=
  db.dirs.rows.find? fun d => decide (d.copr.id = copr.id) && decide (d.name = dirname)

/-- `get_or_create`: a name that is not accepted is refused. -/
def getOrCreate (copr : NamedCopr chars) (dirname : String) : DirDatabase chars :=
  match db.getByCoprOrNone copr dirname with
  | some _ => db
  | none =>
    if accepted : Accepted chars copr.name dirname then db.addDir copr dirname false accepted
    else db

/-- A build is submitted into a directory. -/
def addBuild (b : DirBuild) : DirDatabase chars :=
  if db.dirs.rows.any fun d => decide (d.id = b.coprDirId) then
    { db with builds := db.builds ++ [b] }
  else db

/-- A build is deleted. -/
def deleteBuild (id : Nat) : DirDatabase chars :=
  { db with builds := db.builds.filter fun b => decide (b.id ≠ id) }

/-- `delete_with_builds` for some directories. -/
def deleteWithBuilds (selected : CoprDir chars → Bool) : DirDatabase chars :=
  { db with
    dirs := db.dirs.remove selected
    builds := db.builds.filter fun b =>
      !db.dirs.rows.any fun d => selected d && decide (d.id = b.coprDirId) }

/-- `delete_copr`: all builds of the project, then `delete_all_by_copr`. -/
def deleteCopr (coprId : Nat) : DirDatabase chars :=
  db.deleteWithBuilds fun d => decide (d.copr.id = coprId)

/-- `latest_build_submitted_on`. -/
def latestBuildSubmittedOn (d : CoprDir chars) : Option Int :=
  ((db.builds.filter fun b => decide (b.coprDirId = d.id)).insertionSort
    fun b c => c.id ≤ b.id).head?.map DirBuild.submittedOn

/-- What is said about a directory at a time. -/
def dirInfo (now : Int) (d : CoprDir chars) : DirInfo chars :=
  if !contains d.name ":pr:" then ⟨d, false, false⟩
  else
    match db.latestBuildSubmittedOn d with
    | none => ⟨d, true, true⟩
    | some last => ⟨d, decide (cfg.keepPrDirsDays * 24 * 3600 < now - last), true⟩

/-- `get_all_with_latest_submitted_build`. -/
def getAllWithLatestSubmittedBuild (now : Int) (coprId : Nat) : List (DirInfo chars) :=
  ((db.dirs.rows.filter fun d => decide (d.copr.id = coprId)).insertionSort
    fun d e => cfg.precedes d.name e.name = true).map (db.dirInfo cfg now)

/-- `get_copr_ids_with_pr_dirs`. -/
def getCoprIdsWithPrDirs : List Nat :=
  ((db.dirs.rows.filter fun d => contains d.name ":pr:").map fun d => d.copr.id).dedup

/-- The directories of a project that are to be deleted. -/
def expiredDirs (now : Int) (coprId : Nat) : List (CoprDir chars) :=
  ((db.getAllWithLatestSubmittedBuild cfg now coprId).filter DirInfo.delete).map DirInfo.coprDir

/-- The body of the loop in `send_delete_dirs_action`. -/
def removeExpired (now : Int) (coprId : Nat) : DirDatabase chars :=
  let expired := db.expiredDirs cfg now coprId
  { db.deleteWithBuilds fun d => decide (d ∈ expired) with
    actions := db.actions.insert
      ⟨db.nextActionId, coprId, expired.map CoprDir.fullName, now, true⟩
    nextActionId := db.nextActionId + 1 }

/-- `send_delete_dirs_action`. -/
def sendDeleteDirsAction (now : Int) : DirDatabase chars :=
  db.getCoprIdsWithPrDirs.foldl (fun db coprId => db.removeExpired cfg now coprId) db

end DirDatabase

/-- What happens to directories on the frontend. -/
inductive DirEvent (chars : CharClasses)
  /-- A project is created. -/
  | addMainDir (copr : NamedCopr chars)
  /-- `get_or_create`. -/
  | getOrCreate (copr : NamedCopr chars) (dirname : String)
  /-- A build is submitted. -/
  | addBuild (b : DirBuild)
  /-- A build is deleted. -/
  | deleteBuild (id : Nat)
  /-- A project is deleted. -/
  | deleteCopr (coprId : Nat)
  /-- `send_delete_dirs_action` at a time. -/
  | sendDeleteDirsAction (now : Int)

/-- The effect of an event. -/
def DirDatabase.step {chars : CharClasses} (cfg : DirConfig) (db : DirDatabase chars) :
    DirEvent chars → DirDatabase chars
  | .addMainDir copr => db.addMainDir copr
  | .getOrCreate copr dirname => db.getOrCreate copr dirname
  | .addBuild b => db.addBuild b
  | .deleteBuild id => db.deleteBuild id
  | .deleteCopr coprId => db.deleteCopr coprId
  | .sendDeleteDirsAction now => db.sendDeleteDirsAction cfg now

/-! ## Names -/

section Names

variable {chars : CharClasses}

/-- A name that the forms accept has no character of ASCII beyond letters, digits, underscores,
dots, dashes and a newline. -/
theorem not_mem_of_nameCharacters {name : String} {c : Char}
    (given : nameCharacters chars name = true) (ascii : c.toNat < 128)
    (other : c.isAlphanum = false) (special : c ∉ ['_', '.', '-', '\n']) : c ∉ name.toList := by
  intro member
  have single : c ≠ '_' ∧ c ≠ '.' ∧ c ≠ '-' ∧ c ≠ '\n' := by simpa using special
  have letter := chars.isalnum_eq_false ascii other
  have inside : c ∈ (if name.toList.getLast? = some '\n' then name.toList.dropLast
      else name.toList) := by
    split
    · rename_i newline
      have parts := List.dropLast_append_getLast? _ newline
      rw [← parts] at member
      rcases List.mem_append.mp member with front | last
      · exact front
      · exact absurd (List.mem_singleton.mp last) single.2.2.2
    · exact member
  simp only [nameCharacters, Bool.and_eq_true, List.all_eq_true] at given
  have allowed := given.2 c inside
  simp [letter, single.1, single.2.1, single.2.2.1] at allowed

/-- There is no colon in the name of a project. -/
theorem NamedCopr.name_colon (copr : NamedCopr chars) : ':' ∉ copr.name.toList :=
  not_mem_of_nameCharacters copr.named (by decide) (by decide) (by decide)

/-- There is no slash in the name of a project. -/
theorem NamedCopr.name_slash (copr : NamedCopr chars) : '/' ∉ copr.name.toList :=
  not_mem_of_nameCharacters copr.named (by decide) (by decide) (by decide)

/-- What is known of a name that is accepted. -/
theorem Accepted.spec {copr dirname : String} (accepted : Accepted chars copr dirname) :
    startswith dirname (copr ++ ":") = true ∧ validCustomDirSuffix chars copr dirname = true ∧
      ∀ part ∈ (split dirname ':').drop 1, ∀ word ∈ part.splitOn '-', chars.alnum word = true := by
  unfold Accepted validate at accepted
  split at accepted
  · contradiction
  · rename_i starts
    split at accepted
    · contradiction
    · rename_i suffix
      split at accepted
      · contradiction
      · rename_i words
        simp only [Bool.not_eq_true, Bool.not_eq_false', List.all_eq_true] at starts suffix words
        exact ⟨starts, suffix, words⟩

/-- A name that is accepted is that of a custom directory or of one of pull requests. -/
theorem Accepted.kind {copr dirname : String} (accepted : Accepted chars copr dirname) :
    startswith dirname (copr ++ ":custom:") = true ∨
      startswith dirname (copr ++ ":pr:") = true := by
  have suffix := accepted.spec.2.1
  unfold validCustomDirSuffix at suffix
  split at suffix
  · rename_i custom
    exact Or.inl custom
  · split at suffix
    · contradiction
    · rename_i pr
      right
      simpa using pr

/-- There is no slash in a name that is accepted. -/
theorem Accepted.slash {copr : NamedCopr chars} {dirname : String}
    (accepted : Accepted chars copr.name dirname) : '/' ∉ dirname.toList := by
  intro member
  obtain ⟨starts, -, words⟩ := accepted.spec
  obtain ⟨rest, same⟩ := startswith_iff.mp starts
  rw [String.toList_append] at same
  have whole : dirname.toList = copr.name.toList ++ ':' :: rest := by
    simpa using same
  have pieces : (split dirname ':').drop 1 = rest.splitOn ':' := by
    rw [split, whole, List.splitOn_append_cons_self_of_not_mem copr.name_colon]
    rfl
  rw [whole, List.mem_append, List.mem_cons] at member
  rcases member with inName | inColon | inRest
  · exact copr.name_slash inName
  · contradiction
  · rcases mem_piece ':' inRest with colon | ⟨part, listed, inPart⟩
    · contradiction
    · rcases mem_piece '-' inPart with dash | ⟨word, own, inWord⟩
      · contradiction
      · have letters := words part (pieces ▸ listed) word own
        exact chars.not_mem_of_alnum letters (by decide) (by decide) inWord

variable {d e : CoprDir chars}

/-- There is no slash in the name of a directory. -/
theorem CoprDir.name_slash (d : CoprDir chars) : '/' ∉ d.name.toList := by
  have created := d.created
  split at created
  · rw [created]
    exact d.copr.name_slash
  · exact Accepted.slash created

/-- A main directory is not one of pull requests. -/
theorem CoprDir.isPr_of_main (main : d.main = true) : d.isPr = false := by
  have created := d.created
  rw [if_pos main] at created
  rw [Bool.eq_false_iff]
  intro pr
  obtain ⟨before, after, same⟩ := contains_iff.mp pr
  rw [created] at same
  refine d.copr.name_colon ?_
  rw [same]
  simp

/-- A full name tells the directory of an owner. -/
theorem CoprDir.fullName_inj (same : d.fullName = e.fullName) : d.key = e.key := by
  have lists : d.copr.ownerName.toList ++ '/' :: d.name.toList =
      e.copr.ownerName.toList ++ '/' :: e.name.toList := by
    have texts := congrArg String.toList same
    simpa [CoprDir.fullName, String.toList_append] using texts
  have left := splitOn_two d.copr.owner_plain d.name_slash
  have right := splitOn_two e.copr.owner_plain e.name_slash
  rw [lists, right] at left
  injection left with owner rest
  injection rest with name
  rw [CoprDir.key, CoprDir.key, String.toList_inj.mp owner, String.toList_inj.mp name]

/-- Directories of one full name are both directories of pull requests or both not. -/
theorem CoprDir.isPr_of_fullName (same : d.fullName = e.fullName) : d.isPr = e.isPr := by
  have names : d.name = e.name := congrArg Prod.snd (CoprDir.fullName_inj same)
  rw [CoprDir.isPr, CoprDir.isPr, names]

/-- The full name of a directory has two parts. -/
theorem CoprDir.split_fullName (d : CoprDir chars) :
    split d.fullName '/' = [d.copr.ownerName.toList, d.name.toList] := by
  rw [split, CoprDir.fullName, String.toList_append, String.toList_append, List.append_assoc]
  exact splitOn_two d.copr.owner_plain d.name_slash

/-- The full name of a directory of pull requests says so. -/
theorem CoprDir.contains_fullName (pr : d.isPr = true) : contains d.fullName ":pr:" = true := by
  obtain ⟨before, after, same⟩ := contains_iff.mp pr
  rw [contains_iff]
  refine ⟨(d.copr.ownerName ++ "/").toList ++ before, after, ?_⟩
  rw [CoprDir.fullName, String.toList_append, same]
  simp [List.append_assoc]

end Names

/-! ## What is removed -/

namespace DirDatabase

variable {chars : CharClasses} {cfg : DirConfig} {db db' mid : DirDatabase chars}

/-- Only directories of pull requests are expired. -/
theorem mem_expiredDirs {now : Int} {coprId : Nat} {d : CoprDir chars}
    (expired : d ∈ db.expiredDirs cfg now coprId) : d ∈ db.dirs.rows ∧ d.isPr = true := by
  simp only [expiredDirs, getAllWithLatestSubmittedBuild, List.mem_map, List.mem_filter,
    List.mem_insertionSort] at expired
  obtain ⟨info, ⟨⟨e, ⟨listed, -⟩, rfl⟩, delete⟩, rfl⟩ := expired
  unfold dirInfo at delete ⊢
  split at delete
  · contradiction
  · rename_i pr
    rw [if_neg pr]
    simp only [Bool.not_eq_true, Bool.not_eq_false'] at pr
    split
    · exact ⟨listed, pr⟩
    · exact ⟨listed, pr⟩

/-- What removing expired directories does. -/
structure Removes (db db' : DirDatabase chars) : Prop where
  /-- No directory is new. -/
  fewer : ∀ d ∈ db'.dirs.rows, d ∈ db.dirs.rows
  /-- Only directories of pull requests are gone. -/
  kept : ∀ d ∈ db.dirs.rows, d.isPr = false → d ∈ db'.dirs.rows
  /-- A new action names directories that are gone. -/
  gone : ∀ a ∈ db'.actions.rows, a ∈ db.actions.rows ∨ ∀ path ∈ a.data, ∃ d ∈ db.dirs.rows,
    d ∉ db'.dirs.rows ∧ d.isPr = true ∧ d.fullName = path

/-- A database that has not changed has removed nothing. -/
theorem Removes.refl (db : DirDatabase chars) : Removes db db where
  fewer _ listed := listed
  kept _ listed _ := listed
  gone _ listed := Or.inl listed

/-- Removing expired directories twice is removing expired directories. -/
theorem Removes.trans (first : Removes db mid) (second : Removes mid db') : Removes db db' where
  fewer d listed := first.fewer d (second.fewer d listed)
  kept d listed plain := second.kept d (first.kept d listed plain) plain
  gone a listed := by
    rcases second.gone a listed with before | new
    · rcases first.gone a before with old | removed
      · exact Or.inl old
      · right
        intro path named
        obtain ⟨d, there, absent, pr, same⟩ := removed path named
        exact ⟨d, there, fun later => absent (second.fewer d later), pr, same⟩
    · right
      intro path named
      obtain ⟨d, there, absent, pr, same⟩ := new path named
      exact ⟨d, first.fewer d there, absent, pr, same⟩

/-- The body of the loop removes only directories of pull requests, and its action names removed
ones. -/
theorem removeExpired_removes (now : Int) (coprId : Nat) :
    Removes db (db.removeExpired cfg now coprId) where
  fewer d listed := (Table.mem_remove.mp listed).1
  kept d listed plain := by
    refine Table.mem_remove.mpr ⟨listed, ?_⟩
    rw [decide_eq_false_iff_not]
    intro expired
    have pr := (mem_expiredDirs expired).2
    rw [plain] at pr
    contradiction
  gone a listed := by
    rcases Table.mem_insert.mp listed with before | ⟨rfl, -⟩
    · exact Or.inl before
    · right
      intro path named
      obtain ⟨d, expired, same⟩ := List.mem_map.mp named
      have known := mem_expiredDirs expired
      refine ⟨d, known.1, fun later => ?_, known.2, same⟩
      have absent := (Table.mem_remove.mp later).2
      rw [decide_eq_false_iff_not] at absent
      exact absent expired

/-- The whole loop removes only directories of pull requests, and its actions name removed ones. -/
theorem sendDeleteDirsAction_removes (db : DirDatabase chars) (now : Int) :
    Removes db (db.sendDeleteDirsAction cfg now) := by
  have loop : ∀ (ids : List Nat) (mid : DirDatabase chars), Removes mid
      (ids.foldl (fun db coprId => db.removeExpired cfg now coprId) mid) := by
    intro ids
    induction ids with
    | nil => exact fun mid => Removes.refl mid
    | cons id ids ih => exact fun mid => (removeExpired_removes now id).trans (ih _)
  exact loop _ db

/-- A directory that is in the table after an event was there before, or it is the one that the
event created. -/
theorem mem_step {e : DirEvent chars} {d : CoprDir chars} (listed : d ∈ (db.step cfg e).dirs.rows) :
    d ∈ db.dirs.rows ∨ (d.main = true ∧ e = .addMainDir d.copr) ∨
      e = .getOrCreate d.copr d.name := by
  cases e with
  | addMainDir copr =>
    rcases Table.mem_insert.mp listed with before | ⟨rfl, -⟩
    · exact Or.inl before
    · exact Or.inr (Or.inl ⟨rfl, rfl⟩)
  | getOrCreate copr dirname =>
    simp only [step, getOrCreate] at listed
    split at listed
    · exact Or.inl listed
    · split at listed
      · rcases Table.mem_insert.mp listed with before | ⟨rfl, -⟩
        · exact Or.inl before
        · exact Or.inr (Or.inr rfl)
      · exact Or.inl listed
  | addBuild b =>
    simp only [step, addBuild] at listed
    split at listed <;> exact Or.inl listed
  | deleteBuild id => exact Or.inl listed
  | deleteCopr coprId => exact Or.inl (Table.mem_remove.mp listed).1
  | sendDeleteDirsAction now => exact Or.inl ((sendDeleteDirsAction_removes db now).fewer d listed)

/-- An action that is in the table after an event was there before, or the event has created no
directory and removed those that the action names. -/
theorem mem_step_actions {e : DirEvent chars} {a : RemoveDirsAction}
    (listed : a ∈ (db.step cfg e).actions.rows) : a ∈ db.actions.rows ∨
      (∀ d ∈ (db.step cfg e).dirs.rows, d ∈ db.dirs.rows) ∧ ∀ path ∈ a.data,
        ∃ d ∈ db.dirs.rows, d ∉ (db.step cfg e).dirs.rows ∧ d.isPr = true ∧ d.fullName = path := by
  cases e with
  | addMainDir copr => exact Or.inl listed
  | getOrCreate copr dirname =>
    simp only [step, getOrCreate] at listed
    split at listed
    · exact Or.inl listed
    · split at listed <;> exact Or.inl listed
  | addBuild b =>
    simp only [step, addBuild] at listed
    split at listed <;> exact Or.inl listed
  | deleteBuild id => exact Or.inl listed
  | deleteCopr coprId => exact Or.inl listed
  | sendDeleteDirsAction now =>
    have removes : Removes db (db.sendDeleteDirsAction cfg now) :=
      sendDeleteDirsAction_removes db now
    exact (removes.gone a listed).imp_right fun gone => ⟨removes.fewer, gone⟩

end DirDatabase

end Copr
