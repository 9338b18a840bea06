import Copr.Lib.Runs
import Copr.DistGit.PackageImport
import Copr.Frontend.BackendGeneral

/-!
# The content of reported commits

For every history of imports into one repository: a commit that is reported for a branch has
the content of the imported sources, unless a commit that fails is taken for an empty one, or a
branch is ahead of one that has the content already, so that there is nothing to merge.
-/

namespace Copr

open CommitGraph Dicts Runs

variable {τ : Type*} [DecidableEq τ]

namespace Import

/-- The branch is ahead of the first reported one that can be merged. -/
def aheadOfReported (branchCommits : List (String × Commit τ)) (w : Checkout τ) : Bool :=
  (mergeable branchCommits w).any (Commit.ahead w.head)

/-- A branch that can be checked out and pushed has the content already, or its import is
committed, or it is not ahead of the first reported branch that can be merged. -/
def admits (content : τ) (i : Import τ) (v : Visit τ) : Bool :=
  match i.switchBranch v with
  | none => true
  | some w =>
    v.faults.push || decide (w.head.tree = content) ||
      if i.branchCommits = [] then v.faults.importSrpm.isSome || !v.faults.commit
      else !aheadOfReported i.branchCommits w

/-- The reported commits have the content, and so have their local branches. -/
def Reports (content : τ) (branchCommits : List (String × Commit τ)) (w : Checkout τ) : Prop :=
  ∀ entry ∈ branchCommits,
    entry.2.tree = content ∧ ∃ c, w.locals.lookup entry.1 = some c ∧ c.tree = content

/-- The import has reported the content only. -/
def Right (content : τ) (i : Import τ) : Prop := Reports content i.branchCommits i.clone

variable {content : τ} {i : Import τ} {v : Visit τ} {w w' : Checkout τ}
  {branchCommits : List (String × Commit τ)}

/-! ## One branch -/

/-- A branch is checked out where it is in the clone. -/
theorem switchBranch_some (switched : i.switchBranch v = some w) :
    ∃ c, w = i.clone.moveTo v.branch c ∧
      ∀ d, i.clone.locals.lookup v.branch = some d → d = c := by
  unfold switchBranch at switched
  split at switched
  · contradiction
  · split at switched
    · rename_i c known
      obtain rfl := Option.some.inj switched
      refine ⟨c, rfl, fun d found => ?_⟩
      rw [known] at found
      exact (Option.some.inj found).symm
    · rename_i unknown
      obtain ⟨c, -, rfl⟩ := Option.map_eq_some_iff.mp switched
      refine ⟨c, rfl, fun d found => ?_⟩
      rw [unknown] at found
      contradiction

/-- Checking out a branch changes no content. -/
theorem switchBranch_reports (right : Right content i) (switched : i.switchBranch v = some w) :
    Reports content i.branchCommits w := by
  obtain ⟨c, rfl, same⟩ := switchBranch_some switched
  intro entry listed
  obtain ⟨tree, d, found, local_⟩ := right entry listed
  refine ⟨tree, d, ?_, local_⟩
  rw [Checkout.lookup_moveTo]
  split
  · rename_i own
    rw [same d (own ▸ found)]
  · exact found

/-- The checked out branch, and all others, stay where they are. -/
structure Kept (w w' : Checkout τ) : Prop where
  /-- No other branch is checked out. -/
  branch : w'.branch = w.branch
  /-- No other branch is moved. -/
  others : ∀ other, other ≠ w.branch → w'.locals.lookup other = w.locals.lookup other

omit [DecidableEq τ] in
/-- Changed files are not committed yet. -/
theorem kept_stage (index : τ) : Kept w (w.stage index) := ⟨rfl, fun _ _ => rfl⟩

omit [DecidableEq τ] in
/-- A commit moves the checked out branch only. -/
theorem kept_commit (index : τ) (stamp : Nat) : Kept w ((w.stage index).commit stamp) :=
  ⟨rfl, fun _ apart => Checkout.lookup_commit apart⟩

/-- The first import has the content, unless the commit fails. -/
theorem importSrpm_ok (imported : importSrpm content v w = .ok w') :
    Kept w w' ∧ v.faults.importSrpm = none ∧
      (w'.head.tree = content ↔ w.head.tree = content ∨ v.faults.commit = false) := by
  unfold importSrpm at imported
  split at imported
  · contradiction
  · rename_i fine
    obtain rfl := Except.ok.inj imported
    refine ⟨?_, fine, ?_⟩
    · split
      · exact kept_commit content v.stamp
      · exact kept_stage content
    · by_cases same : w.head.tree = content
      · simp [Checkout.dirty, same]
      · have dirty : (w.stage content).dirty = true := by
          simp [Checkout.dirty, Ne.symm same]
        cases failed : v.faults.commit with
        | true => simp [same]
        | false => simp [dirty]

/-- An import that raises an error moves nothing. -/
theorem importSrpm_error (raised : importSrpm content v w = .error w') :
    w'.locals = w.locals := by
  unfold importSrpm at raised
  split at raised
  · obtain rfl := Except.error.inj raised
    rfl
  · contradiction

/-- The content of a branch that is read has its content. -/
theorem readTree_ok {first : Commit τ} (read : readTree first v w = .ok w') :
    Kept w w' ∧ w'.head.tree = first.tree := by
  unfold readTree at read
  split at read
  · contradiction
  · dsimp only at read
    split at read
    · contradiction
    · split at read
      · split at read
        · obtain rfl := Except.ok.inj read
          exact ⟨kept_commit _ _, rfl⟩
        · contradiction
      · rename_i clean
        obtain rfl := Except.ok.inj read
        refine ⟨kept_stage _, ?_⟩
        have same : ¬ (w.stage first.tree).dirty = true ∧ ¬ v.faults.diff = true := by
          simpa using clean
        have equal : first.tree = w.head.tree := by
          by_contra other
          exact same.1 (decide_eq_true other)
        exact equal.symm

/-- Reading a branch moves nothing before the commit. -/
theorem readTree_error {first : Commit τ} (raised : readTree first v w = .error w') :
    w'.locals = w.locals := by
  unfold readTree at raised
  split at raised
  · obtain rfl := Except.error.inj raised
    rfl
  · dsimp only at raised
    split at raised
    · obtain rfl := Except.error.inj raised
      rfl
    · split at raised
      · split at raised
        · contradiction
        · obtain rfl := Except.error.inj raised
          rfl
      · contradiction

/-- A reported branch that can be merged has the content. -/
theorem mergeable_content (reports : Reports content branchCommits w) {c : Commit τ}
    (found : mergeable branchCommits w = some c) :
    c.tree = content ∧ (Commit.ffOnly w.head c).isSome := by
  obtain ⟨⟨name, reported⟩, listed, here⟩ := List.exists_of_findSome?_eq_some found
  obtain ⟨-, d, known, tree⟩ := reports _ listed
  dsimp only at here known
  rw [known, Option.filter_some] at here
  split at here
  · rename_i merges
    obtain rfl := Option.some.inj here
    exact ⟨tree, merges⟩
  · contradiction

/-- A synchronised branch has the content, unless it is ahead of a reported one. -/
theorem syncBranch_ok (reports : Reports content branchCommits w)
    (synced : syncBranch branchCommits v w = .ok w') :
    Kept w w' ∧ (w'.head.tree = content ↔
      w.head.tree = content ∨ aheadOfReported branchCommits w = false) := by
  unfold syncBranch at synced
  cases found : mergeable branchCommits w with
  | some c =>
    obtain ⟨tree, merges⟩ := mergeable_content reports found
    obtain ⟨d, merged⟩ := Option.isSome_iff_exists.mp merges
    rw [found, Option.bind_some, merged] at synced
    obtain rfl := Except.ok.inj synced
    refine ⟨⟨rfl, fun other apart => ?_⟩, ?_⟩
    · rw [Checkout.lookup_moveTo, if_neg apart]
    · rw [Checkout.moveTo_head, aheadOfReported, found, Option.any_some]
      rcases Commit.ffOnly_cases merged with ⟨below, rfl⟩ | ⟨above, rfl⟩
      · simp [below, tree]
      · simp [above]
  | none =>
    rw [found, Option.bind_none] at synced
    have apart : aheadOfReported branchCommits w = false := by
      rw [aheadOfReported, found]
      rfl
    dsimp only at synced
    split at synced
    · rename_i first known
      obtain ⟨entry, head, lookup⟩ := Option.bind_eq_some_iff.mp known
      obtain ⟨-, d, here, tree⟩ := reports entry (List.mem_of_mem_head? head)
      have same : d = first := Option.some.inj (here.symm.trans lookup)
      obtain ⟨kept, content'⟩ := readTree_ok synced
      refine ⟨kept, iff_of_true ?_ (Or.inr apart)⟩
      rw [content', ← same, tree]
    · contradiction

/-- A branch that cannot be synchronised is not moved. -/
theorem syncBranch_error (raised : syncBranch branchCommits v w = .error w') :
    w'.locals = w.locals := by
  unfold syncBranch at raised
  split at raised
  · contradiction
  · split at raised
    · exact readTree_error raised
    · obtain rfl := Except.error.inj raised
      rfl

/-- A branch that is filled has the content exactly if it is admitted. -/
theorem fill_ok (reports : Reports content i.branchCommits w)
    (filled : i.fill content v w = .ok w') :
    Kept w w' ∧ (w'.head.tree = content ↔
      (decide (w.head.tree = content) ||
        if i.branchCommits = [] then v.faults.importSrpm.isSome || !v.faults.commit
        else !aheadOfReported i.branchCommits w) = true) := by
  unfold fill at filled
  by_cases first : i.branchCommits = []
  · rw [if_pos first] at filled
    obtain ⟨kept, fine, tree⟩ := importSrpm_ok filled
    refine ⟨kept, ?_⟩
    rw [tree, if_pos first, fine]
    simp
  · rw [if_neg first] at filled
    obtain ⟨kept, tree⟩ := syncBranch_ok reports filled
    refine ⟨kept, ?_⟩
    rw [tree, if_neg first]
    simp

/-- A branch that is not filled is not moved. -/
theorem fill_error (raised : i.fill content v w = .error w') : w'.locals = w.locals := by
  unfold fill at raised
  split at raised
  · exact importSrpm_error raised
  · exact syncBranch_error raised

omit [DecidableEq τ] in
/-- Filling a branch keeps the content of the reported ones. -/
theorem fill_reports (reports : Reports content branchCommits w) (kept : Kept w w')
    (good : (∃ entry ∈ branchCommits, entry.1 = w.branch) → w'.head.tree = content) :
    Reports content branchCommits w' := by
  intro entry listed
  obtain ⟨tree, c, found, local_⟩ := reports entry listed
  refine ⟨tree, ?_⟩
  by_cases own : entry.1 = w.branch
  · refine ⟨w'.head, ?_, good ⟨entry, listed, own⟩⟩
    rw [own, ← kept.branch]
    exact w'.current
  · exact ⟨c, by rw [kept.others _ own, found], local_⟩

omit [DecidableEq τ] in
/-- A branch that is reported already has the content when it is checked out again. -/
theorem reported_content (reports : Reports content branchCommits w) :
    (∃ entry ∈ branchCommits, entry.1 = w.branch) → w.head.tree = content := by
  rintro ⟨entry, listed, own⟩
  obtain ⟨-, c, found, tree⟩ := reports entry listed
  rw [own, w.current] at found
  exact (Option.some.inj found) ▸ tree

/-- The next branch keeps the reports right exactly if it is admitted. -/
theorem visit_right (right : Right content i) :
    ((∀ entry ∈ (visit content i v).branchCommits, entry.2.tree = content) ↔
      i.admits content v = true) ∧
    (i.admits content v = true → Right content (visit content i v)) := by
  have before : ∀ entry ∈ i.branchCommits, entry.2.tree = content :=
    fun entry listed => (right entry listed).1
  unfold visit admits
  cases switched : i.switchBranch v with
  | none => exact ⟨iff_of_true before rfl, fun _ => right⟩
  | some w =>
    have reports := switchBranch_reports right switched
    obtain ⟨c, moved, -⟩ := switchBranch_some switched
    have branch : w.branch = v.branch := by
      rw [moved]
      rfl
    dsimp only
    cases filled : i.fill content v w with
    | error w' =>
      have unmoved := fill_error filled
      have kept : Reports content i.branchCommits w' := by
        intro entry listed
        rw [unmoved]
        exact reports entry listed
      refine ⟨iff_of_true before ?_, fun _ => kept⟩
      by_cases first : i.branchCommits = []
      · have raised : v.faults.importSrpm.isSome = true := by
          unfold fill at filled
          rw [if_pos first] at filled
          unfold importSrpm at filled
          split at filled
          · rename_i fault
            rw [fault]
            rfl
          · contradiction
        simp [first, raised]
      · have apart : aheadOfReported i.branchCommits w = false := by
          unfold fill at filled
          rw [if_neg first] at filled
          unfold syncBranch at filled
          unfold aheadOfReported
          cases found : mergeable i.branchCommits w with
          | none => rfl
          | some d =>
            obtain ⟨-, merges⟩ := mergeable_content reports found
            obtain ⟨e, merged⟩ := Option.isSome_iff_exists.mp merges
            rw [found, Option.bind_some, merged] at filled
            contradiction
        simp [first, apart]
    | ok w' =>
      obtain ⟨kept, tree⟩ := fill_ok reports filled
      by_cases pushed : v.faults.push = true
      · have good : (∃ entry ∈ i.branchCommits, entry.1 = w.branch) → w'.head.tree = content := by
          intro again
          rw [tree, reported_content reports again]
          simp
        simp only [pushed, if_true, Bool.true_or, iff_true]
        exact ⟨before, fun _ => fill_reports reports kept good⟩
      · have notPushed : v.faults.push = false := by simpa using pushed
        simp only [notPushed, Bool.false_eq_true, if_false, Bool.false_or]
        rw [← tree]
        constructor
        · constructor
          · intro all
            exact all (v.branch, w'.head) (mem_put.mpr (Or.inl ⟨rfl, rfl⟩))
          · rintro good ⟨name, d⟩ listed
            rcases mem_put.mp listed with ⟨-, rfl⟩ | ⟨-, old⟩
            · exact good
            · exact before _ old
        · rintro good ⟨name, d⟩ listed
          rcases mem_put.mp listed with ⟨rfl, rfl⟩ | ⟨other, old⟩
          · refine ⟨good, w'.head, ?_, good⟩
            rw [← branch, ← kept.branch]
            exact w'.current
          · obtain ⟨same, e, found, local_⟩ := reports _ old
            refine ⟨same, e, ?_, local_⟩
            rw [kept.others _ (by rw [branch]; exact other)]
            exact found

/-! ## A whole import -/

/-- Every branch of the list is admitted when its turn comes. -/
def admitsAll (content : τ) : Import τ → List (Visit τ) → Bool
  | _, [] => true
  | i, v :: rest => i.admits content v && admitsAll content (visit content i v) rest

omit [DecidableEq τ] in
/-- Nothing is reported at the start. -/
theorem start_right (origin : Origin τ) : Right content (start origin) := by
  intro entry listed
  simp [start] at listed

/-- Branches that are admitted keep the reports right. -/
theorem visits_right (right : Right content i) {visits : List (Visit τ)}
    (admitted : i.admitsAll content visits = true) :
    Right content (visits.foldl (visit content) i) := by
  induction visits generalizing i with
  | nil => exact right
  | cons v rest ih =>
    rw [admitsAll, Bool.and_eq_true] at admitted
    exact ih ((visit_right right).2 admitted.1) admitted.2

end Import

/-! ## Histories -/

/-- The repository of a package, and the answers so far: the imported content, and
`branch_commits`. -/
structure PackageRepository (τ : Type*) where
  /-- The repository. -/
  origin : Origin τ
  /-- The answers. -/
  answers : List (τ × List (String × Commit τ))

/-- What happens to it. -/
inductive RepositoryEvent (τ : Type*)
  /-- A branch is created. -/
  | mkbranch (branch : String)
  /-- `import_package`. -/
  | importPackage (content : τ) (visits : List (Visit τ))

namespace PackageRepository

variable (base : Origin τ → String → Commit τ)

/-- One event. -/
def step (s : PackageRepository τ) : RepositoryEvent τ → Option (PackageRepository τ)
  | .mkbranch branch => some { s with origin := s.origin.mkbranch base branch }
  | .importPackage content visits =>
    let (origin, branchCommits) := importPackage base s.origin content visits
    some ⟨origin, s.answers ++ [(content, branchCommits)]⟩

/-- Every branch of an import is admitted when its turn comes. -/
def admits (s : PackageRepository τ) : RepositoryEvent τ → Bool
  | .mkbranch _ => true
  | .importPackage content visits =>
    (Import.start (s.origin.setupGitRepo base (visits.map Visit.branch))).admitsAll content visits

/-- All reported commits have the imported content. -/
def ContentReported (s : PackageRepository τ) : Prop :=
  ∀ answer ∈ s.answers, ∀ entry ∈ answer.2, entry.2.tree = answer.1

/-- A chroot that an answer makes pending is built from a commit with the content of its build,
however commits are named. -/
def ContentBuilt (s : PackageRepository τ) : Prop :=
  ∀ answer ∈ s.answers, ∀ (hash : Commit τ → String) (b b' : Build),
    b.distGitUploadCompleted (answer.2.map fun entry => (entry.1, hash entry.2)) = some b' →
    ∀ c ∈ b'.buildChroots, c.status = .pending →
      ∃ commit : Commit τ, c.gitHash = some (hash commit) ∧ commit.tree = answer.1

/-- The import makes a chroot pending with the commit of its branch only. -/
theorem pending_of_import {branchCommits : List (String × String)} {b b' : Build}
    (completed : b.distGitUploadCompleted branchCommits = some b') {c : BuildChroot}
    (member : c ∈ b'.buildChroots) (pending : c.status = .pending) :
    ∃ entry ∈ branchCommits, c.gitHash = some entry.2 := by
  have chroots : b'.buildChroots = b.buildChroots.map (Build.importChroot branchCommits) := by
    unfold Build.distGitUploadCompleted at completed
    split at completed
    · split at completed
      · contradiction
      · obtain rfl := Option.some.inj completed
        rfl
    · obtain rfl := Option.some.inj completed
      rfl
  rw [chroots] at member
  obtain ⟨d, -, rfl⟩ := List.mem_map.mp member
  unfold Build.importChroot at pending ⊢
  cases found : branchCommits.lookup d.mockChroot.distgitBranchName with
  | none => simp [found] at pending
  | some gitHash =>
    simp only [found] at pending ⊢
    split at pending
    · rename_i skipped
      rw [skipped] at pending
      contradiction
    · rename_i other
      obtain ⟨before, after, whole, -⟩ := List.lookup_eq_some_iff.mp found
      refine ⟨(d.mockChroot.distgitBranchName, gitHash), ?_, by rw [if_neg other]⟩
      rw [whole]
      simp

omit [DecidableEq τ] in
/-- Chroots are built from the right sources where the reported commits have the content. -/
theorem ContentReported.built {s : PackageRepository τ} (reported : s.ContentReported) :
    s.ContentBuilt := by
  intro answer listed hash b b' completed c member pending
  obtain ⟨entry, inside, gitHash⟩ := pending_of_import completed member pending
  obtain ⟨pair, original, rfl⟩ := List.mem_map.mp inside
  exact ⟨pair.2, gitHash, reported answer listed pair original⟩

/-- An import that is admitted reports its content only. -/
theorem step_reported {s t : PackageRepository τ} {e : RepositoryEvent τ}
    (reported : s.ContentReported) (admitted : s.admits base e = true)
    (stepped : s.step base e = some t) : t.ContentReported := by
  cases e with
  | mkbranch branch =>
    obtain rfl := Option.some.inj stepped
    exact reported
  | importPackage content visits =>
    obtain rfl := Option.some.inj stepped
    intro answer listed
    rcases List.mem_append.mp listed with old | new
    · exact reported answer old
    · rw [List.mem_singleton.mp new]
      have right := Import.visits_right (Import.start_right _) admitted
      exact fun entry inside => (right entry inside).1

/-- In every history in which every branch of every import is admitted when its turn comes, all
reported commits have the imported content, and chroots are built from the content of their
build; and after branches that are admitted, the reports stay right with the next branch exactly
if it is admitted as well. -/
theorem content_imported {origin : Origin τ} {s : PackageRepository τ}
    (run : Run (step base) (fun s e => s.admits base e = true) ⟨origin, []⟩ s) :
    s.ContentReported ∧ s.ContentBuilt ∧
      ∀ (content : τ) (branches : List String) (before : List (Visit τ)) (v : Visit τ),
        (Import.start (s.origin.setupGitRepo base branches)).admitsAll content before = true →
        let i := before.foldl (Import.visit content)
          (Import.start (s.origin.setupGitRepo base branches))
        (∀ entry ∈ (Import.visit content i v).branchCommits, entry.2.tree = content) ↔
          i.admits content v = true := by
  have reported : s.ContentReported := by
    refine run_invariant ContentReported ?_ run (by simp [ContentReported])
    exact fun s e t reported admitted stepped => step_reported base reported admitted stepped
  refine ⟨reported, reported.built, fun content branches before v admitted => ?_⟩
  exact (Import.visit_right (Import.visits_right (Import.start_right _) admitted)).1

/-- A new repository. -/
def fresh : Origin Nat where
  refs := (∅ : Refs Nat).insert "master" (.root 0 0)
  main := "master"
  there := (AList.mem_insert _).mpr (Or.inl rfl)

/-- New branches start at the first commit. -/
def fromFirst (_ : Origin Nat) (_ : String) : Commit Nat := .root 0 0

/-- The contents that the answers name, with the contents that are reported. -/
def shown (s : PackageRepository Nat) : List (Nat × List (String × Nat)) :=
  s.answers.map fun answer => (answer.1, answer.2.map fun entry => (entry.1, entry.2.tree))

/-- Two versions are imported into two branches. -/
theorem content_imported_twice :
    ∃ s : PackageRepository Nat,
      s.shown = [(1, [("f20", 1), ("epel7", 1)]), (2, [("f20", 2), ("epel7", 2)])] ∧
        s.ContentReported := by
  obtain ⟨s, run, seen⟩ := exec_observe (step fromFirst) (admits fromFirst) ⟨fresh, []⟩
    [.importPackage 1 [⟨"f20", 1, {}⟩, ⟨"epel7", 2, {}⟩],
      .importPackage 2 [⟨"f20", 3, {}⟩, ⟨"epel7", 4, {}⟩]]
    shown [(1, [("f20", 1), ("epel7", 1)]), (2, [("f20", 2), ("epel7", 2)])] rfl
  exact ⟨s, seen, (content_imported fromFirst run).1⟩

/-- The first version is imported again, after the second one came into one of the branches
only. This branch is ahead of the other one, so there is nothing to merge, and the second
version is reported for it. -/
theorem older_version_kept : ¬ ∀ s : PackageRepository Nat,
    Run (step fromFirst) anyEvent ⟨fresh, []⟩ s → s.ContentReported := by
  intro claimed
  obtain ⟨s, run, seen⟩ := exec_observe (step fromFirst) (fun _ _ => true) ⟨fresh, []⟩
    [.importPackage 1 [⟨"f20", 1, {}⟩, ⟨"epel7", 2, {}⟩], .importPackage 2 [⟨"epel7", 3, {}⟩],
      .importPackage 1 [⟨"f20", 4, {}⟩, ⟨"epel7", 5, {}⟩]]
    shown [(1, [("f20", 1), ("epel7", 1)]), (2, [("epel7", 2)]), (1, [("f20", 1), ("epel7", 2)])]
    rfl
  have reported := claimed s (run_weaken (fun _ _ _ => trivial) run)
  have last : (1, [("f20", 1), ("epel7", 2)]) ∈ s.shown := by
    rw [seen]
    decide
  obtain ⟨answer, listed, same⟩ := List.mem_map.mp last
  obtain ⟨content, entries⟩ := Prod.mk.inj same
  have wrong : ("epel7", 2) ∈ answer.2.map fun entry => (entry.1, entry.2.tree) := by
    rw [entries]
    decide
  obtain ⟨entry, inside, shown⟩ := List.mem_map.mp wrong
  have tree := reported answer listed entry inside
  rw [(Prod.mk.inj shown).2, content] at tree
  contradiction

end PackageRepository

end Copr
