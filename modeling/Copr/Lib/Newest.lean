import Mathlib.Data.List.AList
import Mathlib.Data.List.Induction
import Mathlib.Data.Set.Insert

/-!
# Dictionaries that keep the newest entries

Entries have a key and a rank. They come in batches of one rank, in any order of ranks; an entry
that is outranked by the one under its key is left out, all others replace what is there. Under
each key is then an entry of the highest rank that has come for it.
-/

namespace Copr.Newest

variable {κ ρ ε : Type*} [DecidableEq κ] [LinearOrder ρ] (key : ε → κ) (rank : ε → ρ)

/-- Under each key is an entry of the highest rank among those that have come. -/
structure Keeps (come : Set ε) (dict : AList fun _ : κ => ε) : Prop where
  /-- What is there has come, and nothing newer. -/
  newest : ∀ k e, dict.lookup k = some e →
    e ∈ come ∧ key e = k ∧ ∀ d ∈ come, key d = k → rank d ≤ rank e
  /-- There is something for everything that has come. -/
  covers : ∀ e ∈ come, (dict.lookup (key e)).isSome = true

/-- The entry is outranked by the one under its key. -/
def outranked (dict : AList fun _ : κ => ε) (e : ε) : Bool :=
  (dict.lookup (key e)).any fun d => decide (rank e < rank d)

/-- A dictionary of a batch; of several entries under one key the last one stays. -/
def batch (entries : List ε) : AList fun _ : κ => ε :=
  entries.foldl (fun dict e => dict.insert (key e) e) ∅

/-- What is left of a batch replaces what is there. -/
def put (dict : AList fun _ : κ => ε) (entries : List ε) : AList fun _ : κ => ε :=
  batch key entries ∪ dict

variable {key rank} {come : Set ε} {dict : AList fun _ : κ => ε} {entries : List ε} {e : ε}
  {k : κ}

/-- Nothing has come to the empty dictionary. -/
theorem keeps_empty : Keeps key rank ∅ (∅ : AList fun _ : κ => ε) where
  newest k e found := by simp at found
  covers e member := absurd member (Set.notMem_empty e)

/-- What is in the dictionary of a batch is from the batch. -/
theorem mem_of_lookup_batch (found : (batch key entries).lookup k = some e) :
    e ∈ entries ∧ key e = k := by
  induction entries using List.reverseRecOn with
  | nil => simp [batch] at found
  | append_singleton entries last ih =>
    rw [batch, List.foldl_append] at found
    by_cases same : k = key last
    · subst same
      rw [List.foldl_cons, List.foldl_nil, AList.lookup_insert] at found
      obtain rfl := Option.some.inj found
      exact ⟨List.mem_append_right _ (List.mem_singleton_self _), rfl⟩
    · rw [List.foldl_cons, List.foldl_nil, AList.lookup_insert_ne same] at found
      have before := ih found
      exact ⟨List.mem_append_left _ before.1, before.2⟩

/-- There is something for everything from the batch. -/
theorem lookup_batch_isSome (member : e ∈ entries) :
    ((batch key entries).lookup (key e)).isSome = true := by
  induction entries using List.reverseRecOn with
  | nil => contradiction
  | append_singleton entries last ih =>
    rw [batch, List.foldl_append, List.foldl_cons, List.foldl_nil]
    by_cases same : key e = key last
    · rw [same, AList.lookup_insert]
      rfl
    · rw [AList.lookup_insert_ne same]
      rcases List.mem_append.mp member with before | new
      · exact ih before
      · exact absurd (congrArg key (List.mem_singleton.mp new)) same

/-- Entries are looked up before the dictionary that they are put into. -/
theorem lookup_put : (put key dict entries).lookup k =
    ((batch key entries).lookup k).or (dict.lookup k) := by
  unfold put
  by_cases there : k ∈ batch key entries
  · rw [AList.lookup_union_left there]
    obtain ⟨e, found⟩ := Option.isSome_iff_exists.mp (AList.lookup_isSome.mpr there)
    rw [found]
    rfl
  · rw [AList.lookup_union_right there, AList.lookup_eq_none.mpr there]
    rfl

/-- Nothing is forgotten when what is not outranked in a batch of one rank is put. -/
theorem Keeps.put (keeps : Keeps key rank come dict) {r : ρ} (one : ∀ e ∈ entries, rank e = r)
    {left : List ε} (chosen : ∀ e, e ∈ left ↔ e ∈ entries ∧ outranked key rank dict e = false) :
    Keeps key rank (come ∪ {e | e ∈ entries}) (Newest.put key dict left) := by
  constructor
  · intro k e found
    rw [lookup_put] at found
    cases new : (batch key left).lookup k with
    | some d =>
      rw [new, Option.some_or] at found
      obtain rfl := Option.some.inj found
      obtain ⟨member, rfl⟩ := mem_of_lookup_batch new
      obtain ⟨inside, passes⟩ := (chosen d).mp member
      refine ⟨Or.inr inside, rfl, fun other either same => ?_⟩
      rcases either with before | now
      · obtain ⟨there, held⟩ := Option.isSome_iff_exists.mp (keeps.covers other before)
        rw [same] at held
        have least := (keeps.newest _ _ held).2.2 other before same
        have low : ¬ rank d < rank there := by simpa [outranked, held] using passes
        exact least.trans (not_lt.mp low)
      · rw [one other now, one d inside]
    | none =>
      rw [new, Option.none_or] at found
      obtain ⟨before, same, least⟩ := keeps.newest k e found
      refine ⟨Or.inl before, same, fun other either own => ?_⟩
      rcases either with old | now
      · exact least other old own
      · by_contra high
        have passes : outranked key rank dict other = false := by
          rw [outranked, own, found]
          exact decide_eq_false (not_lt.mpr (not_le.mp high).le)
        have there := @lookup_batch_isSome _ _ _ key _ _ ((chosen other).mpr ⟨now, passes⟩)
        rw [own, new] at there
        contradiction
  · intro e either
    rw [lookup_put]
    rcases either with before | now
    · obtain ⟨d, found⟩ := Option.isSome_iff_exists.mp (keeps.covers e before)
      rw [found]
      cases (batch key left).lookup (key e) <;> rfl
    · by_cases passes : outranked key rank dict e = false
      · obtain ⟨d, found⟩ := Option.isSome_iff_exists.mp
          (@lookup_batch_isSome _ _ _ key _ _ ((chosen e).mpr ⟨now, passes⟩))
        rw [found]
        rfl
      · rw [Bool.not_eq_false, outranked, Option.any_eq_true] at passes
        obtain ⟨d, found, -⟩ := passes
        rw [found]
        cases (batch key left).lookup (key e) <;> rfl

end Copr.Newest
