import Copr.Frontend.GraphData
import Mathlib.Data.Int.Interval
import Mathlib.Data.List.Sort

/-!
# Graphs from the cache

From the newest interval with which any graph of a kind has started, the cached intervals are
without a gap, whatever the requests do. So a request that reads the rows with its parameters still
valid gets each value for the time below which it stands.
-/

namespace Copr.GraphData

variable {α : Type}

/-! ## Rows -/

section Rows

variable {rows : List (Row α)} {row : Row α} {type : StatType} {time : Int} {value : α}

/-- The interval with a number has a row of the kind. -/
def Filled (rows : List (Row α)) (type : StatType) (b : Int) : Prop :=
  ∃ row ∈ rows, row.statType = type ∧ row.time = type.step * b

/-- No two rows have one key. -/
def Distinct (rows : List (Row α)) : Prop :=
  rows.Pairwise fun a b => ¬ (a.statType = b.statType ∧ a.time = b.time)

/-- A row that is there stays when another one is stored. -/
theorem mem_cacheGraphData (member : row ∈ rows) : row ∈ cacheGraphData rows type time value := by
  unfold cacheGraphData
  split
  · exact member
  · exact List.mem_append_left _ member

/-- A row that is there after one was stored was there before or is the new one. -/
theorem of_mem_cacheGraphData (member : row ∈ cacheGraphData rows type time value) :
    row ∈ rows ∨ row = ⟨type, time, value⟩ := by
  unfold cacheGraphData at member
  split at member
  · exact Or.inl member
  · exact (List.mem_append.mp member).imp_right List.mem_singleton.mp

/-- A key has a row after one was stored for it. -/
theorem key_cacheGraphData (rows : List (Row α)) (type : StatType) (time : Int) (value : α) :
    ∃ row ∈ cacheGraphData rows type time value, row.statType = type ∧ row.time = time := by
  unfold cacheGraphData
  split
  · rename_i there
    obtain ⟨row, member, same⟩ := List.any_eq_true.mp there
    rw [Bool.and_eq_true, beq_iff_eq, beq_iff_eq] at same
    exact ⟨row, member, same⟩
  · exact ⟨_, List.mem_append_right _ (List.mem_singleton_self _), rfl, rfl⟩

/-- No two rows have one key after another one was stored. -/
theorem Distinct.cache (distinct : Distinct rows) :
    Distinct (cacheGraphData rows type time value) := by
  unfold cacheGraphData
  split
  · exact distinct
  · rename_i none
    refine List.pairwise_append.mpr ⟨distinct, List.pairwise_singleton _ _, ?_⟩
    intro a member b new same
    rw [List.mem_singleton.mp new] at same
    refine none (List.any_eq_true.mpr ⟨a, member, ?_⟩)
    rw [Bool.and_eq_true, beq_iff_eq, beq_iff_eq]
    exact same

/-- An interval has a row after one was stored if it had one before or the new one is its own. -/
theorem filled_cache (type t : StatType) (n b : Int) (value : α) :
    Filled (cacheGraphData rows t (t.step * n) value) type b ↔
      Filled rows type b ∨ type = t ∧ b = n := by
  constructor
  · rintro ⟨row, member, kind, time⟩
    rcases of_mem_cacheGraphData member with before | rfl
    · exact Or.inl ⟨row, before, kind, time⟩
    · obtain rfl : t = type := kind
      exact Or.inr ⟨rfl, (Int.eq_of_mul_eq_mul_left (StatType.step_pos t).ne' time).symm⟩
  · rintro (⟨row, member, kind, time⟩ | ⟨rfl, rfl⟩)
    · exact ⟨row, mem_cacheGraphData member, kind, time⟩
    · exact key_cacheGraphData rows type _ value

end Rows

/-! ## The tables -/

/-- The part of the graph that is there while a request fills it. -/
def Pc.data : Pc α → Option (List α)
  | .filling data | .storing data _ => some data
  | _ => none

/-- What is true of a request at any time. -/
structure Fits (computed : List (Row α)) (r : Request α) : Prop where
  /-- What is to be stored was computed for an interval of the graph. -/
  pending : ∀ data value, r.pc = .storing data value →
    ⟨r.type, r.type.step * (r.first + data.length), value⟩ ∈ computed ∧
      data.length < r.type.steps
  /-- There is one value more at most than there are steps. -/
  short : ∀ data, r.pc.data = some data → data.length ≤ r.type.steps + 1
  /-- A graph that is returned has a value for every step. -/
  complete : ∀ data, r.pc = .answered data →
    r.type.steps ≤ data.length ∧ data.length ≤ r.type.steps + 1

/-- What is true of the table at any time. -/
structure Sound (s : Frontend α) : Prop where
  /-- No two rows have one key. -/
  distinct : Distinct s.rows
  /-- A row is for an interval that is over. -/
  elapsed : ∀ row ∈ s.rows, ∃ b : Int, row.time = row.statType.step * b ∧
    row.statType.step * (b + 1) ≤ s.clock
  /-- A row was computed. -/
  computed : ∀ row ∈ s.rows, row ∈ s.computed
  /-- What is true of the requests. -/
  fits : ∀ r ∈ s.requests, Fits s.computed r
  /-- A request began before. -/
  begun : ∀ r ∈ s.requests, r.now ≤ s.clock

/-- A graph of the kind has started with the interval. -/
def Starts (s : Frontend α) (type : StatType) (b : Int) : Prop :=
  ∃ r ∈ s.requests, r.type = type ∧ r.first = b

/-- From the newest interval on with which a graph of the kind has started, so many intervals have
their rows and no others. -/
structure Steady (s : Frontend α) (type : StatType) (w : Int) (k : Nat) : Prop where
  /-- No graph starts later. -/
  begun : ∀ r ∈ s.requests, r.type = type → r.first ≤ w
  /-- Once there is a graph, one starts there. -/
  newest : ∀ b, Starts s type b → Starts s type w
  /-- The intervals are no more than a graph has. -/
  room : k ≤ type.steps
  /-- All intervals of such a graph are over. -/
  past : type.step * (w + type.steps) ≤ s.clock
  /-- The intervals with their rows. -/
  full : ∀ b, w ≤ b → (Filled s.rows type b ↔ b < w + k)
  /-- No request is ahead of them. -/
  behind : ∀ r ∈ s.requests, r.type = type → ∀ data, r.pc.data = some data →
    r.first + data.length ≤ w + k

section Steps

variable {s : Frontend α} {type : StatType} {w : Int} {k i : Nat} {r : Request α} {pc : Pc α}

/-- The intervals of a graph are over when it starts. -/
theorem interval_over {n : Nat} (bound : n < r.type.steps) :
    (r.type.step : Int) * (r.first + n + 1) ≤ r.now := by
  have whole := first_le r
  have less : r.first + n + 1 ≤ r.first + r.type.steps := by omega
  exact (Int.mul_le_mul_of_nonneg_left less (StatType.step_pos r.type).le).trans whole

variable (pc) in
/-- The starts are the same when a request moves. -/
theorem starts_set {t : Frontend α} (there : s.requests[i]? = some r)
    (moved : t.requests = s.requests.set i { r with pc := pc }) (b : Int) :
    Starts t type b ↔ Starts s type b := by
  unfold Starts
  rw [moved]
  constructor
  · rintro ⟨q, member, start⟩
    rcases List.mem_or_eq_of_mem_set member with before | new
    · exact ⟨q, before, start⟩
    · rw [new] at start
      exact ⟨r, List.mem_of_getElem? there, start⟩
  · rintro ⟨q, member, start⟩
    have ⟨j, bound, same⟩ := List.getElem_of_mem member
    have longer : j < (s.requests.set i { r with pc := pc }).length := by
      rw [List.length_set]
      exact bound
    refine ⟨_, List.getElem_mem longer, ?_⟩
    rw [List.getElem_set]
    split
    · rename_i here
      have own : r = q := by
        rw [here, List.getElem?_eq_getElem bound, same] at there
        exact (Option.some.inj there).symm
      rw [← own] at start
      exact start
    · rw [same]
      exact start

/-- What is true of the table stays true when a request moves to a place that fits. -/
theorem Sound.goto (sound : Sound s) (there : s.requests[i]? = some r)
    (fits : Fits s.computed { r with pc := pc }) : Sound (s.goto i r pc) where
  distinct := sound.distinct
  elapsed := sound.elapsed
  computed := sound.computed
  fits := by
    intro q member
    rcases List.mem_or_eq_of_mem_set member with before | rfl
    · exact sound.fits q before
    · exact fits
  begun := by
    intro q member
    rcases List.mem_or_eq_of_mem_set member with before | rfl
    · exact sound.begun q before
    · exact sound.begun r (List.mem_of_getElem? there)

/-- The intervals with their rows stay when a request moves to a place that is not ahead of them. -/
theorem Steady.goto (steady : Steady s type w k) (there : s.requests[i]? = some r)
    (behind : r.type = type → ∀ data, pc.data = some data → r.first + data.length ≤ w + k) :
    Steady (s.goto i r pc) type w k where
  begun := by
    intro q member
    rcases List.mem_or_eq_of_mem_set member with before | rfl
    · exact steady.begun q before
    · exact steady.begun r (List.mem_of_getElem? there)
  newest b start := by
    rw [starts_set _ there rfl] at start ⊢
    exact steady.newest b start
  room := steady.room
  past := steady.past
  full := steady.full
  behind := by
    intro q member kind data at_q
    rcases List.mem_or_eq_of_mem_set member with before | rfl
    · exact steady.behind q before kind data at_q
    · exact behind kind data at_q

/-- When a graph is asked for, the intervals with rows are without a gap from its start on, which
no earlier one is behind. -/
theorem Steady.ask (steady : Steady s type w k) :
    ∃ k, Steady (s.step (.ask type)) type (Request.first ⟨type, s.clock, (.started : Pc α)⟩) k := by
  let r : Request α := ⟨type, s.clock, .started⟩
  have positive := StatType.step_pos type
  have later : w ≤ r.first := by
    have whole : w + type.steps ≤ s.clock / type.step :=
      (Int.le_ediv_iff_mul_le positive).mpr (by rw [Int.mul_comm]; exact steady.past)
    have same : r.first = s.clock / type.step - type.steps := rfl
    omega
  have full (b : Int) (reached : r.first ≤ b) :
      Filled s.rows type b ↔ b < r.first + ((w + k - r.first).toNat : Nat) := by
    rw [steady.full b (later.trans reached)]
    omega
  have here : r ∈ (s.step (.ask type)).requests :=
    List.mem_append_right _ (List.mem_singleton_self r)
  have few := steady.room
  refine ⟨(w + k - r.first).toNat, ?_, fun _ _ => ⟨r, here, rfl, rfl⟩, by omega, first_le r, full,
    ?_⟩
  · intro q member kind
    rcases List.mem_append.mp member with before | new
    · exact (steady.begun q before kind).trans later
    · rw [List.mem_singleton.mp new]
  · intro q member kind data at_q
    rcases List.mem_append.mp member with before | new
    · have ahead := steady.behind q before kind data at_q
      change q.first + data.length ≤ r.first + _
      omega
    · rw [List.mem_singleton.mp new] at at_q
      cases at_q

/-- After a row was stored, one interval more has its row at most: the next one. -/
theorem Steady.store {data : List α} {value : α} (steady : Steady s type w k)
    (there : s.requests[i]? = some ⟨r.type, r.now, .storing data value⟩)
    (bound : data.length < r.type.steps) :
    ∃ k, Steady (({ s with
      rows := cacheGraphData s.rows r.type (r.type.step * (r.first + data.length)) value } :
        Frontend α).goto i r (.filling (data ++ [value]))) type w k := by
  have member := List.mem_of_getElem? there
  have begun := steady.begun ⟨r.type, r.now, .storing data value⟩ member
  have longer : ((data ++ [value]).length : Int) = data.length + 1 := by simp
  have newest : ∀ b, Starts (({ s with
      rows := cacheGraphData s.rows r.type (r.type.step * (r.first + data.length)) value } :
        Frontend α).goto i r (.filling (data ++ [value]))) type b → Starts (({ s with
      rows := cacheGraphData s.rows r.type (r.type.step * (r.first + data.length)) value } :
        Frontend α).goto i r (.filling (data ++ [value]))) type w := by
    intro b start
    rw [starts_set (.filling (data ++ [value])) there rfl] at start ⊢
    exact steady.newest b start
  by_cases kind : r.type = type
  · subst kind
    have ahead : r.first + data.length ≤ w + k :=
      steady.behind _ member rfl data rfl
    -- the new row is the next one or one that is there or does not matter any more
    have few := steady.room
    have start : r.first ≤ w := begun rfl
    refine ⟨if r.first + data.length = w + k then k + 1 else k, ?_, newest, ?_, steady.past, ?_,
      ?_⟩
    · intro q place
      rcases List.mem_or_eq_of_mem_set place with before | rfl
      · exact steady.begun q before
      · exact begun
    · split <;> omega
    · intro b reached
      change Filled (cacheGraphData s.rows r.type _ value) r.type b ↔ _
      rw [filled_cache, steady.full b reached, and_iff_right rfl]
      split <;> omega
    · intro q place same old at_q
      rcases List.mem_or_eq_of_mem_set place with before | rfl
      · have less := steady.behind q before same old at_q
        split <;> omega
      · obtain rfl : data ++ [value] = old := Option.some.inj at_q
        change r.first + _ ≤ _
        split <;> omega
  · refine ⟨k, ?_, newest, steady.room, steady.past, ?_, ?_⟩
    · intro q place
      rcases List.mem_or_eq_of_mem_set place with before | rfl
      · exact steady.begun q before
      · exact begun
    · intro b reached
      change Filled (cacheGraphData s.rows r.type _ value) type b ↔ _
      rw [filled_cache, steady.full b reached]
      exact or_iff_left fun no => kind no.1.symm
    · intro q place same old at_q
      rcases List.mem_or_eq_of_mem_set place with before | rfl
      · exact steady.behind q before same old at_q
      · exact absurd same kind

end Steps

/-! ## Reading -/

section Reading

variable {s : Frontend α} {r : Request α} {row : Row α} {k : Nat} {w : Int}

/-- The rows of the kind between the first and the last time are read. -/
theorem mem_cachedRows {rows : List (Row α)} {params : Params} :
    row ∈ cachedRows rows params ↔ row ∈ rows ∧ row.statType = params.type ∧
      params.start ≤ row.time ∧ row.time ≤ params.finish := by
  unfold cachedRows
  rw [List.mem_mergeSort, List.mem_filter, Bool.and_eq_true, Bool.and_eq_true, beq_iff_eq,
    decide_eq_true_eq, decide_eq_true_eq, and_assoc]

/-- The rows are read in the order of their times. -/
theorem sorted_cachedRows {rows : List (Row α)} {params : Params} (distinct : Distinct rows) :
    (cachedRows rows params).Pairwise fun a b => a.time < b.time := by
  have ascending : (cachedRows rows params).Pairwise fun a b => decide (a.time ≤ b.time) = true :=
    List.pairwise_mergeSort
      (fun a b c left right => by
        rw [decide_eq_true_eq] at left right ⊢
        exact left.trans right)
      (fun a b => by
        rw [Bool.or_eq_true, decide_eq_true_eq, decide_eq_true_eq]
        exact Int.le_total _ _) _
  have keys : Distinct (cachedRows rows params) := by
    refine (List.Perm.pairwise_iff ?_ (List.mergeSort_perm _ _)).mpr (distinct.sublist ?_)
    · exact fun different same => different ⟨same.1.symm, same.2.symm⟩
    · exact List.filter_sublist
  refine (ascending.and keys).imp_of_mem fun {a b} left right both => ?_
  have less := of_decide_eq_true both.1
  have differ : a.time ≠ b.time := fun same => both.2
    ⟨(mem_cachedRows.mp left).2.1.trans (mem_cachedRows.mp right).2.1.symm, same⟩
  omega

/-- Ascending numbers between two bounds are no more than these are apart. -/
theorem length_le_of_between {l : List Int} {a c : Int} (ordered : a ≤ c)
    (sorted : l.Pairwise (· < ·)) (inside : ∀ b ∈ l, a ≤ b ∧ b < c) : (l.length : Int) ≤ c - a := by
  have nodup : l.Nodup := sorted.imp fun less => less.ne
  have within : l.toFinset ⊆ Finset.Ico a c := by
    intro b member
    rw [List.mem_toFinset] at member
    exact Finset.mem_Ico.mpr (inside b member)
  have counted := Finset.card_le_card within
  rw [List.toFinset_card_of_nodup nodup, Int.card_Ico] at counted
  omega

/-- The time of a row is where an interval begins. -/
theorem interval_of_row (sound : Sound s) (member : row ∈ s.rows) :
    row.time = row.statType.step * (row.time / row.statType.step) := by
  obtain ⟨b, time, _⟩ := sound.elapsed row member
  have positive := StatType.step_pos row.statType
  rw [time, Int.mul_ediv_cancel_left _ positive.ne']

/-- Where all rows that are read lie before an interval, they do not reach it. -/
theorem length_cachedRows {c : Int} (sound : Sound s) (ordered : r.first ≤ c)
    (inside : ∀ row ∈ cachedRows s.rows r.params, row.time < r.type.step * c) :
    r.first + (getCachedGraphData s.rows r.params).length ≤ c := by
  let number (row : Row α) : Int := row.time / r.type.step
  have positive := StatType.step_pos r.type
  have time (row : Row α) (member : row ∈ cachedRows s.rows r.params) :
      row.time = r.type.step * number row := by
    have ⟨there, kind, _⟩ := mem_cachedRows.mp member
    have whole := interval_of_row sound there
    have same : row.statType = r.type := kind
    rw [same] at whole
    exact whole
  have sorted : ((cachedRows s.rows r.params).map number).Pairwise (· < ·) := by
    rw [List.pairwise_map]
    refine (sorted_cachedRows sound.distinct).imp_of_mem fun {a b} left right less => ?_
    rw [time a left, time b right] at less
    exact Int.lt_of_mul_lt_mul_left less positive.le
  have counted := length_le_of_between (l := (cachedRows s.rows r.params).map number) ordered sorted
    (by
      intro b member
      obtain ⟨row, there, rfl⟩ := List.mem_map.mp member
      have above := (mem_cachedRows.mp there).2.2.1
      have below := inside row there
      rw [start_eq, time row there] at above
      rw [time row there] at below
      exact ⟨Int.le_of_mul_le_mul_left above positive, Int.lt_of_mul_lt_mul_left below positive.le⟩)
  rw [List.length_map] at counted
  unfold getCachedGraphData
  rw [List.length_map]
  omega

/-- A request reads no more than the rows of the intervals up to the newest. -/
theorem length_loaded (sound : Sound s) (steady : Steady s r.type w k) (begun : r.first ≤ w) :
    r.first + (getCachedGraphData s.rows r.params).length ≤ w + k := by
  refine length_cachedRows sound (by omega) fun row member => ?_
  have ⟨there, kind, _⟩ := mem_cachedRows.mp member
  have same : row.statType = r.type := kind
  have whole := interval_of_row sound there
  rw [same] at whole
  have less : row.time / r.type.step < w + k := by
    by_cases old : row.time / r.type.step < w
    · omega
    · exact (steady.full _ (not_lt.mp old)).mp ⟨row, there, same, whole⟩
  rw [whole]
  exact Int.mul_lt_mul_of_pos_left less (StatType.step_pos r.type)

/-- A request reads one row more at most than its graph has steps. -/
theorem length_loaded_le (sound : Sound s) :
    (getCachedGraphData s.rows r.params).length ≤ r.type.steps + 1 := by
  have counted := length_cachedRows (r := r) (c := r.first + r.type.steps + 1) sound (by omega)
    fun row member => by
      have below := (mem_cachedRows.mp member).2.2.2
      rw [finish_eq] at below
      exact below.trans_lt (Int.mul_lt_mul_of_pos_left (by omega) (StatType.step_pos r.type))
  omega

/-- Where no graph has started later, the rows are the first intervals of the graph, one after the
other. -/
theorem cached_exact (sound : Sound s) (steady : Steady s r.type r.first k) :
    (getCachedGraphData s.rows r.params).length ≤ r.type.steps ∧
      ∀ (j : Nat) value, (getCachedGraphData s.rows r.params)[j]? = some value →
        ⟨r.type, r.type.step * (r.first + j), value⟩ ∈ s.rows := by
  have positive := StatType.step_pos r.type
  have few := steady.room
  have times : (cachedRows s.rows r.params).map Row.time =
      (List.range k).map fun j : Nat => r.type.step * (r.first + j) := by
    refine List.Pairwise.eq_of_mem_iff (r := (· < ·)) ?_ ?_ fun time => ?_
    · rw [List.pairwise_map]
      exact sorted_cachedRows sound.distinct
    · rw [List.pairwise_map]
      refine List.pairwise_lt_range.imp fun less => ?_
      exact Int.mul_lt_mul_of_pos_left (by omega) positive
    · rw [List.mem_map, List.mem_map]
      constructor
      · rintro ⟨row, member, rfl⟩
        have ⟨there, kind, above, _⟩ := mem_cachedRows.mp member
        have same : row.statType = r.type := kind
        have whole := interval_of_row sound there
        rw [same] at whole
        rw [start_eq, whole] at above
        have reached : r.first ≤ row.time / r.type.step := Int.le_of_mul_le_mul_left above positive
        have less := (steady.full _ reached).mp ⟨row, there, same, whole⟩
        refine ⟨(row.time / r.type.step - r.first).toNat, List.mem_range.mpr (by omega), ?_⟩
        have number : r.first + ((row.time / r.type.step - r.first).toNat : Nat) =
            row.time / r.type.step := by omega
        rw [number]
        exact whole.symm
      · rintro ⟨j, member, rfl⟩
        have bound := List.mem_range.mp member
        obtain ⟨row, there, kind, time⟩ :=
          (steady.full (r.first + j) (by omega)).mpr (by omega)
        refine ⟨row, mem_cachedRows.mpr ⟨there, kind, ?_, ?_⟩, time⟩
        · rw [start_eq, time]
          exact Int.mul_le_mul_of_nonneg_left (by omega) positive.le
        · rw [finish_eq, time]
          exact Int.mul_le_mul_of_nonneg_left (by omega) positive.le
  have length : (cachedRows s.rows r.params).length = k := by
    have counted := congrArg List.length times
    rw [List.length_map, List.length_map, List.length_range] at counted
    exact counted
  unfold getCachedGraphData
  rw [List.length_map, length]
  refine ⟨few, fun j value at_j => ?_⟩
  rw [List.getElem?_map, Option.map_eq_some_iff] at at_j
  obtain ⟨row, listed, rfl⟩ := at_j
  have bound : j < k := by
    rw [← length]
    exact (List.getElem?_eq_some_iff.mp listed).1
  have time : row.time = r.type.step * (r.first + j) := by
    have same := congrArg (fun l => l[j]?) times
    simpa [listed, bound] using same
  have ⟨there, kind, _⟩ := mem_cachedRows.mp (List.mem_of_getElem? listed)
  have same : row.statType = r.type := kind
  rw [← time, ← same]
  exact there

end Reading

/-! ## Runs -/

section Runs

open Frontend

variable {s : Frontend α} {r : Request α} {type : StatType} {i : Nat}

/-- What is true of requests is true of one that has just begun. -/
theorem fits_started (computed : List (Row α)) (type : StatType) (now : Int) :
    Fits computed ⟨type, now, .started⟩ where
  pending _ _ no := by cases no
  short _ no := by cases no
  complete _ no := by cases no

/-- What is true of requests is true of one whose process has died. -/
theorem fits_dead (computed : List (Row α)) : Fits computed { r with pc := .dead } where
  pending _ _ no := by cases no
  short _ no := by cases no
  complete _ no := by cases no

/-- What is true of a request stays true when more was computed. -/
theorem Fits.more {computed more : List (Row α)} (fits : Fits computed r)
    (grown : computed ⊆ more) : Fits more r where
  pending data value at_r := (fits.pending data value at_r).imp_left fun member => grown member
  short := fits.short
  complete := fits.complete

/-- What is true of requests is true of one that fills its graph and has not too many values. -/
theorem fits_filling {computed : List (Row α)} {data : List α}
    (short : data.length ≤ r.type.steps + 1) : Fits computed { r with pc := .filling data } where
  pending _ _ no := by cases no
  short old same := by
    obtain rfl : data = old := Option.some.inj same
    exact short
  complete _ no := by cases no

/-- What is true of the table stays true when a value is computed. -/
theorem Sound.compute (sound : Sound s) (row : Row α) :
    Sound { s with computed := row :: s.computed } where
  distinct := sound.distinct
  elapsed := sound.elapsed
  computed row member := List.mem_cons_of_mem _ (sound.computed row member)
  fits q member := (sound.fits q member).more (List.subset_cons_self _ _)
  begun := sound.begun

/-- The intervals with their rows stay when a value is computed. -/
theorem Steady.compute {w : Int} {k : Nat} (steady : Steady s type w k) (row : Row α) :
    Steady { s with computed := row :: s.computed } type w k :=
  ⟨steady.begun, steady.newest, steady.room, steady.past, steady.full, steady.behind⟩

/-- What is true of the table stays true when a value is stored that was computed for an interval
that is over. -/
theorem Sound.cache {n : Int} {value : α} (sound : Sound s)
    (computed : ⟨type, type.step * n, value⟩ ∈ s.computed)
    (past : type.step * (n + 1) ≤ s.clock) :
    Sound { s with rows := cacheGraphData s.rows type (type.step * n) value } where
  distinct := sound.distinct.cache
  elapsed row member := by
    rcases of_mem_cacheGraphData member with before | rfl
    · exact sound.elapsed row before
    · exact ⟨n, rfl, past⟩
  computed row member := by
    rcases of_mem_cacheGraphData member with before | rfl
    · exact sound.computed row before
    · exact computed
  fits := sound.fits
  begun := sound.begun

/-- What is true of the table stays true with every step of a request. -/
theorem progress_sound (sound : Sound s) (there : s.requests[i]? = some r) (event : Event α) :
    Sound (s.progress i r event) := by
  obtain ⟨kind, now, pc⟩ := r
  have member := List.mem_of_getElem? there
  cases event with
  | tick seconds => exact sound
  | ask type => exact sound
  | load j =>
    cases pc with
    | started => exact sound.goto there (fits_filling (length_loaded_le sound))
    | _ => exact sound
  | compute j value =>
    cases pc with
    | filling data =>
      simp only [progress]
      split
      · rename_i room
        refine (sound.compute _).goto there ⟨?_, ?_, ?_⟩
        · intro old new same
          cases same
          refine ⟨?_, room⟩
          rw [stepStart_eq]
          exact List.mem_cons_self
        · intro old same
          obtain rfl : data = old := Option.some.inj same
          exact (sound.fits _ member).short data rfl
        · intro _ no
          cases no
      · exact sound
    | _ => exact sound
  | store j =>
    cases pc with
    | storing data value =>
      have ⟨computed, room⟩ := (sound.fits _ member).pending data value rfl
      have past := (interval_over room).trans (sound.begun _ member)
      simp only [progress]
      rw [stepStart_eq]
      refine (sound.cache computed past).goto there (fits_filling ?_)
      rw [List.length_append, List.length_singleton]
      have most : data.length < kind.steps := room
      change data.length + 1 ≤ kind.steps + 1
      omega
    | _ => exact sound
  | answer j =>
    cases pc with
    | filling data =>
      simp only [progress]
      split
      · exact sound
      · rename_i done
        refine sound.goto there ⟨?_, ?_, ?_⟩
        · intro _ _ no
          cases no
        · intro _ no
          cases no
        · intro old same
          cases same
          exact ⟨not_lt.mp done, (sound.fits _ member).short data rfl⟩
    | _ => exact sound
  | die j =>
    cases pc with
    | answered data => exact sound
    | started => exact sound.goto there (fits_dead _)
    | filling data => exact sound.goto there (fits_dead _)
    | storing data value => exact sound.goto there (fits_dead _)
    | dead => exact sound.goto there (fits_dead _)

/-- What is true of the table stays true with every event. -/
theorem step_sound (sound : Sound s) (event : Event α) : Sound (s.step event) := by
  have goes (i : Nat) : Sound ((s.requests[i]?).elim s fun r => s.progress i r event) := by
    cases there : s.requests[i]? with
    | none => exact sound
    | some r => exact progress_sound sound there event
  cases event with
  | tick seconds =>
    have later : s.clock ≤ s.clock + seconds := by omega
    exact
      { distinct := sound.distinct
        elapsed := fun row member => by
          obtain ⟨b, time, past⟩ := sound.elapsed row member
          exact ⟨b, time, past.trans later⟩
        computed := sound.computed
        fits := sound.fits
        begun := fun q member => (sound.begun q member).trans later }
  | ask type =>
    exact
      { distinct := sound.distinct
        elapsed := sound.elapsed
        computed := sound.computed
        fits := fun q member => by
          rcases List.mem_append.mp member with before | new
          · exact sound.fits q before
          · rw [List.mem_singleton.mp new]
            exact fits_started _ _ _
        begun := fun q member => by
          rcases List.mem_append.mp member with before | new
          · exact sound.begun q before
          · rw [List.mem_singleton.mp new]
            exact Int.le_refl s.clock }
  | load i => exact goes i
  | compute i value => exact goes i
  | store i => exact goes i
  | answer i => exact goes i
  | die i => exact goes i

/-- The intervals with rows stay without a gap with every step of a request. -/
theorem progress_steady (sound : Sound s) (there : s.requests[i]? = some r) (event : Event α)
    (steady : ∃ w k, Steady s type w k) : ∃ w k, Steady (s.progress i r event) type w k := by
  obtain ⟨w, k, steady⟩ := steady
  obtain ⟨kind, now, pc⟩ := r
  have member := List.mem_of_getElem? there
  have stays : ∃ w k, Steady s type w k := ⟨w, k, steady⟩
  have leaves (gone : Pc α) (silent : gone.data = none) :
      ∃ w k, Steady (s.goto i ⟨kind, now, pc⟩ gone) type w k :=
    ⟨w, k, steady.goto there fun _ data no => by rw [silent] at no; cases no⟩
  cases event with
  | tick seconds => exact stays
  | ask type => exact stays
  | load j =>
    cases pc with
    | started =>
      refine ⟨w, k, steady.goto there fun same data loaded => ?_⟩
      obtain rfl : kind = type := same
      obtain rfl : getCachedGraphData s.rows (Request.params ⟨kind, now, .started⟩) = data :=
        Option.some.inj loaded
      exact length_loaded sound steady (steady.begun _ member rfl)
    | _ => exact stays
  | compute j value =>
    cases pc with
    | filling data =>
      simp only [progress]
      split
      · refine ⟨w, k, (steady.compute _).goto there fun same old filled => ?_⟩
        obtain rfl : data = old := Option.some.inj filled
        exact steady.behind _ member same data rfl
      · exact stays
    | _ => exact stays
  | store j =>
    cases pc with
    | storing data value =>
      simp only [progress]
      rw [stepStart_eq]
      have ⟨_, room⟩ := (sound.fits _ member).pending data value rfl
      exact ⟨w, steady.store (r := ⟨kind, now, .storing data value⟩) there room⟩
    | _ => exact stays
  | answer j =>
    cases pc with
    | filling data =>
      simp only [progress]
      split
      · exact stays
      · exact leaves _ rfl
    | _ => exact stays
  | die j =>
    cases pc with
    | answered data => exact stays
    | started => exact leaves _ rfl
    | filling data => exact leaves _ rfl
    | storing data value => exact leaves _ rfl
    | dead => exact leaves _ rfl

/-- The intervals with rows stay without a gap with every event. -/
theorem step_steady (sound : Sound s) (event : Event α) (steady : ∃ w k, Steady s type w k) :
    ∃ w k, Steady (s.step event) type w k := by
  have goes (i : Nat) :
      ∃ w k, Steady ((s.requests[i]?).elim s fun r => s.progress i r event) type w k := by
    cases there : s.requests[i]? with
    | none => exact steady
    | some r => exact progress_steady sound there event steady
  cases event with
  | tick seconds =>
    obtain ⟨w, k, before⟩ := steady
    have later : s.clock ≤ s.clock + seconds := by omega
    exact ⟨w, k, before.begun, before.newest, before.room, before.past.trans later, before.full,
      before.behind⟩
  | ask asked =>
    obtain ⟨w, k, before⟩ := steady
    by_cases same : asked = type
    · subst same
      exact ⟨_, before.ask⟩
    · refine ⟨w, k, ?_, ?_, before.room, before.past, before.full, ?_⟩
      · intro q member kind
        rcases List.mem_append.mp member with old | new
        · exact before.begun q old kind
        · rw [List.mem_singleton.mp new] at kind
          exact absurd kind same
      · rintro b ⟨q, member, kind, start⟩
        rcases List.mem_append.mp member with old | new
        · have ⟨first, there, started⟩ := before.newest b ⟨q, old, kind, start⟩
          exact ⟨first, List.mem_append_left _ there, started⟩
        · rw [List.mem_singleton.mp new] at kind
          exact absurd kind same
      · intro q member kind
        rcases List.mem_append.mp member with old | new
        · exact before.behind q old kind
        · rw [List.mem_singleton.mp new] at kind
          exact absurd kind same
  | load i => exact goes i
  | compute i value => exact goes i
  | store i => exact goes i
  | answer i => exact goes i
  | die i => exact goes i

/-- After every run the table is as it should be, and from the newest start of each kind on the
intervals with rows are without a gap. -/
theorem run_sound (clock : Int) (events : List (Event α)) :
    Sound (run clock events) ∧ ∀ type, ∃ w k, Steady (run clock events) type w k := by
  have keeps : ∀ s : Frontend α, Sound s ∧ (∀ type, ∃ w k, Steady s type w k) →
      Sound (events.foldl step s) ∧ ∀ type, ∃ w k, Steady (events.foldl step s) type w k := by
    induction events with
    | nil => exact fun _ good => good
    | cons event events ih =>
      exact fun s good => ih _ ⟨step_sound good.1 event,
        fun type => step_steady good.1 event (good.2 type)⟩
  refine keeps _ ⟨⟨List.Pairwise.nil, ?_, ?_, ?_, ?_⟩, fun type => ?_⟩
  · exact fun _ no => absurd no List.not_mem_nil
  · exact fun _ no => absurd no List.not_mem_nil
  · exact fun _ no => absurd no List.not_mem_nil
  · exact fun _ no => absurd no List.not_mem_nil
  · refine ⟨_, 0, ?_, ?_, Nat.zero_le _, first_le (⟨type, clock, .started⟩ : Request α), ?_, ?_⟩
    · exact fun _ no => absurd no List.not_mem_nil
    · exact fun _ ⟨_, no, _⟩ => absurd no List.not_mem_nil
    · intro b reached
      constructor
      · rintro ⟨_, no, _⟩
        exact absurd no List.not_mem_nil
      · omega
    · exact fun _ no => absurd no List.not_mem_nil

/-- A graph that a request has read before any graph of its kind started later. -/
structure Exact (computed : List (Row α)) (r : Request α) : Prop where
  /-- The rows were read. -/
  loaded : r.pc ≠ .started
  /-- There are no more values than steps, and each was computed for its interval. -/
  filled : ∀ data, r.pc.data = some data ∨ r.pc = .answered data →
    data.length ≤ r.type.steps ∧ ∀ (j : Nat) value, data[j]? = some value →
      ⟨r.type, r.type.step * (r.first + j), value⟩ ∈ computed

/-- An exact request stays exact when more was computed. -/
theorem Exact.more {computed more : List (Row α)} (holds : Exact computed r)
    (grown : computed ⊆ more) : Exact more r where
  loaded := holds.loaded
  filled data at_r := by
    have ⟨few, all⟩ := holds.filled data at_r
    exact ⟨few, fun j value at_j => grown (all j value at_j)⟩

/-- An exact request stays exact while it has the same values. -/
theorem Exact.keep {computed : List (Row α)} {pc : Pc α} (holds : Exact computed r)
    (loaded : pc ≠ .started)
    (same : ∀ data, pc.data = some data ∨ pc = .answered data → r.pc.data = some data) :
    Exact computed { r with pc := pc } where
  loaded := loaded
  filled data at_r := holds.filled data (Or.inl (same data at_r))

/-- A step of a request moves no other one, computes no less, and keeps the request exact. -/
theorem progress_exact (sound : Sound s) (there : s.requests[i]? = some r) (event : Event α) :
    ∃ pc, (s.progress i r event).requests = s.requests.set i { r with pc := pc } ∧
      s.computed ⊆ (s.progress i r event).computed ∧
      (Exact s.computed r → Exact (s.progress i r event).computed { r with pc := pc }) := by
  have member := List.mem_of_getElem? there
  have stays : ∃ pc, s.requests = s.requests.set i { r with pc := pc } ∧
      s.computed ⊆ s.computed ∧ (Exact s.computed r → Exact s.computed { r with pc := pc }) := by
    refine ⟨r.pc, ?_, List.Subset.refl _, fun good => good⟩
    obtain ⟨bound, same⟩ := List.getElem?_eq_some_iff.mp there
    rw [← same, List.set_getElem_self]
  obtain ⟨kind, now, pc⟩ := r
  have dies : ∃ gone, (s.goto i ⟨kind, now, pc⟩ .dead).requests =
      s.requests.set i ⟨kind, now, gone⟩ ∧ s.computed ⊆ s.computed ∧
      (Exact s.computed ⟨kind, now, pc⟩ → Exact s.computed ⟨kind, now, gone⟩) := by
    refine ⟨.dead, rfl, List.Subset.refl _, fun good => good.keep (by simp) ?_⟩
    rintro data (no | no) <;> cases no
  cases event with
  | tick seconds => exact stays
  | ask type => exact stays
  | load j =>
    cases pc with
    | started => exact ⟨_, rfl, List.Subset.refl _, fun good => absurd rfl good.loaded⟩
    | _ => exact stays
  | compute j value =>
    cases pc with
    | filling data =>
      simp only [progress]
      split
      · refine ⟨.storing data value, rfl, List.subset_cons_self _ _, fun good =>
          (good.keep (by simp) ?_).more (List.subset_cons_self _ _)⟩
        rintro old (same | no)
        · exact same
        · cases no
      · exact stays
    | _ => exact stays
  | store j =>
    cases pc with
    | storing data value =>
      refine ⟨.filling (data ++ [value]), rfl, List.Subset.refl _, fun good => ⟨by simp, ?_⟩⟩
      have ⟨computed, room⟩ := (sound.fits _ member).pending data value rfl
      have ⟨few, all⟩ := good.filled data (Or.inl rfl)
      rintro old (same | no)
      · obtain rfl : data ++ [value] = old := Option.some.inj same
        refine ⟨?_, fun j new at_j => ?_⟩
        · rw [List.length_append, List.length_singleton]
          exact room
        · by_cases before : j < data.length
          · rw [List.getElem?_append_left before] at at_j
            exact all j new at_j
          · rw [List.getElem?_append_right (not_lt.mp before),
              List.getElem?_singleton] at at_j
            split at at_j
            · have last : j = data.length := by omega
              obtain rfl : value = new := Option.some.inj at_j
              rw [last]
              exact computed
            · cases at_j
      · cases no
    | _ => exact stays
  | answer j =>
    cases pc with
    | filling data =>
      simp only [progress]
      split
      · exact stays
      · refine ⟨.answered data, rfl, List.Subset.refl _, fun good => good.keep (by simp) ?_⟩
        rintro old (no | same)
        · cases no
        · cases same
          rfl
    | _ => exact stays
  | die j =>
    cases pc with
    | answered data => exact stays
    | started => exact dies
    | filling data => exact dies
    | storing data value => exact dies
    | dead => exact dies

/-- An exact request stays exact with every event. -/
theorem step_exact (sound : Sound s) (event : Event α) (kind : StatType) (now : Int)
    (holds : ∃ pc, s.requests[i]? = some ⟨kind, now, pc⟩ ∧ Exact s.computed ⟨kind, now, pc⟩) :
    ∃ pc, (s.step event).requests[i]? = some ⟨kind, now, pc⟩ ∧
      Exact (s.step event).computed ⟨kind, now, pc⟩ := by
  obtain ⟨pc, here, good⟩ := holds
  have goes (j : Nat) :
      ∃ pc, ((s.requests[j]?).elim s fun r => s.progress j r event).requests[i]? =
        some ⟨kind, now, pc⟩ ∧
        Exact ((s.requests[j]?).elim s fun r => s.progress j r event).computed ⟨kind, now, pc⟩ := by
    cases there : s.requests[j]? with
    | none => exact ⟨pc, here, good⟩
    | some r =>
      rw [Option.elim_some]
      obtain ⟨after, moved, grown, keeps⟩ := progress_exact sound there event
      rw [moved]
      by_cases same : j = i
      · subst same
        obtain rfl : r = ⟨kind, now, pc⟩ := Option.some.inj (there.symm.trans here)
        have bound := (List.getElem?_eq_some_iff.mp there).1
        exact ⟨after, List.getElem?_set_self bound, keeps good⟩
      · rw [List.getElem?_set_ne same]
        exact ⟨pc, here, good.more grown⟩
  cases event with
  | tick seconds => exact ⟨pc, here, good⟩
  | ask type =>
    have bound := (List.getElem?_eq_some_iff.mp here).1
    exact ⟨pc, (List.getElem?_append_left bound).trans here, good⟩
  | load j => exact goes j
  | compute j value => exact goes j
  | store j => exact goes j
  | answer j => exact goes j
  | die j => exact goes j

/-- An exact request stays exact in every run that goes on. -/
theorem exact_run (events : List (Event α)) (sound : Sound s) (kind : StatType) (now : Int)
    (holds : ∃ pc, s.requests[i]? = some ⟨kind, now, pc⟩ ∧ Exact s.computed ⟨kind, now, pc⟩) :
    Sound (events.foldl step s) ∧
      ∃ pc, (events.foldl step s).requests[i]? = some ⟨kind, now, pc⟩ ∧
        Exact (events.foldl step s).computed ⟨kind, now, pc⟩ := by
  induction events generalizing s with
  | nil => exact ⟨sound, holds⟩
  | cons event events ih =>
    exact ih (step_sound sound event) (step_exact sound event kind now holds)

/-- From the start of a newest graph on, so many intervals have their rows and no others. -/
theorem Steady.of_newest {w : Int} {k : Nat} (steady : Steady s r.type w k)
    (member : r ∈ s.requests)
    (newest : ∀ q ∈ s.requests, q.type = r.type → q.first ≤ r.first) :
    Steady s r.type r.first k := by
  have ⟨q, there, kind, start⟩ := steady.newest r.first ⟨r, member, rfl, rfl⟩
  have most := newest q there kind
  have least := steady.begun r member rfl
  have same : w = r.first := by omega
  rw [same] at steady
  exact steady

/-- A request that reads its rows while no graph of its kind has started later is exact. -/
theorem exact_of_load {w : Int} {k : Nat} (sound : Sound s) (steady : Steady s r.type w k)
    (there : s.requests[i]? = some r) (started : r.pc = .started)
    (newest : ∀ q ∈ s.requests, q.type = r.type → q.first ≤ r.first) :
    ∃ pc, (s.step (.load i)).requests[i]? = some ⟨r.type, r.now, pc⟩ ∧
      Exact (s.step (.load i)).computed ⟨r.type, r.now, pc⟩ := by
  have first := steady.of_newest (List.mem_of_getElem? there) newest
  have ⟨few, rows⟩ := cached_exact sound first
  have loading : s.step (.load i) =
      s.goto i r (.filling (getCachedGraphData s.rows r.params)) := by
    change (s.requests[i]?).elim _ _ = _
    rw [there, Option.elim_some]
    simp only [progress, started]
  have bound := (List.getElem?_eq_some_iff.mp there).1
  rw [loading]
  refine ⟨_, List.getElem?_set_self bound, by simp, ?_⟩
  rintro data (same | no)
  · obtain rfl := Option.some.inj same
    exact ⟨few, fun j value at_j => sound.computed _ (rows j value at_j)⟩
  · cases no

/-- A graph whose rows are read while no graph of its kind has started in a later interval has one
value for each time below it, which was computed for the interval that begins then: whatever
happened before, since it was asked for, and until it is answered. -/
theorem graph_exact (clock : Int) (before after : List (Event α)) (i : Nat) (r : Request α)
    (there : (run clock before).requests[i]? = some r) (started : r.pc = .started)
    (newest : ∀ q ∈ (run clock before).requests, q.type = r.type → q.first ≤ r.first) :
    ∃ pc, (run clock (before ++ .load i :: after)).requests[i]? = some ⟨r.type, r.now, pc⟩ ∧
      ∀ data, pc = .answered data → data.length = (timeLine r.params).length ∧
        ∀ (j : Nat) time value, (timeLine r.params)[j]? = some time → data[j]? = some value →
          ⟨r.type, time, value⟩ ∈ (run clock (before ++ .load i :: after)).computed := by
  have ⟨sound, steady⟩ := run_sound clock before
  obtain ⟨w, k, steady⟩ := steady r.type
  have loaded : Sound ((run clock before).step (.load i)) := step_sound sound _
  obtain ⟨last, pc, here, good⟩ :=
    exact_run after loaded r.type r.now (exact_of_load sound steady there started newest)
  have same : run clock (before ++ .load i :: after) =
      after.foldl step ((run clock before).step (.load i)) := by
    unfold run
    rw [List.foldl_append]
    rfl
  rw [same]
  refine ⟨pc, here, fun data answered => ?_⟩
  have ⟨most, all⟩ := good.filled data (Or.inr answered)
  have least := ((last.fits _ (List.mem_of_getElem? here)).complete data answered).1
  rw [timeLine_eq, List.length_map, List.length_range]
  refine ⟨Nat.le_antisymm most least, fun j time value at_time at_j => ?_⟩
  rw [List.getElem?_map, Option.map_eq_some_iff] at at_time
  obtain ⟨number, listed, rfl⟩ := at_time
  obtain rfl : number = j := by
    obtain ⟨_, same⟩ := List.getElem?_eq_some_iff.mp listed
    rw [List.getElem_range] at same
    exact same.symm
  exact all number value at_j

/-- A graph is asked for twice; before the first request reads the rows, time passes and the second
one stores the first value of its graph. -/
def secondAhead : List (Event Nat) :=
  [.ask .thirtyMin, .ask .thirtyMin, .load 1, .tick 700, .compute 1 7, .store 1]

/-- The first request computes the other values and answers. -/
def firstAnswers : List (Event Nat) :=
  ((List.range 47).flatMap fun n => [.compute 0 n, .store 0]) ++ [.answer 0]

/-- The first request answers with the value that the second one has stored and 47 of its own. -/
theorem graph_exact_shared :
    ∃ data, (run 0 (secondAhead ++ .load 0 :: firstAnswers)).requests[0]? =
        some ⟨.thirtyMin, 0, .answered data⟩ ∧
      data.length = (timeLine (getGraphParameters .thirtyMin 0)).length := by
  have ⟨pc, here, answers⟩ := graph_exact 0 secondAhead firstAnswers 0
    ⟨.thirtyMin, 0, .started⟩ (by decide +kernel) rfl (by decide +kernel)
  have answered : (run 0 (secondAhead ++ .load 0 :: firstAnswers)).requests[0]?.map Request.pc =
      some (.answered (7 :: List.range 47)) := by decide +kernel
  rw [here, Option.map_some, Option.some_inj] at answered
  have same : pc = .answered (7 :: List.range 47) := answered
  rw [same] at here
  exact ⟨_, here, (answers _ same).1⟩

/-- Otherwise it may be shifted: here another graph starts in the next interval and stores the first
value of its own before the rows are read, which is then taken for that of the interval before. -/
example : ((run 0 [.ask .thirtyMin, .tick 1800, .ask .thirtyMin, .load 1, .compute 1 7, .store 1,
    .load 0] : Frontend Nat).requests.map fun r => (r.first, r.pc)) =
    [(-48, .filling [7]), (-47, .filling [7])] := by decide +kernel

/-- No event changes or removes a row. -/
theorem rows_step (event : Event α) : s.rows ⊆ (s.step event).rows := by
  have goes (i : Nat) : s.rows ⊆ ((s.requests[i]?).elim s fun r => s.progress i r event).rows := by
    cases s.requests[i]? with
    | none => exact List.Subset.refl _
    | some r =>
      rw [Option.elim_some]
      unfold progress
      split
      · split <;> exact List.Subset.refl _
      · split
        · split <;> exact List.Subset.refl _
        · exact List.Subset.refl _
      · split
        · exact fun row member => mem_cacheGraphData member
        · exact List.Subset.refl _
      · split
        · split <;> exact List.Subset.refl _
        · exact List.Subset.refl _
      · split <;> exact List.Subset.refl _
      · exact List.Subset.refl _
  cases event with
  | tick seconds => exact List.Subset.refl _
  | ask type => exact List.Subset.refl _
  | load i => exact goes i
  | compute i value => exact goes i
  | store i => exact goes i
  | answer i => exact goes i
  | die i => exact goes i

/-- In every run the table of the statistics has one row at most for a key, each with what was
computed for an interval that is over, and no row ever changes. The rows from the newest interval
with which a graph of the kind has started are without a gap. A graph that is returned has a value
for every step, and one more at most. -/
theorem rows_of_run (clock : Int) (before after : List (Event α)) :
    let s := run clock (before ++ after)
    (Distinct s.rows ∧ (run clock before).rows ⊆ s.rows ∧
      ∀ row ∈ s.rows, row ∈ s.computed ∧
        ∃ b : Int, row.time = row.statType.step * b ∧ row.statType.step * (b + 1) ≤ s.clock) ∧
    (∀ r ∈ s.requests, (∀ q ∈ s.requests, q.type = r.type → q.first ≤ r.first) →
      ∃ k : Nat, ∀ b, r.first ≤ b → (Filled s.rows r.type b ↔ b < r.first + k)) ∧
    ∀ r ∈ s.requests, ∀ data, r.pc = .answered data →
      r.type.steps ≤ data.length ∧ data.length ≤ r.type.steps + 1 := by
  intro s
  have ⟨sound, steady⟩ := run_sound clock (before ++ after)
  have kept : ∀ t : Frontend α, t.rows ⊆ (after.foldl step t).rows := by
    clear sound steady s
    induction after with
    | nil => exact fun _ => List.Subset.refl _
    | cons event after ih => exact fun t => List.Subset.trans (rows_step event) (ih _)
  refine ⟨⟨sound.distinct, ?_, fun row member => ?_⟩, fun r member newest => ?_,
    fun r member data same => ?_⟩
  · have split : s = after.foldl step (run clock before) := List.foldl_append
    rw [split]
    exact kept _
  · exact ⟨sound.computed row member, sound.elapsed row member⟩
  · obtain ⟨w, k, good⟩ := steady r.type
    exact ⟨k, (good.of_newest member newest).full⟩
  · exact (sound.fits r member).complete data same

end Runs

end Copr.GraphData
