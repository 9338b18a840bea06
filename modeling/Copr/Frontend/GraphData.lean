import Mathlib.Tactic.Ring

/-!
# The data of the graphs

`get_graph_parameters` of `logic/helpers.py`, and how `get_task_graph_data`, `get_small_graph_data`
and `get_action_graph_data` fill a graph: with the rows that `get_cached_graph_data` finds, and then
with one computed value after the other, each of which `cache_graph_data` stores. The statistics
have a table for builds and one for actions; what a row holds beside its key is a parameter here.
Requests are served at the same time, so their steps alternate in any order.
-/

namespace Copr.GraphData

/-- `stat_type`. -/
inductive StatType
  /-- `10min`. -/
  | tenMin
  /-- `30min`. -/
  | thirtyMin
  /-- `24h`. -/
  | day
  deriving DecidableEq, Repr

namespace StatType

/-- `step`, in seconds. -/
def step : StatType → Nat
  | .tenMin => 600
  | .thirtyMin => 1800
  | .day => 86400

/-- `steps`. -/
def steps : StatType → Nat
  | .tenMin => 144
  | .thirtyMin => 48
  | .day => 90

end StatType

/-- What `get_graph_parameters` returns. -/
structure Params where
  /-- `type`. -/
  type : StatType
  /-- `step`. -/
  step : Nat
  /-- `steps`. -/
  steps : Nat
  /-- `start`. -/
  start : Int
  /-- `end`. -/
  finish : Int
  deriving DecidableEq, Repr

/-- `get_graph_parameters`. -/
def getGraphParameters (type : StatType) (now : Int) : Params :=
  -- the interval ends at a multiple of the step
  let finish := now - now % type.step
  { type := type
    step := type.step
    steps := type.steps
    start := finish - type.steps * type.step
    finish := finish }

/-- `range(start, end, step)`, the times below a graph. -/
def timeLine (params : Params) : List Int :=
  (List.range ((params.finish - params.start + params.step - 1) / params.step).toNat).map
    fun i : Nat => params.start + i * params.step

/-- A row of the statistics. -/
structure Row (α : Type) where
  /-- `stat_type`. -/
  statType : StatType
  /-- `time`. -/
  time : Int
  /-- The numbers. -/
  value : α
  deriving DecidableEq, Repr

section Table

variable {α : Type}

/-- The rows that `get_cached_graph_data` selects. -/
def cachedRows (rows : List (Row α)) (params : Params) : List (Row α) :=
  (rows.filter fun row => row.statType == params.type && decide (params.start ≤ row.time) &&
    decide (row.time ≤ params.finish)).mergeSort fun a b => decide (a.time ≤ b.time)

/-- `get_cached_graph_data`. -/
def getCachedGraphData (rows : List (Row α)) (params : Params) : List α :=
  (cachedRows rows params).map Row.value

/-- `cache_graph_data`. A row that another process adds meanwhile is found when this one is
committed, which is given up then. -/
def cacheGraphData (rows : List (Row α)) (type : StatType) (time : Int) (value : α) :
    List (Row α) :=
  if rows.any fun row => row.statType == type && row.time == time then rows
  else rows ++ [⟨type, time, value⟩]

end Table

/-! ## Requests -/

/-- Where a request is. -/
inductive Pc (α : Type)
  /-- The parameters are known. -/
  | started
  /-- So much of the graph is there. -/
  | filling (data : List α)
  /-- The next value was computed and is to be stored. -/
  | storing (data : List α) (value : α)
  /-- The graph is complete. -/
  | answered (data : List α)
  /-- The process has died. -/
  | dead
  deriving DecidableEq, Repr

/-- A request for a graph. -/
structure Request (α : Type) where
  /-- The kind. -/
  type : StatType
  /-- The time when the parameters were set. -/
  now : Int
  /-- Where it is. -/
  pc : Pc α
  deriving DecidableEq, Repr

/-- The parameters of a request. -/
def Request.params {α : Type} (r : Request α) : Params := getGraphParameters r.type r.now

/-- The frontend. -/
structure Frontend (α : Type) where
  /-- The time. -/
  clock : Int
  /-- The table of the statistics. -/
  rows : List (Row α) := []
  /-- What was computed, for which interval. -/
  computed : List (Row α) := []
  /-- The requests. -/
  requests : List (Request α) := []

/-- What happens. -/
inductive Event (α : Type)
  /-- Time passes. -/
  | tick (seconds : Nat)
  /-- A graph is asked for. -/
  | ask (type : StatType)
  /-- A request reads the cached rows. -/
  | load (i : Nat)
  /-- A request counts the builds or actions of the next interval. -/
  | compute (i : Nat) (value : α)
  /-- A request stores what it has computed. -/
  | store (i : Nat)
  /-- A request returns its graph. -/
  | answer (i : Nat)
  /-- The process of a request dies. -/
  | die (i : Nat)
  deriving DecidableEq, Repr

namespace Frontend

variable {α : Type} (s : Frontend α)

/-- A request goes on. -/
def goto (i : Nat) (r : Request α) (pc : Pc α) : Frontend α :=
  { s with requests := s.requests.set i { r with pc := pc } }

/-- A step of a request. -/
def progress (i : Nat) (r : Request α) : Event α → Frontend α
  | .load _ =>
    match r.pc with
    | .started => s.goto i r (.filling (getCachedGraphData s.rows r.params))
    | _ => s
  | .compute _ value =>
    match r.pc with
    | .filling data =>
      if data.length < r.params.steps then
        let stepStart := r.params.start + data.length * r.params.step
        { s with computed := ⟨r.type, stepStart, value⟩ :: s.computed }.goto i r
          (.storing data value)
      else s
    | _ => s
  | .store _ =>
    match r.pc with
    | .storing data value =>
      let stepStart := r.params.start + data.length * r.params.step
      { s with rows := cacheGraphData s.rows r.type stepStart value }.goto i r
        (.filling (data ++ [value]))
    | _ => s
  | .answer _ =>
    match r.pc with
    | .filling data => if data.length < r.params.steps then s else s.goto i r (.answered data)
    | _ => s
  | .die _ =>
    match r.pc with
    | .answered _ => s
    | _ => s.goto i r .dead
  | _ => s

/-- What an event does. An event that is not possible does nothing. -/
def step (s : Frontend α) (e : Event α) : Frontend α :=
  match e with
  | .tick seconds => { s with clock := s.clock + seconds }
  | .ask type => { s with requests := s.requests ++ [⟨type, s.clock, .started⟩] }
  | .load i | .compute i _ | .store i | .answer i | .die i =>
    (s.requests[i]?).elim s fun r => s.progress i r e

/-- A run that starts with empty tables. -/
def run (clock : Int) (events : List (Event α)) : Frontend α := events.foldl step { clock := clock }

end Frontend

/-! ## Intervals -/

section Intervals

variable {α : Type} (r : Request α)

/-- The number of the first interval of a graph. -/
def Request.first : Int := r.now / r.type.step - r.type.steps

/-- The intervals of every kind of graph have a positive length. -/
theorem StatType.step_pos (type : StatType) : (0 : Int) < type.step := by
  cases type <;> decide

/-- A graph starts with its first interval. -/
theorem start_eq : r.params.start = r.type.step * r.first := by
  have whole := Int.emod_add_mul_ediv r.now r.type.step
  have spread : (r.type.step : Int) * (r.now / r.type.step - r.type.steps) =
      r.type.step * (r.now / r.type.step) - r.type.steps * r.type.step := by ring
  unfold Request.params getGraphParameters Request.first
  dsimp only
  omega

/-- A graph ends where the last of its intervals does. -/
theorem finish_eq : r.params.finish = r.type.step * (r.first + r.type.steps) := by
  have start := start_eq r
  have apart : r.params.start = r.params.finish - r.type.steps * r.type.step := rfl
  have spread : (r.type.step : Int) * (r.first + r.type.steps) =
      r.type.step * r.first + r.type.steps * r.type.step := by ring
  omega

/-- The start of an interval. -/
theorem stepStart_eq (n : Nat) :
    r.params.start + n * r.params.step = r.type.step * (r.first + n) := by
  have same : r.params.step = r.type.step := rfl
  have spread : (r.type.step : Int) * (r.first + n) =
      r.type.step * r.first + n * r.type.step := by ring
  rw [start_eq, same, spread]

/-- The last interval of a graph is over. -/
theorem first_le : (r.type.step : Int) * (r.first + r.type.steps) ≤ r.now := by
  have whole := Int.emod_add_mul_ediv r.now r.type.step
  have rest := Int.emod_nonneg r.now (StatType.step_pos r.type).ne'
  unfold Request.first
  have same : r.now / (r.type.step : Int) - r.type.steps + r.type.steps =
      r.now / r.type.step := by omega
  rw [same]
  omega

/-- There is a time for every interval. -/
theorem timeLine_eq :
    timeLine r.params = (List.range r.type.steps).map fun i : Nat =>
      r.type.step * (r.first + i) := by
  have count : ((r.params.finish - r.params.start + r.params.step - 1) / r.params.step).toNat =
      r.type.steps := by
    have apart : r.params.finish - r.params.start = r.type.steps * r.type.step := by
      have start : r.params.start = r.params.finish - r.type.steps * r.type.step := rfl
      omega
    have same : r.params.step = r.type.step := rfl
    have positive := StatType.step_pos r.type
    have split : (r.type.steps * r.type.step + r.type.step - 1 : Int) =
        (r.type.step - 1) + r.type.steps * r.type.step := by ring
    rw [apart, same, split, Int.add_mul_ediv_right _ _ positive.ne',
      Int.ediv_eq_zero_of_lt (by omega) (by omega)]
    simp
  unfold timeLine
  rw [count]
  exact List.map_congr_left fun i _ => stepStart_eq r i

end Intervals

end Copr.GraphData
