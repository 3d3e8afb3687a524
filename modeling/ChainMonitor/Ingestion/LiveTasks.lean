import ChainMonitor.Ingestion.LiveSource
import Mathlib.Data.List.ReduceOption

/-! A call of a live strategy, when tasks of symbols may also be cancelled. `gather` returns the
`CancelledError` of such a task; it is no `Exception`, so the loop over the results takes it for the
pair of the symbol. -/

namespace ChainMonitor.Ingestion

open ProofKit Adapters

/-- What stands under a symbol in `pairs_by_symbol`. -/
inductive Resolved
  | pair (pair : NormalizedPair)
  | cancelledError
  deriving DecidableEq

/-- A call of a live strategy, and which of its symbol tasks end in a `CancelledError`. -/
structure LiveTasks where
  live : LiveSource
  cancelled : ℕ → String → Bool

namespace LiveTasks

variable (T : Text) (floats : Floats) (settings : Settings) (tasks : LiveTasks)

/-- What the loop over the results keeps of the `n`-th task. -/
def result (n : ℕ) (symbol : String) : Option Resolved :=
  if tasks.cancelled n symbol then some .cancelledError
  else (given (tasks.live.adapter.fetchPairBySymbol n symbol)).map .pair

def collectPairs (names : List String) (required : Finset String) :
    Except Failure (Dict String Resolved) := do
  let pairs ← tasks.live.addressPairs settings
  let unresolved := required.filter fun symbol => (pairs.get? symbol).isNone
  if unresolved ≠ ∅ then
    tasks.live.fail settings "required_symbol_unresolved" (LiveSource.listing unresolved)
  else
    return Dict.collect Prod.fst (fun task => tasks.result task.2 task.1)
      (LiveSource.remaining names required pairs).zipIdx (pairs.mapValues .pair)

def validateSuccessRatio (names : List String) (pairs : Dict String Resolved) :
    Except Failure Unit :=
  let successRatio := LiveSource.share floats pairs.size names.length
  if successRatio < settings.minSuccessRatio then
    tasks.live.fail settings "insufficient_coverage" ("ratio=" ++ floats.fixed successRatio ++
      ", threshold=" ++ floats.fixed settings.minSuccessRatio)
  else .ok ()

/-- The row of a symbol, if it has a pair that is acceptable. -/
def rowOf (ts : ℤ) (pairs : Dict String Resolved) (symbol : String) :
    Except Failure (Option MarketTickInput) :=
  match pairs.get? symbol with
  | none => .ok none
  -- `is_acceptable` reads attributes that a `CancelledError` does not have
  | some .cancelledError => .error .other
  | some (.pair pair) =>
    if tasks.live.isAcceptable pair then
      match LiveSource.toRow T settings ts symbol pair with
      | .ok row => .ok (some row)
      | .error _ => .error .other
    else .ok none

def toRows (ts : ℤ) (names : List String) (pairs : Dict String Resolved) :
    Except Failure (List MarketTickInput) := do
  return (← names.mapM (tasks.rowOf T settings ts pairs)).reduceOption

def fetchMarketTicks (ts : ℤ) : Except Failure (List MarketTickInput) := do
  let required := settings.needed T
  tasks.live.validateRequiredMappings settings required
  let pairs ← tasks.collectPairs settings (settings.names T) required
  tasks.validateSuccessRatio floats settings (settings.names T) pairs
  let rows ← tasks.toRows T settings ts (settings.names T) pairs
  tasks.live.validateRequiredRows T settings required rows
  if rows = [] then tasks.live.fail settings "no_valid_rows" tasks.live.noValidRows else return rows

end LiveTasks

/-! ### Without cancelled tasks -/

namespace LiveTasks

variable {T : Text} {floats : Floats} {settings : Settings} {tasks : LiveTasks} {ts : ℤ}
  {names : List String} {needed : Finset String} {pairs : Dict String Resolved}
  {found : Dict String NormalizedPair} {symbol : String}

/-- No task that the call makes for a symbol is cancelled. -/
def Uncancelled (settings : Settings) (tasks : LiveTasks) (names : List String)
    (needed : Finset String) : Prop :=
  ∀ found, tasks.live.addressPairs settings = .ok found →
    ∀ task ∈ (LiveSource.remaining names needed found).zipIdx,
      tasks.cancelled task.2 task.1 = false

theorem collectPairs_of_uncancelled (h : Uncancelled settings tasks names needed) :
    tasks.collectPairs settings names needed =
      Dict.mapValues Resolved.pair <$> tasks.live.collectPairs settings names needed := by
  unfold collectPairs LiveSource.collectPairs
  cases hfound : tasks.live.addressPairs settings with
  | error e => rfl
  | ok found =>
    have hresult : ∀ task ∈ (LiveSource.remaining names needed found).zipIdx,
        tasks.result task.2 task.1 =
          (given (tasks.live.adapter.fetchPairBySymbol task.2 task.1)).map Resolved.pair := by
      intro task htask
      rw [result, h found hfound task htask]
      rfl
    show (if _ then _ else _) = _ <$> (if _ then _ else _)
    split
    · rfl
    · rw [Dict.collect_congr hresult, Dict.collect_map]
      rfl

theorem rowOf_mapValues {pairs : Dict String NormalizedPair} :
    tasks.rowOf T settings ts (pairs.mapValues .pair) symbol =
      tasks.live.rowOf T settings ts pairs symbol := by
  unfold rowOf LiveSource.rowOf
  rw [Dict.get?_mapValues]
  cases pairs.get? symbol with
  | none => rfl
  | some pair =>
    show (if tasks.live.isAcceptable pair then _ else _) = _
    by_cases hok : tasks.live.isAcceptable pair = true
    · rw [if_pos hok]
      cases hrow : LiveSource.toRow T settings ts symbol pair with
      | ok row => simp [Option.filter_some, hok, hrow]
      | error e => simp [Option.filter_some, hok, hrow]
    · rw [if_neg hok, Option.filter_some, if_neg hok]

/-- Where no task is cancelled, the call is that of the strategy. -/
theorem fetchMarketTicks_of_uncancelled
    (h : Uncancelled settings tasks (settings.names T) (settings.needed T)) :
    tasks.fetchMarketTicks T floats settings ts =
      tasks.live.fetchMarketTicks T floats settings ts := by
  have hsize : ∀ pairs : Dict String NormalizedPair,
      (pairs.mapValues Resolved.pair).size = pairs.size := fun pairs => List.length_map _
  have hrows : ∀ pairs : Dict String NormalizedPair,
      tasks.rowOf T settings ts (pairs.mapValues Resolved.pair) =
        tasks.live.rowOf T settings ts pairs := fun pairs => funext fun _ => rowOf_mapValues
  simp only [fetchMarketTicks, LiveSource.fetchMarketTicks, collectPairs_of_uncancelled h,
    bind_map_left, validateSuccessRatio, LiveSource.validateSuccessRatio, hsize, toRows,
    LiveSource.toRows, hrows]

end LiveTasks

end ChainMonitor.Ingestion
