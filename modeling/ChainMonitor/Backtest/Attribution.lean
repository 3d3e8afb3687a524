import ChainMonitor.Backtest.Engine
import ChainMonitor.ProofKit.Grouping
import Mathlib.Data.List.Sort

/-! `BacktestAttribution` of `backtest/attribution.py`: the trades of a run by token, by hour of UTC
and by regime. -/

namespace ChainMonitor.Backtest

open ProofKit

structure AttributionBucket where
  key : String
  tradeCount : ℕ
  netPnlUsd : ℚ
  winRate : ℚ
  deriving DecidableEq

structure AttributionReport where
  byToken : List AttributionBucket
  byHour : List AttributionBucket
  byRegime : List AttributionBucket

/-! ### The report -/

/-- The bucket of a key and the trades that it groups. -/
def bucket (group : String × List BacktestTradeResult) : AttributionBucket :=
  let items := group.2
  let netPnl := (items.map BacktestTradeResult.netPnlUsd).sum
  let wins := items.countP fun item => 0 < item.netPnlUsd
  { key := group.1
    tradeCount := items.length
    netPnlUsd := roundTo 8 netPnl
    winRate := if items = [] then 0 else roundTo 8 (wins / items.length) }

/-- `_aggregate`. -/
def aggregate (keys : List String) (trades : List BacktestTradeResult) : List AttributionBucket :=
  let groups := Dict.groups (keys.zip trades)
  (groups.rows.map bucket).insertionSort fun a b => b.netPnlUsd ≤ a.netPnlUsd

/-- `strftime("%H:00")` of a minute of UTC. -/
def hourKey (tsMinute : ℤ) : String :=
  let hour := (tsMinute / 60 % 24).toNat
  (if hour < 10 then "0" else "") ++ toString hour ++ ":00"

/-- `_regime_key`. -/
def regimeKey (conviction : ℚ) : String :=
  if 85 ≤ conviction then "risk_on"
  else if 70 ≤ conviction then "neutral"
  else "risk_off"

/-- `BacktestAttribution.build`. -/
def buildAttribution (trades : List BacktestTradeResult) : AttributionReport where
  byToken := aggregate (trades.map fun trade => trade.tokenId) trades
  byHour := aggregate (trades.map fun trade => hourKey trade.tsMinute) trades
  byRegime := aggregate (trades.map fun trade => regimeKey trade.conviction) trades

/-! ### What the buckets count -/

/-- A bucket before it is rounded. -/
def exactBucket (group : String × List BacktestTradeResult) : AttributionBucket :=
  let items := group.2
  let netPnl := (items.map BacktestTradeResult.netPnlUsd).sum
  let wins := items.countP fun item => 0 < item.netPnlUsd
  { key := group.1
    tradeCount := items.length
    netPnlUsd := netPnl
    winRate := if items = [] then 0 else wins / items.length }

def AttributionBucket.rounded (b : AttributionBucket) : AttributionBucket :=
  { b with netPnlUsd := roundTo 8 b.netPnlUsd, winRate := roundTo 8 b.winRate }

/-- The buckets before they are rounded, in the order of the report. -/
def exactAggregate (keys : List String) (trades : List BacktestTradeResult) :
    List AttributionBucket :=
  ((Dict.groups (keys.zip trades)).rows.map exactBucket).insertionSort fun a b =>
    b.rounded.netPnlUsd ≤ a.rounded.netPnlUsd

theorem bucket_eq (group : String × List BacktestTradeResult) :
    bucket group = (exactBucket group).rounded := by
  unfold bucket exactBucket AttributionBucket.rounded
  by_cases hnil : group.2 = []
  · simp [hnil, roundTo_of_isDecimal (isDecimal_zero 8)]
  · simp [hnil]

theorem aggregate_eq (keys : List String) (trades : List BacktestTradeResult) :
    aggregate keys trades = (exactAggregate keys trades).map AttributionBucket.rounded := by
  have hrows : (Dict.groups (keys.zip trades)).rows.map bucket =
      ((Dict.groups (keys.zip trades)).rows.map exactBucket).map AttributionBucket.rounded := by
    rw [List.map_map]
    exact List.map_congr_left fun group _ => bucket_eq group
  dsimp only [aggregate, exactAggregate]
  rw [hrows]
  symm
  apply List.map_insertionSort
  intro a _ b _
  rfl

/-- What the rounding leaves as it is may be read of the exact buckets. -/
theorem map_aggregate {α : Type*} {f : AttributionBucket → α} (hf : ∀ b, f b.rounded = f b)
    (keys : List String) (trades : List BacktestTradeResult) :
    (aggregate keys trades).map f = (exactAggregate keys trades).map f := by
  rw [aggregate_eq, List.map_map]
  exact List.map_congr_left fun b _ => hf b

/-- The win rate of a bucket times its count is the number of its winning trades. -/
theorem winRate_mul_tradeCount (group : String × List BacktestTradeResult) :
    (exactBucket group).winRate * (exactBucket group).tradeCount =
      group.2.countP fun item => 0 < item.netPnlUsd := by
  unfold exactBucket
  by_cases hnil : group.2 = []
  · simp [hnil]
  · have hlength : (group.2.length : ℚ) ≠ 0 := by simpa using hnil
    simp only [if_neg hnil]
    exact div_mul_cancel₀ _ hlength

/-! ### The groups of a key -/

section Keys

variable (keyOf : BacktestTradeResult → String) (trades : List BacktestTradeResult)

/-- The groups that the buckets of a key are made of. -/
def groupsBy : List (String × List BacktestTradeResult) :=
  (Dict.groups ((trades.map keyOf).zip trades)).rows

theorem own_pairs (k : String) :
    Dict.own ((trades.map keyOf).zip trades) k = trades.filter fun trade => keyOf trade = k := by
  rw [← List.map_prod_right_eq_zip, Dict.own, List.filter_map, List.map_map]
  exact List.map_id _

theorem mem_groupsBy {g : String × List BacktestTradeResult} :
    g ∈ groupsBy keyOf trades ↔
      g.2 ≠ [] ∧ g.2 = trades.filter fun trade => keyOf trade = g.1 := by
  rw [groupsBy, Dict.mem_groups, own_pairs]
  constructor
  · rintro ⟨hne, hown⟩
    exact ⟨hown ▸ hne, hown⟩
  · rintro ⟨hne, hown⟩
    exact ⟨hown ▸ hne, hown⟩

/-- A total over the groups is the total over the trades. -/
theorem sum_groupsBy {M : Type*} [AddCommMonoid M] (f : BacktestTradeResult → M) :
    ((groupsBy keyOf trades).map fun g => (g.2.map f).sum).sum = (trades.map f).sum := by
  rw [groupsBy, Dict.sum_groups, ← List.map_prod_right_eq_zip, List.map_map]
  rfl

theorem exactAggregate_perm :
    (exactAggregate (trades.map keyOf) trades).Perm ((groupsBy keyOf trades).map exactBucket) :=
  List.perm_insertionSort _ _

theorem keys_perm : ((aggregate (trades.map keyOf) trades).map AttributionBucket.key).Perm
    ((groupsBy keyOf trades).map Prod.fst) := by
  rw [map_aggregate fun b => rfl]
  have h := (exactAggregate_perm keyOf trades).map AttributionBucket.key
  rwa [List.map_map] at h

/-- A row is the bucket of the trades of its key. -/
theorem eq_exactBucket {row : AttributionBucket}
    (hrow : row ∈ exactAggregate (trades.map keyOf) trades) :
    row = exactBucket (row.key, trades.filter fun trade => keyOf trade = row.key) := by
  rw [(exactAggregate_perm keyOf trades).mem_iff, List.mem_map] at hrow
  obtain ⟨⟨k, items⟩, hg, rfl⟩ := hrow
  obtain ⟨-, hown⟩ := (mem_groupsBy keyOf trades).mp hg
  exact congrArg (fun items => exactBucket (k, items)) hown

theorem mem_keys_aggregate {trade : BacktestTradeResult} (htrade : trade ∈ trades) :
    keyOf trade ∈ (aggregate (trades.map keyOf) trades).map AttributionBucket.key := by
  have hmem : trade ∈ trades.filter fun t => keyOf t = keyOf trade := by simp [htrade]
  have hgroup := (mem_groupsBy keyOf trades (g := (keyOf trade, _))).mpr
    ⟨List.ne_nil_of_mem hmem, rfl⟩
  rw [(keys_perm keyOf trades).mem_iff]
  exact List.mem_map_of_mem hgroup

/-- A total over the buckets goes over the groups. -/
theorem sum_exactAggregate {M : Type*} [AddCommMonoid M] (f : AttributionBucket → M) :
    ((exactAggregate (trades.map keyOf) trades).map f).sum =
      ((groupsBy keyOf trades).map fun g => f (exactBucket g)).sum := by
  rw [((exactAggregate_perm keyOf trades).map f).sum_eq, List.map_map]
  rfl

theorem countP_eq_sum (p : BacktestTradeResult → Bool) (l : List BacktestTradeResult) :
    (l.countP p : ℚ) = (l.map fun trade => if p trade then (1 : ℚ) else 0).sum := by
  induction l with
  | nil => rfl
  | cons t l ih =>
    rw [List.countP_cons, List.map_cons, List.sum_cons, ← ih]
    by_cases h : p t
    · simp [h, add_comm]
    · simp [h]

end Keys

/-! ### The partition -/

/-- The rows share the trades out among the keys; `exact` are the rows before they are rounded. -/
structure Partitions (keyOf : BacktestTradeResult → String) (trades : List BacktestTradeResult)
    (exact rows : List AttributionBucket) : Prop where
  rounded : rows = exact.map AttributionBucket.rounded
  distinct : (rows.map AttributionBucket.key).Nodup
  counts : (rows.map AttributionBucket.tradeCount).sum = trades.length
  net : (exact.map AttributionBucket.netPnlUsd).sum =
    (trades.map BacktestTradeResult.netPnlUsd).sum
  wins : (exact.map fun row => row.winRate * (row.tradeCount : ℚ)).sum =
    trades.countP fun trade => 0 < trade.netPnlUsd
  ordered : rows.Pairwise fun a b => b.netPnlUsd ≤ a.netPnlUsd
  listed : ∀ trade ∈ trades, keyOf trade ∈ rows.map AttributionBucket.key
  ownCount : ∀ row ∈ exact, row.tradeCount = trades.countP fun trade => keyOf trade = row.key
  ownNet : ∀ row ∈ exact, row.netPnlUsd =
    ((trades.filter fun trade => keyOf trade = row.key).map BacktestTradeResult.netPnlUsd).sum
  ownWins : ∀ row ∈ exact, row.winRate * row.tradeCount =
    trades.countP fun trade => keyOf trade = row.key ∧ 0 < trade.netPnlUsd

theorem aggregate_partitions (keyOf : BacktestTradeResult → String)
    (trades : List BacktestTradeResult) :
    Partitions keyOf trades (exactAggregate (trades.map keyOf) trades)
      (aggregate (trades.map keyOf) trades) := by
  refine ⟨aggregate_eq _ _, ?distinct, ?counts, ?net, ?wins, List.pairwise_insertionSort _ _,
    fun _ htrade => mem_keys_aggregate keyOf trades htrade, ?ownCount, ?ownNet, ?ownWins⟩
  case distinct => exact (keys_perm keyOf trades).nodup_iff.mpr (Dict.groups _).unique
  case counts =>
    have hlength : ∀ g : String × List BacktestTradeResult,
        (exactBucket g).tradeCount = (g.2.map fun _ => 1).sum := by simp [exactBucket]
    rw [map_aggregate fun b => rfl, sum_exactAggregate]
    simp only [hlength]
    rw [sum_groupsBy]
    simp
  case net =>
    rw [sum_exactAggregate]
    exact sum_groupsBy keyOf trades BacktestTradeResult.netPnlUsd
  case wins =>
    rw [sum_exactAggregate]
    simp only [winRate_mul_tradeCount, countP_eq_sum]
    rw [sum_groupsBy]
  case ownCount =>
    intro row hrow
    rw [List.countP_eq_length_filter]
    exact congrArg AttributionBucket.tradeCount (eq_exactBucket keyOf trades hrow)
  case ownNet =>
    intro row hrow
    exact congrArg AttributionBucket.netPnlUsd (eq_exactBucket keyOf trades hrow)
  case ownWins =>
    intro row hrow
    have hown : row.winRate * row.tradeCount =
        (trades.filter fun trade => keyOf trade = row.key).countP fun trade =>
          0 < trade.netPnlUsd := by
      have hbucket := winRate_mul_tradeCount
        (row.key, trades.filter fun trade => keyOf trade = row.key)
      rwa [← eq_exactBucket keyOf trades hrow] at hbucket
    have hboth : ∀ trade ∈ trades,
        ((decide (0 < trade.netPnlUsd) && decide (keyOf trade = row.key)) = true ↔
          decide (keyOf trade = row.key ∧ 0 < trade.netPnlUsd) = true) := by
      intro trade _
      simp [and_comm]
    rw [hown, List.countP_filter, List.countP_congr hboth]

/-- Every trade is counted under exactly its own token, its own hour and its own regime. -/
theorem build_partitions (trades : List BacktestTradeResult) :
    Partitions BacktestTradeResult.tokenId trades
        (exactAggregate (trades.map BacktestTradeResult.tokenId) trades)
        (buildAttribution trades).byToken ∧
      Partitions (fun trade => hourKey trade.tsMinute) trades
        (exactAggregate (trades.map fun trade => hourKey trade.tsMinute) trades)
        (buildAttribution trades).byHour ∧
      Partitions (fun trade => regimeKey trade.conviction) trades
        (exactAggregate (trades.map fun trade => regimeKey trade.conviction) trades)
        (buildAttribution trades).byRegime :=
  ⟨aggregate_partitions _ trades, aggregate_partitions _ trades, aggregate_partitions _ trades⟩

end ChainMonitor.Backtest
