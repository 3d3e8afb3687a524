import ChainMonitor.Backtest.SavedRun
import ChainMonitor.Ingestion.LiveSource
import ChainMonitor.Scoring.Ceiling
import Mathlib.Algebra.Order.Field.Power

/-! The rows of `onchain_flow_features`, `risk_features` and `token_scores` that a run stores for
the ticks of a live source, and the range of their `NUMERIC(10, 6)` columns. -/

namespace ChainMonitor.ScoreRows

open ProofKit PipelineService Snapshots Scoring Backtest
open Adapters (NormalizedPair)
open Adapters.Birdeye (nonnegative)
open Ingestion (LiveSource)

/-- The number that a price, a volume or a count of dollars is. An infinite one counts as
`2 ^ 1024`, which takes a capped part of a score to its cap as well. -/
def value (x : Float) : ℚ :=
  match x.toModel.unpack with
  | .finite .positive n t _ => n * 2 ^ t
  | .finite .negative n t _ => -(n * 2 ^ t)
  | .infinity .positive => 2 ^ 1024
  | .infinity .negative => -2 ^ 1024
  | .zero _ | .notANumber => 0

/-- A tick of a live source, in exact arithmetic. -/
def exactTick (row : Ingestion.MarketTickInput) : MarketTickInput where
  chainId := row.chainId
  tokenId := row.tokenId
  tsMinute := row.tsMinute
  priceUsd := value row.priceUsd
  volume1m := value row.volume1m
  volume5m := value row.volume5m
  liquidityUsd := value row.liquidityUsd
  buys1m := row.buys1m
  sells1m := row.sells1m
  txCount1m := row.txCount1m

/-- The columns of type `NUMERIC(10, 6)` in `onchain_flow_features` and `risk_features`. -/
def featurePayload (feature : FeatureRowInput) : List (Numeric × ℚ) :=
  [ (⟨10, 6⟩, feature.holderChurn24h),
    (⟨10, 6⟩, feature.contractRiskScore),
    (⟨10, 6⟩, feature.lpConcentration),
    (⟨10, 6⟩, feature.holderConcentrationTop10),
    (⟨10, 6⟩, feature.washTradeScore) ]

/-- The columns of type `NUMERIC(10, 6)` in `token_scores`. -/
def scorePayload (row : ScoreRowInput) : List (Numeric × ℚ) :=
  [ (⟨10, 6⟩, row.alphaScore),
    (⟨10, 6⟩, row.momentumScore),
    (⟨10, 6⟩, row.smartMoneyScore),
    (⟨10, 6⟩, row.narrativeScore),
    (⟨10, 6⟩, row.riskPenalty),
    (⟨10, 6⟩, row.finalScore),
    (⟨10, 6⟩, row.conviction),
    (⟨10, 6⟩, row.confidence) ]

/-- Every row of the run is in range. -/
def Fits (features : List FeatureRowInput) (rows : List ScoreRowInput) : Prop :=
  (∀ feature ∈ features, ∀ c ∈ featurePayload feature, c.1.Holds c.2) ∧
    ∀ row ∈ rows, ∀ c ∈ scorePayload row, c.1.Holds c.2

/-! ### The range of a column -/

theorem holds_of_between {q : ℚ} (hlow : -9999 ≤ q) (hhigh : q ≤ 9999) :
    Numeric.Holds ⟨10, 6⟩ (roundTo 6 q) := by
  have hge : -9999 ≤ roundTo 6 q := le_roundTo_of_le ⟨-9999000000, by norm_num⟩ hlow
  have hle : roundTo 6 q ≤ 9999 := roundTo_le_of_le ⟨9999000000, by norm_num⟩ hhigh
  show |roundTo 6 q| < 10 ^ 4
  rw [abs_lt]
  constructor <;> linarith

/-- A share of a feature row is between 0 and 1. -/
structure Share (q : ℚ) : Prop where
  nonneg : 0 ≤ q
  le_one : q ≤ 1

theorem Share.roundTo {q : ℚ} (h : Share q) : Share (roundTo 6 q) where
  nonneg := le_roundTo_of_le (isDecimal_zero 6) h.nonneg
  le_one := roundTo_le_of_le (isDecimal_natCast 6 1) h.le_one

theorem Share.holds {q : ℚ} (h : Share q) : Numeric.Holds ⟨10, 6⟩ q := by
  obtain ⟨hnonneg, hle⟩ := h
  show |q| < 10 ^ 4
  rw [abs_of_nonneg hnonneg]
  linarith

theorem share_residue {base : ℚ} (hbase : 0 ≤ base) (n : ℤ) {m : ℤ} (hm : m ≠ 0) :
    Share (ProofKit.roundTo 6 (min 1 (base + ((n % m : ℤ) : ℚ) / 100))) := by
  have hmod : (0 : ℚ) ≤ ((n % m : ℤ) : ℚ) := by exact_mod_cast Int.emod_nonneg n hm
  apply Share.roundTo
  constructor
  · apply le_min zero_le_one
    linarith
  · exact min_le_left _ _

/-- What the features of a tick are, whatever its counts. -/
structure Bounded (feature : FeatureRowInput) : Prop where
  churn : Share feature.holderChurn24h
  contractRisk : Share feature.contractRiskScore
  lpConcentration : Share feature.lpConcentration
  holderConcentration : Share feature.holderConcentrationTop10
  washTrade : Share feature.washTradeScore
  largeBuys : 0 ≤ feature.largeBuyCount30m
  honeypot : feature.honeypotFlag = false

theorem bounded_buildFeature (tick : MarketTickInput) : Bounded (buildFeature tick) where
  churn := by
    apply Share.roundTo
    constructor
    · exact le_min (by norm_num) ((by norm_num : (0 : ℚ) ≤ 1 / 100).trans (le_max_left _ _))
    · exact (min_le_left _ _).trans (by norm_num)
  contractRisk := share_residue (by norm_num) _ (by norm_num)
  lpConcentration := share_residue (by norm_num) _ (by norm_num)
  holderConcentration := share_residue (by norm_num) _ (by norm_num)
  washTrade := by
    have hshare := share_residue le_rfl tick.txCount1m (show (30 : ℤ) ≠ 0 by norm_num)
    rwa [zero_add] at hshare
  largeBuys := le_max_left _ _
  honeypot := rfl

section Rows

variable {e : ScoringEngine} {v : String} {tick : MarketTickInput} {feature : FeatureRowInput}

theorem Bounded.features_hold (h : Bounded feature) :
    ∀ c ∈ featurePayload feature, c.1.Holds c.2 := by
  simp only [featurePayload, List.forall_mem_cons, List.not_mem_nil, false_implies, implies_true,
    and_true]
  exact ⟨h.churn.holds, h.contractRisk.holds, h.lpConcentration.holds, h.holderConcentration.holds,
    h.washTrade.holds⟩

theorem Bounded.riskPenalty_le (h : Bounded feature) :
    0 ≤ riskPenalty feature ∧ riskPenalty feature ≤ 52 := by
  obtain ⟨-, ⟨hc, hc'⟩, ⟨hl, hl'⟩, ⟨hh, hh'⟩, ⟨hw, hw'⟩, -, hhoneypot⟩ := h
  rw [riskPenalty, hhoneypot]
  constructor <;> norm_num <;> linarith

/-- The momentum of a tick before it is rounded. -/
def momentum (tick : MarketTickInput) : ℚ := min 100 (20 + (tick.buys1m - tick.sells1m) * (15 / 10))

theorem momentum_le (tick : MarketTickInput) : momentum tick ≤ 100 := min_le_left _ _

/-- The only part of a score without a lower bound. -/
theorem momentum_holds : Numeric.Holds ⟨10, 6⟩ (roundTo 6 (momentum tick)) ↔
    tick.sells1m - tick.buys1m < 6680 := by
  have hdecimal : IsDecimal 6 (momentum tick) := by
    rcases min_choice (100 : ℚ) (20 + (tick.buys1m - tick.sells1m) * (15 / 10)) with hmin | hmin
    · exact ⟨100000000, by rw [momentum, hmin]; norm_num⟩
    · refine ⟨20000000 + (tick.buys1m - tick.sells1m) * 1500000, ?_⟩
      rw [momentum, hmin]
      push_cast
      ring
  have hlow : -10 ^ 4 < momentum tick ↔ tick.sells1m - tick.buys1m < 6680 := by
    rw [momentum, lt_min_iff, and_iff_right (by norm_num)]
    have hcast : tick.sells1m - tick.buys1m < 6680 ↔
        ((tick.sells1m : ℚ) - tick.buys1m < 6680) := by exact_mod_cast Iff.rfl
    rw [hcast]
    constructor
    · intro h
      linarith
    · intro h
      linarith
  have hhigh := momentum_le tick
  rw [roundTo_of_isDecimal hdecimal, ← hlow]
  show |momentum tick| < 10 ^ 4 ↔ _
  rw [abs_lt]
  constructor
  · exact fun h => h.1
  · exact fun h => ⟨h, by linarith⟩

/-- A part of a score that is capped at 100 and not negative. -/
theorem part_holds {x : ℚ} (h : 0 ≤ x) : Numeric.Holds ⟨10, 6⟩ (roundTo 6 (min 100 x)) := by
  have hlow : 0 ≤ min 100 x := le_min (by norm_num) h
  have hhigh : min 100 x ≤ 100 := min_le_left _ _
  exact holds_of_between (by linarith) (by linarith)

/-- With volumes and counts that are not negative, the other three parts have a lower bound. -/
theorem weightedScore_between (h : Bounded feature) (hvolume : 0 ≤ tick.volume5m)
    (hliquidity : 0 ≤ tick.liquidityUsd) (htx : 0 ≤ tick.txCount1m) :
    20 / 100 * momentum tick ≤ weightedScore tick feature ∧ weightedScore tick feature ≤ 100 := by
  have hbuys : (0 : ℚ) ≤ feature.largeBuyCount30m := by exact_mod_cast h.largeBuys
  have htx' : (0 : ℚ) ≤ tick.txCount1m := by exact_mod_cast htx
  have halpha : 0 ≤ min 100 (35 + tick.volume5m / 2000 + tick.liquidityUsd / 50000) :=
    le_min (by norm_num) (by linarith)
  have hsmart : 0 ≤ min 100 (15 + (feature.largeBuyCount30m : ℚ) * (22 / 10)) :=
    le_min (by norm_num) (by linarith)
  have hnarrative : 0 ≤ min 100 (10 + (tick.txCount1m : ℚ) * (8 / 10)) :=
    le_min (by norm_num) (by linarith)
  refine ⟨?_, weightedScore_le tick feature⟩
  unfold weightedScore momentum
  dsimp only
  linarith

theorem momentum_gt (h : tick.sells1m - tick.buys1m < 6680) : -10 ^ 4 < momentum tick := by
  have hcast : ((tick.sells1m : ℚ) - tick.buys1m < 6680) := by exact_mod_cast h
  apply lt_min (by norm_num)
  linarith

/-- The columns that are in range for every tick. -/
theorem confidence_between (feature : FeatureRowInput) :
    1 / 2 ≤ confidence feature ∧ confidence feature ≤ 98 / 100 :=
  ⟨le_max_left _ _, max_le (by norm_num) (min_le_left _ _)⟩

/-- The row of a tick fits exactly when its momentum does. -/
theorem scoreRow_holds (h : Bounded feature) (hvolume : 0 ≤ tick.volume5m)
    (hliquidity : 0 ≤ tick.liquidityUsd) (htx : 0 ≤ tick.txCount1m) :
    (∀ c ∈ scorePayload (e.scoreRow v tick feature), c.1.Holds c.2) ↔
      tick.sells1m - tick.buys1m < 6680 := by
  have hbuys : (0 : ℚ) ≤ feature.largeBuyCount30m := by exact_mod_cast h.largeBuys
  have htx' : (0 : ℚ) ≤ tick.txCount1m := by exact_mod_cast htx
  simp only [scorePayload, List.forall_mem_cons, List.not_mem_nil, false_implies, implies_true,
    and_true]
  constructor
  · rintro ⟨-, hmomentum, -⟩
    exact momentum_holds.mp hmomentum
  · intro hfew
    have hgt := momentum_gt hfew
    obtain ⟨hlow, hhigh⟩ := weightedScore_between h hvolume hliquidity htx
    obtain ⟨hrisk, hrisk'⟩ := h.riskPenalty_le
    obtain ⟨hconfidence, hconfidence'⟩ := confidence_between feature
    have hconviction := rawConviction_le tick feature
    have hfinal : Numeric.Holds ⟨10, 6⟩ (roundTo 6 (weightedScore tick feature -
        riskPenalty feature)) := holds_of_between (by linarith) (by linarith)
    refine ⟨part_holds ?_, momentum_holds.mpr hfew, part_holds ?_, part_holds ?_, ?_, hfinal, ?_,
      ?_⟩
    · linarith
    · linarith
    · linarith
    · show Numeric.Holds _ (roundTo 6 (riskPenalty feature))
      exact holds_of_between (by linarith) (by linarith)
    · rw [scoreRow_conviction]
      exact holds_of_between (by linarith [rawConviction_nonneg tick feature]) (by linarith)
    · show Numeric.Holds _ (roundTo 6 (confidence feature))
      exact holds_of_between (by linarith) (by linarith)

end Rows

/-! ### The ticks of a live source -/

theorem value_nonneg {x : Float} (h : 0 < x) : 0 ≤ value x := by
  have hlt : (Float.Model.UnpackedFloat.zero .positive).lt x.toModel.unpack = true :=
    of_decide_eq_true h
  unfold value
  cases hx : x.toModel.unpack with
  | notANumber => exact le_rfl
  | zero s => exact le_rfl
  | infinity s =>
    rw [hx] at hlt
    cases s with
    | negative => cases hlt
    | positive => positivity
  | finite s n t hn =>
    rw [hx] at hlt
    cases s with
    | negative => cases hlt
    | positive => positivity

theorem value_nonnegative (x : Float) : 0 ≤ value (nonnegative x) := by
  unfold nonnegative
  split
  · exact value_nonneg (by assumption)
  · exact le_rfl

/-- Counts that are stored are not negative. -/
theorem fifth_nonneg {n k : ℤ} (h : Ingestion.fifth n = .ok k) : 0 ≤ k := by
  obtain ⟨x, -, h⟩ := bind_eq_ok.mp h
  obtain ⟨i, -, h⟩ := bind_eq_ok.mp h
  cases h
  exact le_max_left _ _

section Ticks

variable {T : Text} {settings : Ingestion.Settings} {live : LiveSource} {ts : ℤ}
  {names : List String} {pairs : Dict String NormalizedPair}
  {ticks : List Ingestion.MarketTickInput}

/-- Each tick is the row of an acceptable pair. -/
theorem toRow_of_mem (h : live.toRows T settings ts names pairs = .ok ticks) :
    ∀ tick ∈ ticks, ∃ symbol pair, live.isAcceptable pair = true ∧
      LiveSource.toRow T settings ts symbol pair = .ok tick := by
  obtain ⟨made, hmade, hreduce⟩ := bind_eq_ok.mp h
  obtain rfl := Except.ok.inj hreduce
  intro tick htick
  have hmem := List.reduceOption_mem_iff.mp htick
  obtain ⟨symbol, -, hrow⟩ := forall₂_mem_left (mapM_eq_ok.mp hmade).flip hmem
  unfold LiveSource.rowOf at hrow
  split at hrow
  · cases hrow
  · rename_i pair hpair
    split at hrow
    · rename_i row hok
      cases hrow
      exact ⟨symbol, pair, (Option.filter_eq_some_iff.mp hpair).2, hok⟩
    · cases hrow

/-- The amounts of a tick are not negative, whatever the gates let through. -/
theorem tick_nonneg (h : live.toRows T settings ts names pairs = .ok ticks) :
    ∀ tick ∈ ticks, 0 ≤ value tick.volume5m ∧ 0 ≤ value tick.liquidityUsd ∧
      0 ≤ tick.txCount1m := by
  intro tick htick
  obtain ⟨symbol, pair, -, hrow⟩ := toRow_of_mem h tick htick
  simp only [LiveSource.toRow, bind_eq_ok] at hrow
  obtain ⟨_, -, _, -, txCount, htx, hrow⟩ := hrow
  rw [← Except.ok.inj hrow]
  exact ⟨value_nonnegative _, value_nonnegative _, fifth_nonneg htx⟩

/-- The rows of a run fit exactly when in no tick the sells exceed the buys by 6680 or more. -/
theorem rows_fit_iff {e : ScoringEngine} {strategyVersion : Option String}
    {rows : List ScoreRowInput} (hticks : live.toRows T settings ts names pairs = .ok ticks)
    (hrows : e.score (ticks.map exactTick) (buildFeatures (ticks.map exactTick)) strategyVersion =
      .ok rows) :
    Fits (buildFeatures (ticks.map exactTick)) rows ↔
      ∀ tick ∈ ticks, tick.sells1m - tick.buys1m < 6680 := by
  obtain ⟨-, hrows⟩ := ScoringEngine.score_eq_ok.mp hrows
  rw [List.forall₂_map_left_iff] at hrows
  have hfeatures : ∀ feature ∈ buildFeatures (ticks.map exactTick), Bounded feature := by
    intro feature hfeature
    obtain ⟨tick, -, rfl⟩ := List.mem_map.mp hfeature
    exact bounded_buildFeature tick
  have hrow : ∀ tick ∈ ticks, ∀ row, (∃ feature, featureOf (buildFeatures (ticks.map exactTick))
      (exactTick tick).tokenId = some feature ∧
        row = e.scoreRow (e.resolve strategyVersion) (exactTick tick) feature) →
      ((∀ c ∈ scorePayload row, c.1.Holds c.2) ↔ tick.sells1m - tick.buys1m < 6680) := by
    rintro tick htick _ ⟨feature, hfeature, rfl⟩
    obtain ⟨source, -, rfl⟩ := featureOf_buildFeatures hfeature
    obtain ⟨hvolume, hliquidity, htx⟩ := tick_nonneg hticks tick htick
    exact scoreRow_holds (bounded_buildFeature source) hvolume hliquidity htx
  constructor
  · rintro ⟨-, hfits⟩ tick htick
    obtain ⟨row, hmem, hscored⟩ := forall₂_mem_left hrows htick
    exact (hrow tick htick row hscored).mp (hfits row hmem)
  · intro hfew
    refine ⟨fun feature hfeature => (hfeatures feature hfeature).features_hold, ?_⟩
    intro row hmem
    obtain ⟨tick, htick, hscored⟩ := forall₂_mem_left hrows.flip hmem
    exact (hrow tick htick row hscored).mpr (hfew tick htick)

end Ticks

/-- The default gates of a chain without blacklists. -/
def defaultPolicy : Ingestion.DefaultPairQualityPolicy where
  dexBlacklistIds := ∅
  routeBlacklistKeywords := []
  minPairAgeSeconds := 300
  maxVolumeLiquidityRatio := 20

/-- A live source whose pairs pass the gates at second 1000. -/
def gatedSource : LiveSource :=
  Ingestion.DexScreenerSourceStrategy Ingestion.foreignAdapter
    (defaultPolicy.isAcceptable Text.plain 1000) "t1"

/-- The pair of a token that is sold in a rush, or not. -/
def soldPairs (sells : ℤ) : Dict String NormalizedPair :=
  Dict.ofPairs [("BNB", { Ingestion.pairOf "BNB" with buys5m := 0, sells5m := sells })]

def soldTick (sells : ℤ) : Ingestion.MarketTickInput where
  chainId := "bsc"
  tokenId := "bsc_bnb"
  tsMinute := 0
  priceUsd := 2
  volume1m := 100
  volume5m := 500
  liquidityUsd := 90000
  buys1m := 0
  sells1m := sells
  txCount1m := sells

theorem soldTick_holds {sells : ℤ} (h : 0 ≤ sells) :
    (∀ c ∈ scorePayload (defaultEngine.scoreRow "v1" (exactTick (soldTick sells))
      (buildFeature (exactTick (soldTick sells)))), c.1.Holds c.2) ↔ sells - 0 < 6680 :=
  scoreRow_holds (bounded_buildFeature _) (value_nonneg (show (0 : Float) < 500 by decide +kernel))
    (value_nonneg (show (0 : Float) < 90000 by decide +kernel)) h

theorem rows_fit_few :
    ∃ ticks rows, gatedSource.toRows Text.plain Ingestion.foreignSettings 0 ["BNB"]
        (soldPairs 33395) = .ok ticks ∧
      defaultEngine.score (ticks.map exactTick) (buildFeatures (ticks.map exactTick)) none =
        .ok rows ∧
      (Fits (buildFeatures (ticks.map exactTick)) rows ↔
        ∀ tick ∈ ticks, tick.sells1m - tick.buys1m < 6680) := by
  have hticks : gatedSource.toRows Text.plain Ingestion.foreignSettings 0 ["BNB"]
      (soldPairs 33395) = .ok [soldTick 6679] := toOption_eq_some.mp (by decide +kernel)
  have hrows : defaultEngine.score ([soldTick 6679].map exactTick)
      (buildFeatures ([soldTick 6679].map exactTick)) none = .ok [defaultEngine.scoreRow "v1"
        (exactTick (soldTick 6679)) (buildFeature (exactTick (soldTick 6679)))] :=
    ScoringEngine.score_eq_ok.mpr ⟨by decide, .cons ⟨_, rfl, rfl⟩ .nil⟩
  exact ⟨_, _, hticks, hrows, rows_fit_iff hticks hrows⟩

/-- A token that is sold 33400 times in five minutes has a momentum of -10000. -/
theorem sold_overflows :
    ¬∀ ticks, gatedSource.toRows Text.plain Ingestion.foreignSettings 0 ["BNB"]
        (soldPairs 33400) = .ok ticks →
      ∀ rows, defaultEngine.score (ticks.map exactTick) (buildFeatures (ticks.map exactTick))
        none = .ok rows → Fits (buildFeatures (ticks.map exactTick)) rows := by
  intro hall
  have hticks : gatedSource.toRows Text.plain Ingestion.foreignSettings 0 ["BNB"]
      (soldPairs 33400) = .ok [soldTick 6680] := toOption_eq_some.mp (by decide +kernel)
  have hrows : defaultEngine.score ([soldTick 6680].map exactTick)
      (buildFeatures ([soldTick 6680].map exactTick)) none = .ok [defaultEngine.scoreRow "v1"
        (exactTick (soldTick 6680)) (buildFeature (exactTick (soldTick 6680)))] :=
    ScoringEngine.score_eq_ok.mpr ⟨by decide, .cons ⟨_, rfl, rfl⟩ .nil⟩
  obtain ⟨-, hfits⟩ := hall _ hticks _ hrows
  rw [List.forall_mem_singleton, soldTick_holds (by norm_num)] at hfits
  exact absurd hfits (by norm_num)

end ChainMonitor.ScoreRows
