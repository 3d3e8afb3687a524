import ChainMonitor.App.PipelineService
import ChainMonitor.ProofKit.Attempt
import ChainMonitor.ProofKit.Decimal
import ChainMonitor.ProofKit.Dict

/-! `FeatureEngine.build_features` of `feature/feature_engine.py` and `ScoringEngine.score` of
`scoring/scoring_engine.py`, in exact arithmetic. -/

namespace ChainMonitor.Scoring

open ProofKit PipelineService Snapshots

structure FeatureRowInput where
  chainId : String
  tokenId : String
  tsMinute : ℤ
  netflowUsd5m : ℚ
  netflowUsd30m : ℚ
  largeBuyCount30m : ℤ
  newHolder30m : ℤ
  holderChurn24h : ℚ
  contractRiskScore : ℚ
  lpConcentration : ℚ
  holderConcentrationTop10 : ℚ
  washTradeScore : ℚ
  honeypotFlag : Bool
  deriving DecidableEq

def buildFeature (tick : MarketTickInput) : FeatureRowInput :=
  let buySellRatio : ℚ := tick.buys1m / max tick.sells1m 1
  let churn : ℚ := min (95 / 100) (max (1 / 100) (1 / max buySellRatio 1))
  let contractRisk : ℚ := min 1 (1 / 10 + ((tick.txCount1m % 15 : ℤ) : ℚ) / 100)
  let lpConcentration : ℚ := min 1 (2 / 10 + ((tick.buys1m % 50 : ℤ) : ℚ) / 100)
  let holderConcentration : ℚ := min 1 (35 / 100 + ((tick.sells1m % 45 : ℤ) : ℚ) / 100)
  let washTradeScore : ℚ := min 1 (((tick.txCount1m % 30 : ℤ) : ℚ) / 100)
  { chainId := tick.chainId
    tokenId := tick.tokenId
    tsMinute := tick.tsMinute
    netflowUsd5m := (tick.buys1m - tick.sells1m) * tick.priceUsd * 4
    netflowUsd30m := (tick.buys1m - tick.sells1m) * tick.priceUsd * 20
    largeBuyCount30m := max 0 (tick.buys1m / 6)
    newHolder30m := max 1 (tick.txCount1m / 4)
    holderChurn24h := roundTo 6 churn
    contractRiskScore := roundTo 6 contractRisk
    lpConcentration := roundTo 6 lpConcentration
    holderConcentrationTop10 := roundTo 6 holderConcentration
    washTradeScore := roundTo 6 washTradeScore
    honeypotFlag := false }

def buildFeatures (ticks : List MarketTickInput) : List FeatureRowInput := ticks.map buildFeature

inductive ScoringError
  | valueError (message : String)
  | keyError (key : String)
  deriving DecidableEq

structure Settings where
  tierAThreshold : ℚ
  tierBThreshold : ℚ
  tierCThreshold : ℚ

def defaultSettings : Settings := ⟨85, 70, 55⟩

structure ScoringEngine where
  settings : Settings
  strategyVersion : String

def defaultEngine : ScoringEngine := ⟨defaultSettings, "v1"⟩

def ScoringEngine.tier (e : ScoringEngine) (conviction : ℚ) : String :=
  if e.settings.tierAThreshold ≤ conviction then "A"
  else if e.settings.tierBThreshold ≤ conviction then "B"
  else if e.settings.tierCThreshold ≤ conviction then "C"
  else "C"

def reasonCodes (tick : MarketTickInput) (feature : FeatureRowInput) (conviction : ℚ) :
    List String :=
  let reasons := (if 250000 ≤ tick.liquidityUsd then ["liquidity_ok"] else []) ++
    (if 0 < feature.netflowUsd30m then ["positive_netflow"] else []) ++
    (if tick.sells1m < tick.buys1m then ["buy_pressure"] else []) ++
    (if conviction < 55 then ["low_conviction"] else [])
  if reasons = [] then ["insufficient_signal"] else reasons

/-- The score row of a tick with its features. -/
def ScoringEngine.scoreRow (e : ScoringEngine) (strategyVersion : String) (tick : MarketTickInput)
    (feature : FeatureRowInput) : ScoreRowInput :=
  let alpha : ℚ := min 100 (35 + tick.volume5m / 2000 + tick.liquidityUsd / 50000)
  let momentum : ℚ := min 100 (20 + (tick.buys1m - tick.sells1m) * (15 / 10))
  let smartMoney : ℚ := min 100 (15 + feature.largeBuyCount30m * (22 / 10))
  let narrative : ℚ := min 100 (10 + tick.txCount1m * (8 / 10))
  let riskPenalty : ℚ := feature.contractRiskScore * 20 + feature.lpConcentration * 12 +
    feature.holderConcentrationTop10 * 12 + feature.washTradeScore * 8 +
    (if feature.honeypotFlag then 40 else 0)
  let finalScore : ℚ := 55 / 100 * alpha + 20 / 100 * momentum + 15 / 100 * smartMoney +
    10 / 100 * narrative - riskPenalty
  let confidence : ℚ := max (1 / 2) (min (98 / 100) (85 / 100 - feature.washTradeScore * (2 / 10)))
  let conviction : ℚ := max 0 (min 100 (finalScore * confidence))
  { strategyVersion
    chainId := tick.chainId
    tokenId := tick.tokenId
    tsMinute := tick.tsMinute
    alphaScore := roundTo 6 alpha
    momentumScore := roundTo 6 momentum
    smartMoneyScore := roundTo 6 smartMoney
    narrativeScore := roundTo 6 narrative
    riskPenalty := roundTo 6 riskPenalty
    finalScore := roundTo 6 finalScore
    conviction := roundTo 6 conviction
    confidence := roundTo 6 confidence
    tier := e.tier conviction
    reasonCodes := reasonCodes tick feature conviction }

/-- `strategy_version or self.strategy_version`. -/
def ScoringEngine.resolve (e : ScoringEngine) (strategyVersion : Option String) : String :=
  match strategyVersion with
  | none => e.strategyVersion
  | some v => if v = "" then e.strategyVersion else v

def ScoringEngine.score (e : ScoringEngine) (ticks : List MarketTickInput)
    (features : List FeatureRowInput) (strategyVersion : Option String) :
    Except ScoringError (List ScoreRowInput) :=
  let resolved := e.resolve strategyVersion
  if resolved = "" then .error (.valueError "strategy_version is required for scoring")
  else
    let featureByToken := Dict.ofPairs (features.map fun f => (f.tokenId, f))
    ticks.mapM fun tick =>
      match featureByToken.get? tick.tokenId with
      | some feature => .ok (e.scoreRow resolved tick feature)
      | none => .error (.keyError tick.tokenId)

/-! ### What a row holds -/

def riskPenalty (feature : FeatureRowInput) : ℚ :=
  feature.contractRiskScore * 20 + feature.lpConcentration * 12 +
    feature.holderConcentrationTop10 * 12 + feature.washTradeScore * 8 +
    (if feature.honeypotFlag then 40 else 0)

/-- The score of the tick, weighted over its four parts, before the risk is taken off. -/
def weightedScore (tick : MarketTickInput) (feature : FeatureRowInput) : ℚ :=
  let alpha : ℚ := min 100 (35 + tick.volume5m / 2000 + tick.liquidityUsd / 50000)
  let momentum : ℚ := min 100 (20 + (tick.buys1m - tick.sells1m) * (15 / 10))
  let smartMoney : ℚ := min 100 (15 + feature.largeBuyCount30m * (22 / 10))
  let narrative : ℚ := min 100 (10 + tick.txCount1m * (8 / 10))
  55 / 100 * alpha + 20 / 100 * momentum + 15 / 100 * smartMoney + 10 / 100 * narrative

def confidence (feature : FeatureRowInput) : ℚ :=
  max (1 / 2) (min (98 / 100) (85 / 100 - feature.washTradeScore * (2 / 10)))

/-- `final_score * confidence`. -/
def signal (tick : MarketTickInput) (feature : FeatureRowInput) : ℚ :=
  (weightedScore tick feature - riskPenalty feature) * confidence feature

/-- The conviction before it is rounded. -/
def rawConviction (tick : MarketTickInput) (feature : FeatureRowInput) : ℚ :=
  max 0 (min 100 (signal tick feature))

section Rows

variable (e : ScoringEngine) (strategyVersion : String) (tick : MarketTickInput)
  (feature : FeatureRowInput)

theorem scoreRow_conviction : (e.scoreRow strategyVersion tick feature).conviction =
    roundTo 6 (rawConviction tick feature) := by
  simp only [ScoringEngine.scoreRow, rawConviction, signal, weightedScore, riskPenalty, confidence]

theorem scoreRow_tier : (e.scoreRow strategyVersion tick feature).tier =
    e.tier (rawConviction tick feature) := by
  simp only [ScoringEngine.scoreRow, rawConviction, signal, weightedScore, riskPenalty, confidence]

theorem scoreRow_reasonCodes : (e.scoreRow strategyVersion tick feature).reasonCodes =
    reasonCodes tick feature (rawConviction tick feature) := by
  simp only [ScoringEngine.scoreRow, rawConviction, signal, weightedScore, riskPenalty, confidence]

theorem rawConviction_nonneg : 0 ≤ rawConviction tick feature := le_max_left _ _

theorem rawConviction_le : rawConviction tick feature ≤ 100 :=
  max_le (by norm_num) (min_le_left _ _)

end Rows

section Signal

variable {tick : MarketTickInput} {feature : FeatureRowInput}

theorem rawConviction_of_signal (h0 : 0 ≤ signal tick feature) (h100 : signal tick feature ≤ 100) :
    rawConviction tick feature = signal tick feature := by
  rw [rawConviction, min_eq_right h100, max_eq_right h0]

/-- A conviction between the bounds is the signal. -/
theorem rawConviction_of_between (h0 : 0 < rawConviction tick feature)
    (h100 : rawConviction tick feature < 100) :
    rawConviction tick feature = signal tick feature := by
  have hpos : 0 < min 100 (signal tick feature) :=
    (lt_max_iff.mp h0).resolve_left (lt_irrefl 0)
  have hlt : min 100 (signal tick feature) < 100 := (max_lt_iff.mp h100).2
  have hsignal : signal tick feature < 100 := (min_lt_iff.mp hlt).resolve_left (lt_irrefl 100)
  exact rawConviction_of_signal (hpos.le.trans (min_le_right _ _)) hsignal.le

end Signal

/-- The last feature row of a token. -/
def featureOf (features : List FeatureRowInput) (tokenId : String) : Option FeatureRowInput :=
  features.reverse.find? fun f => f.tokenId = tokenId

theorem get?_featureByToken (features : List FeatureRowInput) (tokenId : String) :
    (Dict.ofPairs (features.map fun f => (f.tokenId, f))).get? tokenId =
      featureOf features tokenId := by
  rw [Dict.get?_ofPairs, ← List.map_reverse, List.find?_map, Option.map_map]
  exact Option.map_id'

/-- With a strategy version, each tick gets the row of the last features of its token. -/
theorem ScoringEngine.score_eq_ok {e : ScoringEngine} {ticks : List MarketTickInput}
    {features : List FeatureRowInput} {strategyVersion : Option String}
    {rows : List ScoreRowInput} :
    e.score ticks features strategyVersion = .ok rows ↔
      e.resolve strategyVersion ≠ "" ∧ List.Forall₂ (fun tick row =>
        ∃ feature, featureOf features tick.tokenId = some feature ∧
          row = e.scoreRow (e.resolve strategyVersion) tick feature) ticks rows := by
  unfold ScoringEngine.score
  dsimp only
  split
  · simp [*]
  · rename_i hversion
    rw [mapM_eq_ok]
    simp only [get?_featureByToken, ne_eq, hversion, not_false_eq_true, true_and]
    apply forall₂_congr_mem
    intro tick _ row
    cases featureOf features tick.tokenId with
    | none => simp
    | some feature => simp [eq_comm]

end ChainMonitor.Scoring
