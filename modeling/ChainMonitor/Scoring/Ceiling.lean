import ChainMonitor.Scoring.ScoringEngine

/-! The most that a tick can score. The features that `FeatureEngine.build_features` computes carry
a least risk, and `ScoringEngine.score` takes it off a score that it caps at 100. -/

namespace ChainMonitor.Scoring

open ProofKit PipelineService Snapshots

variable {e : ScoringEngine} {tick : MarketTickInput} {feature : FeatureRowInput}

/-- The risk that remains when every count is a multiple of its modulus. -/
structure LeastRisk (feature : FeatureRowInput) : Prop where
  contractRisk : 1 / 10 ≤ feature.contractRiskScore
  lpConcentration : 2 / 10 ≤ feature.lpConcentration
  holderConcentration : 35 / 100 ≤ feature.holderConcentrationTop10
  washTrade : 0 ≤ feature.washTradeScore

/-- A share that starts at a decimal fraction and grows with a residue is rounded to that fraction
or above it. -/
theorem le_share {base : ℚ} {n m : ℤ} (hbase : IsDecimal 6 base) (hle : base ≤ 1) (hm : m ≠ 0) :
    base ≤ roundTo 6 (min 1 (base + ((n % m : ℤ) : ℚ) / 100)) := by
  have hresidue : (0 : ℚ) ≤ ((n % m : ℤ) : ℚ) / 100 := by
    have hmod : (0 : ℚ) ≤ ((n % m : ℤ) : ℚ) := by exact_mod_cast Int.emod_nonneg n hm
    linarith
  apply le_roundTo_of_le hbase
  apply le_min hle
  linarith

theorem leastRisk_buildFeature (tick : MarketTickInput) : LeastRisk (buildFeature tick) where
  contractRisk := le_share ⟨100000, by norm_num⟩ (by norm_num) (by norm_num)
  lpConcentration := le_share ⟨200000, by norm_num⟩ (by norm_num) (by norm_num)
  holderConcentration := le_share ⟨350000, by norm_num⟩ (by norm_num) (by norm_num)
  washTrade := by
    have hshare : 0 ≤ roundTo 6 (min 1 (0 + ((tick.txCount1m % 30 : ℤ) : ℚ) / 100)) :=
      le_share (isDecimal_zero 6) (by norm_num) (by norm_num)
    rwa [zero_add] at hshare

theorem LeastRisk.riskPenalty_ge (h : LeastRisk feature) : 86 / 10 ≤ riskPenalty feature := by
  obtain ⟨hcontract, hlp, hholder, hwash⟩ := h
  have hhoneypot : (0 : ℚ) ≤ if feature.honeypotFlag then 40 else 0 := by
    split
    · norm_num
    · exact le_rfl
  unfold riskPenalty
  linarith

theorem LeastRisk.confidence_le (h : LeastRisk feature) : confidence feature ≤ 85 / 100 := by
  have hwash := h.washTrade
  apply max_le (by norm_num)
  apply (min_le_right _ _).trans
  linarith

theorem confidence_nonneg (feature : FeatureRowInput) : 0 ≤ confidence feature := by
  have hhalf : 1 / 2 ≤ confidence feature := le_max_left _ _
  linarith

/-- The weights of the four parts add up to one, and each part is at most 100. -/
theorem weightedScore_le (tick : MarketTickInput) (feature : FeatureRowInput) :
    weightedScore tick feature ≤ 100 := by
  have hcap : ∀ x : ℚ, min 100 x ≤ 100 := fun x => min_le_left _ _
  have halpha := hcap (35 + tick.volume5m / 2000 + tick.liquidityUsd / 50000)
  have hmomentum := hcap (20 + (tick.buys1m - tick.sells1m) * (15 / 10))
  have hsmart := hcap (15 + feature.largeBuyCount30m * (22 / 10))
  have hnarrative := hcap (10 + tick.txCount1m * (8 / 10))
  unfold weightedScore
  linarith

theorem LeastRisk.signal_le (h : LeastRisk feature) (tick : MarketTickInput) :
    signal tick feature ≤ 7769 / 100 := by
  have hscore := weightedScore_le tick feature
  have hrisk := h.riskPenalty_ge
  have hfinal : weightedScore tick feature - riskPenalty feature ≤ 914 / 10 := by linarith
  calc signal tick feature
      = (weightedScore tick feature - riskPenalty feature) * confidence feature := rfl
    _ ≤ 914 / 10 * confidence feature :=
        mul_le_mul_of_nonneg_right hfinal (confidence_nonneg feature)
    _ ≤ 914 / 10 * (85 / 100) := mul_le_mul_of_nonneg_left h.confidence_le (by norm_num)
    _ = 7769 / 100 := by norm_num

theorem LeastRisk.rawConviction_le (h : LeastRisk feature) (tick : MarketTickInput) :
    rawConviction tick feature ≤ 7769 / 100 :=
  max_le (by norm_num) ((min_le_right _ _).trans (h.signal_le tick))

theorem tier_ne_A {x : ℚ} (h : x < e.settings.tierAThreshold) : e.tier x ≠ "A" := by
  unfold ScoringEngine.tier
  rw [if_neg (not_le.mpr h)]
  split
  · decide
  · split
    · decide
    · decide

/-- The features that a tick is scored with are those of a tick of the list. -/
theorem featureOf_buildFeatures {ticks : List MarketTickInput} {tokenId : String}
    (h : featureOf (buildFeatures ticks) tokenId = some feature) :
    ∃ tick ∈ ticks, buildFeature tick = feature := by
  have hmem := List.mem_of_find?_eq_some h
  rw [List.mem_reverse] at hmem
  exact List.mem_map.mp hmem

/-- A row that the engine scores from the features of the same ticks is at most
`0.85 * (100 - 8.6)`, and a threshold above that leaves tier A empty. -/
theorem conviction_ceiling {ticks : List MarketTickInput} {strategyVersion : Option String}
    {rows : List ScoreRowInput}
    (h : e.score ticks (buildFeatures ticks) strategyVersion = .ok rows) :
    (∀ row ∈ rows, 0 ≤ row.conviction ∧ row.conviction ≤ 7769 / 100) ∧
    (7769 / 100 < e.settings.tierAThreshold →
      (∀ row ∈ rows, row.tier ≠ "A") ∧ ∀ r ∈ candidatePayload rows, r.tier ≠ "A") := by
  obtain ⟨-, hrows⟩ := ScoringEngine.score_eq_ok.mp h
  have hscored : ∀ row ∈ rows, ∃ tick feature, LeastRisk feature ∧
      row = e.scoreRow (e.resolve strategyVersion) tick feature := by
    intro row hrow
    obtain ⟨tick, -, feature, hfeature, rfl⟩ := forall₂_mem_left hrows.flip hrow
    obtain ⟨source, -, rfl⟩ := featureOf_buildFeatures hfeature
    exact ⟨tick, _, leastRisk_buildFeature source, rfl⟩
  constructor
  · intro row hrow
    obtain ⟨tick, feature, hrisk, rfl⟩ := hscored row hrow
    rw [scoreRow_conviction]
    constructor
    · exact le_roundTo_of_le (isDecimal_zero 6) (rawConviction_nonneg tick feature)
    · exact roundTo_le_of_le ⟨77690000, by norm_num⟩ (hrisk.rawConviction_le tick)
  · intro hthreshold
    have htier : ∀ row ∈ rows, row.tier ≠ "A" := by
      intro row hrow
      obtain ⟨tick, feature, hrisk, rfl⟩ := hscored row hrow
      rw [scoreRow_tier]
      exact tier_ne_A ((hrisk.rawConviction_le tick).trans_lt hthreshold)
    refine ⟨htier, ?_⟩
    intro r hr
    obtain ⟨row, hrow, rank, rfl⟩ := exists_of_mem_candidatePayload hr
    exact htier row hrow

/-- A tick with each part of its score at the cap, and no count that adds to its risk. -/
def cappedTick : MarketTickInput := ⟨"sol", "a", 0, 1, 0, 0, 3250000, 300, 0, 300⟩

theorem conviction_ceiling_capped :
    defaultEngine.score [cappedTick] (buildFeatures [cappedTick]) none =
      .ok [defaultEngine.scoreRow "v1" cappedTick (buildFeature cappedTick)] ∧
    (defaultEngine.scoreRow "v1" cappedTick (buildFeature cappedTick)).conviction = 7769 / 100 ∧
    (defaultEngine.scoreRow "v1" cappedTick (buildFeature cappedTick)).tier ≠ "A" := by
  have hscore : defaultEngine.score [cappedTick] (buildFeatures [cappedTick]) none =
      .ok [defaultEngine.scoreRow "v1" cappedTick (buildFeature cappedTick)] :=
    ScoringEngine.score_eq_ok.mpr ⟨by decide, .cons ⟨_, rfl, rfl⟩ .nil⟩
  refine ⟨hscore, by decide +kernel, ?_⟩
  exact ((conviction_ceiling hscore).2 (by decide +kernel)).1 _ (List.mem_singleton_self _)

end ChainMonitor.Scoring
