import ChainMonitor.Scoring.ScoringEngine

/-! Whether a score row agrees with itself: `ScoringEngine.score` decides the tier and the reasons
on the conviction before it is rounded, and stores the rounded one. -/

namespace ChainMonitor.Scoring

open ProofKit PipelineService Snapshots

/-- The tier and the reason of low conviction are those of the conviction that the row stores. -/
structure Agrees (e : ScoringEngine) (row : ScoreRowInput) : Prop where
  tier : row.tier = e.tier row.conviction
  lowConviction : "low_conviction" ∈ row.reasonCodes ↔ row.conviction < 55

/-- The signal lies below the threshold by less than half of the sixth place, or by half of it when
the sixth digit of the threshold is even. -/
def JustBelow (t : ℚ) (tick : MarketTickInput) (feature : FeatureRowInput) : Prop :=
  0 < t ∧ t ≤ 100 ∧ signal tick feature < t ∧
    (t - 1 / 2 / 10 ^ 6 < signal tick feature ∨
      t - 1 / 2 / 10 ^ 6 = signal tick feature ∧ IsDecimal 6 (t / 2))

variable {e : ScoringEngine} {tick : MarketTickInput} {feature : FeatureRowInput} {t x : ℚ}

/-- Just below a threshold the rounded conviction reaches it, although the unrounded one does
not. -/
theorem justBelow_iff (ht : IsDecimal 6 t) : JustBelow t tick feature ↔
    rawConviction tick feature < t ∧ t ≤ roundTo 6 (rawConviction tick feature) := by
  unfold JustBelow
  constructor
  · rintro ⟨hpos, hle, hlt, hnear⟩
    have hplace := ht.le_of_pos hpos
    have hge : t - 1 / 2 / 10 ^ 6 ≤ signal tick feature :=
      hnear.elim le_of_lt fun h => h.1.le
    have h0 : 0 ≤ signal tick feature := by linarith
    rw [rawConviction_of_signal h0 (hlt.le.trans hle), le_roundTo_iff _ ht]
    exact ⟨hlt, hnear⟩
  · rintro ⟨hlt, hround⟩
    have hpos := (rawConviction_nonneg tick feature).trans_lt hlt
    have hle : t ≤ 100 := hround.trans
      (roundTo_le_of_le (isDecimal_natCast 6 100) (rawConviction_le tick feature))
    have hplace := ht.le_of_pos hpos
    rw [le_roundTo_iff _ ht] at hround
    have hge : t - 1 / 2 / 10 ^ 6 ≤ rawConviction tick feature :=
      hround.elim le_of_lt fun h => h.1.le
    have hinside : 0 < rawConviction tick feature := by linarith
    have hraw := rawConviction_of_between hinside (hlt.trans_le hle)
    rw [hraw] at hlt hround
    exact ⟨hpos, hle, hlt, hround⟩

theorem tier_roundTo_iff (ha : IsDecimal 6 e.settings.tierAThreshold)
    (hb : IsDecimal 6 e.settings.tierBThreshold)
    (hba : e.settings.tierBThreshold ≤ e.settings.tierAThreshold) :
    e.tier x = e.tier (roundTo 6 x) ↔
      ¬(x < e.settings.tierAThreshold ∧ e.settings.tierAThreshold ≤ roundTo 6 x) ∧
      ¬(x < e.settings.tierBThreshold ∧ e.settings.tierBThreshold ≤ roundTo 6 x) := by
  have hliftA := le_roundTo_of_le (q := x) ha
  have hliftB := le_roundTo_of_le (q := x) hb
  unfold ScoringEngine.tier
  by_cases hxa : e.settings.tierAThreshold ≤ x
  · simp [hxa, hliftA hxa, hba.trans hxa]
  · by_cases hra : e.settings.tierAThreshold ≤ roundTo 6 x
    · by_cases hxb : e.settings.tierBThreshold ≤ x
      · simp [hxa, hra, hxb, not_le.mp hxa]
      · simp [hxa, hra, hxb, not_le.mp hxa]
    · by_cases hxb : e.settings.tierBThreshold ≤ x
      · simp [hxa, hra, hxb, hliftB hxb]
      · simp [hxa, hra, hxb, not_le.mp hxb]

theorem lowConviction_mem_iff (tick : MarketTickInput) (feature : FeatureRowInput) (x : ℚ) :
    "low_conviction" ∈ reasonCodes tick feature x ↔ x < 55 := by
  have hreplace : ∀ reasons : List String, "low_conviction" ∈
      (if reasons = [] then ["insufficient_signal"] else reasons) ↔
        "low_conviction" ∈ reasons := by
    intro reasons
    cases reasons with
    | nil => simp
    | cons reason reasons => simp
  unfold reasonCodes
  dsimp only
  rw [hreplace]
  simp

/-- A row agrees with itself when its signal is not just below one of the numbers that decide. -/
theorem agrees_scoreRow_iff (ha : IsDecimal 6 e.settings.tierAThreshold)
    (hb : IsDecimal 6 e.settings.tierBThreshold)
    (hba : e.settings.tierBThreshold ≤ e.settings.tierAThreshold) (strategyVersion : String) :
    Agrees e (e.scoreRow strategyVersion tick feature) ↔
      ∀ t ∈ [e.settings.tierAThreshold, e.settings.tierBThreshold, 55],
        ¬JustBelow t tick feature := by
  have h55 : IsDecimal 6 55 := isDecimal_natCast 6 55
  have htier := tier_roundTo_iff (x := rawConviction tick feature) ha hb hba
  rw [← justBelow_iff ha, ← justBelow_iff hb] at htier
  have hlow : (rawConviction tick feature < 55 ↔ roundTo 6 (rawConviction tick feature) < 55) ↔
      ¬JustBelow 55 tick feature := by
    rw [justBelow_iff h55]
    exact lt_iff_roundTo_lt_iff h55
  have hrow : Agrees e (e.scoreRow strategyVersion tick feature) ↔
      e.tier (rawConviction tick feature) = e.tier (roundTo 6 (rawConviction tick feature)) ∧
      (rawConviction tick feature < 55 ↔ roundTo 6 (rawConviction tick feature) < 55) := by
    rw [← lowConviction_mem_iff tick feature, ← scoreRow_tier e strategyVersion,
      ← scoreRow_conviction e strategyVersion, ← scoreRow_reasonCodes e strategyVersion]
    exact ⟨fun h => ⟨h.tier, h.lowConviction⟩, fun h => ⟨h.1, h.2⟩⟩
  rw [hrow, htier, hlow]
  simp [and_assoc]

/-- Every row of a call agrees with itself exactly when no tick with the features of its token has a
signal just below the threshold of tier A, that of tier B, or the 55 of the reason. -/
theorem stored_agrees_iff (ha : IsDecimal 6 e.settings.tierAThreshold)
    (hb : IsDecimal 6 e.settings.tierBThreshold)
    (hba : e.settings.tierBThreshold ≤ e.settings.tierAThreshold) {ticks : List MarketTickInput}
    {features : List FeatureRowInput} {strategyVersion : Option String}
    {rows : List ScoreRowInput} (h : e.score ticks features strategyVersion = .ok rows) :
    (∀ row ∈ rows, Agrees e row) ↔
      ∀ tick ∈ ticks, ∀ feature, featureOf features tick.tokenId = some feature →
        ∀ t ∈ [e.settings.tierAThreshold, e.settings.tierBThreshold, 55],
          ¬JustBelow t tick feature := by
  obtain ⟨-, hrows⟩ := ScoringEngine.score_eq_ok.mp h
  constructor
  · intro hagree tick htick feature hfeature
    obtain ⟨row, hrow, feature', hfeature', rfl⟩ := forall₂_mem_left hrows htick
    obtain rfl := Option.some.inj (hfeature.symm.trans hfeature')
    exact (agrees_scoreRow_iff ha hb hba _).mp (hagree _ hrow)
  · intro hsettled row hrow
    obtain ⟨tick, htick, feature, hfeature, rfl⟩ := forall₂_mem_left hrows.flip hrow
    exact (agrees_scoreRow_iff ha hb hba _).mpr (hsettled tick htick feature hfeature)

/-! ### A row that is stored with conviction 70 and tier C -/

/-- A tick with 300 buys in the minute and no sells. -/
def buyingTick (liquidityUsd : ℚ) : MarketTickInput :=
  ⟨"sol", "a", 0, 1, 0, 0, liquidityUsd, 300, 0, 300⟩

def liftedTick : MarketTickInput := buyingTick (24275401 / 10)

def liftedRow : ScoreRowInput := defaultEngine.scoreRow "v1" liftedTick (buildFeature liftedTick)

theorem score_liftedTick :
    defaultEngine.score [liftedTick] (buildFeatures [liftedTick]) none = .ok [liftedRow] :=
  ScoringEngine.score_eq_ok.mpr ⟨by decide, .cons ⟨_, rfl, rfl⟩ .nil⟩

theorem signal_liftedTick :
    signal liftedTick (buildFeature liftedTick) = 69999999935 / 1000000000 := by
  decide +kernel

theorem stored_agrees_lifted : (∀ row ∈ [liftedRow], Agrees defaultEngine row) ↔
    ∀ tick ∈ [liftedTick], ∀ feature,
      featureOf (buildFeatures [liftedTick]) tick.tokenId = some feature →
        ∀ t ∈ [defaultEngine.settings.tierAThreshold, defaultEngine.settings.tierBThreshold, 55],
          ¬JustBelow t tick feature :=
  stored_agrees_iff (isDecimal_natCast 6 85) (isDecimal_natCast 6 70) (by decide +kernel)
    score_liftedTick

/-- The unrounded conviction of the row is below 70 and the stored one is 70. -/
theorem lifted_row_disagrees : ¬ ∀ (e : ScoringEngine) (ticks : List MarketTickInput)
    (features : List FeatureRowInput) (strategyVersion : Option String)
    (rows : List ScoreRowInput), IsDecimal 6 e.settings.tierAThreshold →
      IsDecimal 6 e.settings.tierBThreshold → IsDecimal 6 e.settings.tierCThreshold →
      e.settings.tierBThreshold ≤ e.settings.tierAThreshold →
      e.settings.tierCThreshold ≤ e.settings.tierBThreshold →
      e.score ticks features strategyVersion = .ok rows → ∀ row ∈ rows, Agrees e row := by
  intro h
  have hagree := h defaultEngine _ _ _ _ (isDecimal_natCast 6 85) (isDecimal_natCast 6 70)
    (isDecimal_natCast 6 55) (by decide +kernel) (by decide +kernel) score_liftedTick liftedRow
    (List.mem_singleton_self _)
  have hbelow : JustBelow 70 liftedTick (buildFeature liftedTick) := by
    rw [JustBelow, signal_liftedTick]
    norm_num
  exact (agrees_scoreRow_iff (isDecimal_natCast 6 85) (isDecimal_natCast 6 70)
    (by decide +kernel) "v1").mp hagree 70 (by simp [defaultEngine, defaultSettings]) hbelow

end ChainMonitor.Scoring
