import ChainMonitor.Scanner.AnalyzeReturns
import Mathlib.Algebra.BigOperators.Ring.Finset
import Mathlib.Algebra.BigOperators.Ring.List

/-! The ratios of `_factor_breakdown` beside the shares that the factors have in their scores: the
query divides integers. -/

namespace ChainMonitor.Analyze

open ProofKit

variable {a : ScannerAnalyzer} {rows : List ResultRow} {k : String}

/-- The factor and the score of each row that a ratio is taken over. -/
def sharePairs (k : String) (rows : List ResultRow) : List (ℤ × ℤ) :=
  (shareRows rows).filterMap fun r =>
    (factorOf k r).bind fun n => r.scoreTotal.map fun total => (n, total)

/-- The average share. -/
def meanShare (pairs : List (ℤ × ℤ)) : ℚ :=
  (pairs.map fun p => (p.1 / p.2 : ℚ)).sum / pairs.length

/-- The average of the exact quotients. -/
def exactRatio (k : String) (rows : List ResultRow) : ℚ := meanShare (sharePairs k rows)

/-- The average of what is left over where a factor is divided by its score, in shares. -/
def meanRest (pairs : List (ℤ × ℤ)) : ℚ :=
  (pairs.map fun p => (p.1.tmod p.2 / p.2 : ℚ)).sum / pairs.length

/-- Each step of the rounding, half a thousandth and whole ones beyond it, that the average share
reaches in one direction it reaches by no less than what is left over. -/
def StepsKept (pairs : List (ℤ × ℤ)) : Prop :=
  ∀ m : ℕ, let step : ℚ := (2 * m + 1) / 2000
    (step ≤ meanShare pairs ↔ meanRest pairs ≤ meanShare pairs - step) ∧
    (meanShare pairs ≤ -step ↔ meanShare pairs + step ≤ meanRest pairs)

/-- The score of the row is the sum of its factors: it was not clamped. -/
def Unclamped (r : ResultRow) : Prop :=
  ∃ factors, List.Forall₂ (fun k n => factorOf k r = some n) factorKeys factors ∧
    r.scoreTotal = some factors.sum

/-! ### What a ratio is -/

theorem total_pos {p : ℤ × ℤ} (h : p ∈ sharePairs k rows) : 0 < p.2 := by
  obtain ⟨r, hr, hp⟩ := List.mem_filterMap.mp h
  obtain ⟨n, -, hp⟩ := Option.bind_eq_some_iff.mp hp
  obtain ⟨total, htotal, rfl⟩ := Option.map_eq_some_iff.mp hp
  obtain ⟨total', htotal', hpos⟩ := total_of_mem_shareRows hr
  obtain rfl : total = total' := Option.some_inj.mp (htotal.symm.trans htotal')
  exact hpos

/-- The quotients that the query averages. -/
theorem reduceOption_quotient (k : String) (rows : List ResultRow) :
    ((shareRows rows).map fun r => Sql.quotient (factorOf k r) r.scoreTotal).reduceOption =
      (sharePairs k rows).map fun p => p.1.tdiv p.2 := by
  rw [List.reduceOption, List.filterMap_map, sharePairs, List.map_filterMap]
  refine List.filterMap_congr fun r hr => ?_
  obtain ⟨total, htotal, -⟩ := total_of_mem_shareRows hr
  simp only [Function.comp_apply, id_eq, quotient_of_mem_shareRows hr]
  rw [htotal]
  cases factorOf k r with
  | none => rfl
  | some n => rfl

/-- The quotients without their fractions are the shares without what is left over. -/
theorem wholeShares_eq {pairs : List (ℤ × ℤ)} (hpos : ∀ p ∈ pairs, 0 < p.2) :
    (((pairs.map fun p => p.1.tdiv p.2).sum : ℤ) / pairs.length : ℚ) =
      meanShare pairs - meanRest pairs := by
  have hsplit : ∀ p ∈ pairs, (p.1 / p.2 : ℚ) = (p.1.tdiv p.2 : ℤ) + (p.1.tmod p.2 / p.2 : ℚ) := by
    intro p hp
    have hne : (p.2 : ℚ) ≠ 0 := by exact_mod_cast (hpos p hp).ne'
    have hdiv : (p.2 * p.1.tdiv p.2 + p.1.tmod p.2 : ℚ) = p.1 := by
      exact_mod_cast Int.mul_tdiv_add_tmod p.1 p.2
    field_simp
    linarith
  rw [meanShare, meanRest, ← sub_div, List.map_congr_left hsplit, List.sum_map_add,
    add_sub_cancel_right, Int.cast_list_sum, List.map_map]
  rfl

theorem ratio_eq {q : ℚ} (h : roundAvg 3 (share k) (shareRows rows) = .ok (some q)) :
    sharePairs k rows ≠ [] ∧
      q = Sql.round 3 (exactRatio k rows - meanRest (sharePairs k rows)) := by
  obtain ⟨values, hvalues, hq⟩ := bind_eq_ok.mp h
  have hmap : values = (shareRows rows).map fun r => Sql.quotient (factorOf k r) r.scoreTotal := by
    have hrows := (mapM_eq_ok.mp hvalues).imp fun r v hv => (share_eq_ok.mp hv).1.symm
    rw [map_eq_of_forall₂ (g := id) hrows, List.map_id]
  rw [hmap, reduceOption_quotient] at hq
  obtain ⟨x, hx, hround⟩ := Option.map_eq_some_iff.mp (Except.ok.inj hq)
  unfold Sql.avg at hx
  split at hx
  · cases hx
  · rename_i hne
    obtain rfl := Option.some_inj.mp hx
    refine ⟨fun hnil => hne (by rw [hnil]; rfl), ?_⟩
    rw [← hround, List.length_map, exactRatio, ← wholeShares_eq fun p => total_pos]

/-- A ratio is the rounded share when the steps of the rounding are kept. -/
theorem round_ratio_iff {pairs : List (ℤ × ℤ)} :
    Sql.round 3 (meanShare pairs - meanRest pairs) = Sql.round 3 (meanShare pairs) ↔
      StepsKept pairs := by
  rw [eq_comm, Sql.round_eq_iff, Sql.roundAway_eq_iff]
  refine forall_congr' fun m => ?_
  have hle : ∀ x : ℚ, (m + 1 / 2 : ℚ) ≤ x * 10 ^ 3 ↔ (2 * m + 1) / 2000 ≤ x := by
    intro x
    constructor
    · intro h
      linarith
    · intro h
      linarith
  have hge : ∀ x : ℚ, x * 10 ^ 3 ≤ -(m + 1 / 2 : ℚ) ↔ x ≤ -((2 * m + 1) / 2000) := by
    intro x
    constructor
    · intro h
      linarith
    · intro h
      linarith
  rw [hle, hle, hge, hge]
  refine and_congr (iff_congr Iff.rfl le_sub_comm) (iff_congr Iff.rfl ?_)
  rw [sub_le_iff_le_add, ← sub_eq_neg_add, le_sub_iff_add_le]

theorem stepsKept_of_tmod {pairs : List (ℤ × ℤ)} (h : ∀ p ∈ pairs, p.1.tmod p.2 = 0) :
    StepsKept pairs := by
  have hrest : meanRest pairs = 0 := by
    rw [meanRest, List.sum_eq_zero, zero_div]
    intro x hx
    obtain ⟨p, hp, rfl⟩ := List.mem_map.mp hx
    rw [h p hp, Int.cast_zero, zero_div]
  intro m
  rw [hrest]
  exact ⟨sub_nonneg.symm, le_neg_iff_add_nonpos_right⟩

/-- Where every factor is less than its score, nothing but a share that rounds to zero is kept. -/
theorem stepsKept_iff_of_lt {pairs : List (ℤ × ℤ)} (h : ∀ p ∈ pairs, 0 ≤ p.1 ∧ p.1 < p.2) :
    StepsKept pairs ↔ meanShare pairs < 1 / 2000 := by
  have hrest : meanRest pairs = meanShare pairs := by
    rw [meanRest, meanShare, List.map_congr_left fun p hp => ?_]
    rw [Int.tmod_eq_of_lt (h p hp).1 (h p hp).2]
  have hnonneg : 0 ≤ meanShare pairs := by
    refine div_nonneg (List.sum_nonneg fun x hx => ?_) (Nat.cast_nonneg _)
    obtain ⟨p, hp, rfl⟩ := List.mem_map.mp hx
    obtain ⟨hfactor, htotal⟩ := h p hp
    exact div_nonneg (by exact_mod_cast hfactor) (by exact_mod_cast hfactor.trans htotal.le)
  constructor
  · intro hkept
    by_contra hreached
    have hstep := (hkept 0).1.mp (by push_cast; linarith)
    rw [hrest] at hstep
    push_cast at hstep
    linarith
  · intro hsmall m
    have hm : (0 : ℚ) ≤ m := Nat.cast_nonneg m
    rw [hrest]
    exact ⟨iff_of_false (by linarith) (by linarith), iff_of_false (by linarith) (by linarith)⟩

/-! ### Scores that were not clamped -/

theorem unclamped_of_map {r : ResultRow} {factors : List ℤ}
    (h : factorKeys.map (factorOf · r) = factors.map some)
    (htotal : r.scoreTotal = some factors.sum) : Unclamped r := by
  refine ⟨factors, ?_, htotal⟩
  rw [← List.forall₂_map_left_iff (f := (factorOf · r)) (R := fun x n => x = some n), h,
    List.forall₂_map_left_iff]
  exact List.forall₂_same.mpr fun _ _ => rfl

theorem sharePairs_of_unclamped (h : ∀ r ∈ shareRows rows, Unclamped r) (hk : k ∈ factorKeys) :
    sharePairs k rows = (shareRows rows).map fun r =>
      ((factorOf k r).getD 0, r.scoreTotal.getD 0) := by
  rw [sharePairs, ← List.filterMap_eq_map]
  refine List.filterMap_congr fun r hr => ?_
  obtain ⟨factors, hfactors, htotal⟩ := h r hr
  obtain ⟨n, -, hn⟩ := forall₂_mem_left hfactors hk
  simp [hn, htotal]

/-- The shares of a score that was not clamped are together 1. -/
theorem sum_shares_of_unclamped {r : ResultRow} (h : Unclamped r) (hpos : 0 < r.scoreTotal.getD 0) :
    (factorKeys.map fun k => ((factorOf k r).getD 0 / r.scoreTotal.getD 0 : ℚ)).sum = 1 := by
  obtain ⟨factors, hfactors, htotal⟩ := h
  have hmap : factors = factorKeys.map fun k => (factorOf k r).getD 0 := by
    rw [map_eq_of_forall₂ (g := id) (hfactors.imp fun k n hn => by rw [hn]; rfl), List.map_id]
  rw [htotal, Option.getD_some] at hpos ⊢
  have hne : (factors.sum : ℚ) ≠ 0 := by exact_mod_cast hpos.ne'
  calc (factorKeys.map fun k => ((factorOf k r).getD 0 / factors.sum : ℚ)).sum
      = (factorKeys.map fun k => ((factorOf k r).getD 0 : ℚ)).sum / factors.sum := by
        simp only [div_eq_mul_inv, List.sum_map_mul_right]
    _ = factors.sum / factors.sum := by
        congr 1
        rw [hmap, Int.cast_list_sum, List.map_map]
        rfl
    _ = 1 := div_self hne

theorem sum_exactShares {part : List ResultRow}
    (h : ∀ r ∈ part, Unclamped r ∧ 0 < r.scoreTotal.getD 0) :
    (factorKeys.map fun k =>
      (part.map fun r => ((factorOf k r).getD 0 / r.scoreTotal.getD 0 : ℚ)).sum).sum =
      part.length := by
  induction part with
  | nil => simp
  | cons r part ih =>
    obtain ⟨⟨hr, hpos⟩, hpart⟩ := List.forall_mem_cons.mp h
    simp only [List.map_cons, List.sum_cons, List.sum_map_add, ih hpart,
      sum_shares_of_unclamped hr hpos, List.length_cons]
    push_cast
    ring

theorem sum_exactRatio (h : ∀ r ∈ shareRows rows, Unclamped r) (hne : shareRows rows ≠ []) :
    (factorKeys.map fun k => exactRatio k rows).sum = 1 := by
  have hlen : ((shareRows rows).length : ℚ) ≠ 0 := by
    exact_mod_cast (List.length_pos_iff.mpr hne).ne'
  have hpos : ∀ r ∈ shareRows rows, Unclamped r ∧ 0 < r.scoreTotal.getD 0 := by
    intro r hr
    obtain ⟨total, htotal, hpos⟩ := total_of_mem_shareRows hr
    exact ⟨h r hr, by rwa [htotal]⟩
  have hratio : ∀ k ∈ factorKeys, exactRatio k rows = ((shareRows rows).map fun r =>
      ((factorOf k r).getD 0 / r.scoreTotal.getD 0 : ℚ)).sum * ((shareRows rows).length : ℚ)⁻¹ := by
    intro k hk
    rw [exactRatio, meanShare, sharePairs_of_unclamped h hk, List.map_map, List.length_map,
      div_eq_mul_inv]
    rfl
  rw [List.map_congr_left hratio, List.sum_map_mul_right, sum_exactShares hpos,
    mul_inv_cancel₀ hlen]

theorem abs_sum_sub_le {α : Type} {f g : α → ℚ} {c : ℚ} {as : List α}
    (h : ∀ x ∈ as, |f x - g x| ≤ c) : |(as.map f).sum - (as.map g).sum| ≤ as.length * c := by
  induction as with
  | nil => simp
  | cons x as ih =>
    obtain ⟨hx, has⟩ := List.forall_mem_cons.mp h
    have hsplit : ((x :: as).map f).sum - ((x :: as).map g).sum =
        (f x - g x) + ((as.map f).sum - (as.map g).sum) := by
      simp only [List.map_cons, List.sum_cons]
      ring
    calc |((x :: as).map f).sum - ((x :: as).map g).sum|
        ≤ |f x - g x| + |(as.map f).sum - (as.map g).sum| := hsplit ▸ abs_add_le _ _
      _ ≤ c + as.length * c := add_le_add hx (ih has)
      _ = (x :: as).length * c := by
        rw [List.length_cons]
        push_cast
        ring

/-- The sum that `AlphaScorer.score` keeps between 0 and 100. -/
def factorSum (b : Detector.Breakdown) : ℤ :=
  b.smartMoney + b.rankMomentum + b.volumeQuality + b.volumeAcceleration + b.structural +
    b.timeframe + b.riskPenalty

theorem map_factorOf {b : Detector.Breakdown} {r : ResultRow}
    (hb : r.scoreBreakdown = some (Orchestrator.breakdownDict b)) :
    factorKeys.map (factorOf · r) = [b.smartMoney, b.rankMomentum, b.volumeQuality, b.structural,
      b.volumeAcceleration, b.timeframe, b.riskPenalty].map some := by
  simp only [factorKeys, factorOf, hb, Option.bind_some]
  rfl

/-- The score that the scorer gives is not clamped when the factors are together between 0 and
100. -/
theorem unclamped_iff {reasonText : Detector.FilterReason → String}
    {row : Orchestrator.TokenProcessed} {b : Detector.Breakdown} {r : ResultRow}
    (h : insert (declared reasonText row) = some r) (hb : row.scoreBreakdown = some b)
    (htotal : row.scoreTotal = some b.total) :
    Unclamped r ↔ 0 ≤ factorSum b ∧ factorSum b ≤ 100 := by
  obtain ⟨hscore, hdict⟩ := insert_declared h hb
  have hmap := map_factorOf hdict
  have hclamp : b.total = factorSum b ↔ 0 ≤ factorSum b ∧ factorSum b ≤ 100 := by
    unfold Detector.Breakdown.total factorSum
    omega
  have hsum : [b.smartMoney, b.rankMomentum, b.volumeQuality, b.structural, b.volumeAcceleration,
      b.timeframe, b.riskPenalty].sum = factorSum b := by
    simp only [List.sum_cons, List.sum_nil, factorSum]
    omega
  rw [← hclamp]
  constructor
  · rintro ⟨factors, hfactors, hfactorSum⟩
    rw [hscore, htotal] at hfactorSum
    have hsame := (map_eq_of_forall₂ hfactors).symm.trans hmap
    rw [List.map_inj_right fun _ _ => Option.some_inj.mp] at hsame
    rw [Option.some_inj.mp hfactorSum, hsame, hsum]
  · intro heq
    rw [heq, ← hsum] at htotal
    exact unclamped_of_map hmap (hscore.trans htotal)

/-! ### The report -/

variable {fb : FactorBreakdown}

theorem overallRatios_of_ok (h : factorBreakdown a rows = .ok fb) :
    overallRatios rows = .ok fb.overallRatios := by
  obtain ⟨averages, -, hrest⟩ := bind_eq_ok.mp h
  obtain ⟨samples, -, hrest⟩ := bind_eq_ok.mp hrest
  obtain ⟨ratios, hratios, hrest⟩ := bind_eq_ok.mp hrest
  obtain ⟨levels, -, hfb⟩ := bind_eq_ok.mp hrest
  cases hfb
  exact hratios

/-- The reported ratios are the rounded shares exactly when the steps of the rounding are kept for
every factor: where the factor is less than the score in every row, when its shares average below
half a thousandth. Then the ratios of scores that were not clamped add up to 1 but for the
rounding. -/
theorem ratios_true_iff (h : factorBreakdown a rows = .ok fb) :
    ((∀ kx ∈ fb.overallRatios, kx.2 = Sql.round 3 (exactRatio kx.1 rows)) ↔
      ∀ k ∈ factorKeys, StepsKept (sharePairs k rows)) ∧
    (∀ k ∈ factorKeys, (∀ p ∈ sharePairs k rows, 0 ≤ p.1 ∧ p.1 < p.2) →
      (StepsKept (sharePairs k rows) ↔ exactRatio k rows < 1 / 2000)) ∧
    ((∀ k ∈ factorKeys, StepsKept (sharePairs k rows)) →
      (∀ r ∈ shareRows rows, Unclamped r) →
      |(fb.overallRatios.map Prod.snd).sum - 1| ≤ 7 / 2000) := by
  have hratios := overallRatios_eq_ok.mp (overallRatios_of_ok h)
  have hiff : (∀ kx ∈ fb.overallRatios, kx.2 = Sql.round 3 (exactRatio kx.1 rows)) ↔
      ∀ k ∈ factorKeys, StepsKept (sharePairs k rows) := by
    refine forall_mem_iff_of_forall₂ (hratios.flip.imp ?_)
    rintro ⟨l, q⟩ k ⟨rfl, hq⟩
    obtain ⟨-, hvalue⟩ := ratio_eq hq
    rw [hvalue]
    exact round_ratio_iff
  refine ⟨hiff, fun k _ hless => stepsKept_iff_of_lt hless, fun hkept hunclamped => ?_⟩
  have hrounded := hiff.mpr hkept
  have hne : shareRows rows ≠ [] := by
    obtain ⟨kx, -, -, hq⟩ := forall₂_mem_left hratios (show "smart_money" ∈ factorKeys by decide)
    intro hnil
    exact (ratio_eq hq).1 (by rw [sharePairs, hnil]; rfl)
  have hkeys : fb.overallRatios.map Prod.fst = factorKeys := by
    rw [map_eq_of_forall₂ (g := id) (hratios.flip.imp fun kx k hk => hk.1), List.map_id]
  have hmap : fb.overallRatios.map Prod.snd =
      factorKeys.map fun k => Sql.round 3 (exactRatio k rows) := by
    rw [List.map_congr_left hrounded, ← hkeys, List.map_map]
    rfl
  rw [hmap, ← sum_exactRatio hunclamped hne]
  calc |(factorKeys.map fun k => Sql.round 3 (exactRatio k rows)).sum -
        (factorKeys.map fun k => exactRatio k rows).sum|
      ≤ factorKeys.length * (1 / (2 * 10 ^ 3)) :=
        abs_sum_sub_le fun k _ => Sql.abs_round_sub_le 3 _
    _ = 7 / 2000 := by norm_num [factorKeys]

def scoredAnalyzer : ScannerAnalyzer := ⟨0, 0, fun _ _ => true⟩

/-- A token of score 20, all of it of one factor. -/
def smartEvent : TokenProcessed where
  chain := "sol"
  interval := "1m"
  scannedAt := 0
  address := "A"
  symbol := "A"
  filterPassed := true
  filterReason := ""
  scoreTotal := some 20
  scoreBreakdown := some (Dict.ofPairs [("smart_money", 20), ("rank_momentum", 0),
    ("volume_quality", 0), ("volume_acceleration", 0), ("structure", 0), ("timeframe", 0),
    ("risk_penalty", 0)])
  signalEmitted := false
  signalLevel := none
  cooldownSkipped := false

def smartReport : FactorBreakdown where
  overallAverages := [("smart_money", 20), ("rank_momentum", 0), ("volume_quality", 0),
    ("structure", 0), ("volume_acceleration", 0), ("timeframe", 0), ("risk_penalty", 0)]
  overallRatios := [("smart_money", 1), ("rank_momentum", 0), ("volume_quality", 0),
    ("structure", 0), ("volume_acceleration", 0), ("timeframe", 0), ("risk_penalty", 0)]
  sampleCount := 1
  bySignalLevel := []

theorem ratios_true_iff_smart :
    (∀ kx ∈ smartReport.overallRatios, kx.2 = Sql.round 3
      (exactRatio kx.1 (period scoredAnalyzer (table [smartEvent])))) ∧
    |(smartReport.overallRatios.map Prod.snd).sum - 1| ≤ 7 / 2000 := by
  have hreport : factorBreakdown scoredAnalyzer (period scoredAnalyzer (table [smartEvent])) =
      .ok smartReport := by decide +kernel
  have hwhole : ∀ k ∈ factorKeys, ∀ p ∈ sharePairs k (period scoredAnalyzer (table [smartEvent])),
      p.1.tmod p.2 = 0 := by decide +kernel
  have hrows : ∀ r ∈ shareRows (period scoredAnalyzer (table [smartEvent])),
      factorKeys.map (factorOf · r) = [20, 0, 0, 0, 0, 0, 0].map some ∧ r.scoreTotal = some 20 := by
    decide +kernel
  obtain ⟨hiff, -, hsum⟩ := ratios_true_iff hreport
  have hkept : ∀ k ∈ factorKeys,
      StepsKept (sharePairs k (period scoredAnalyzer (table [smartEvent]))) :=
    fun k hk => stepsKept_of_tmod (hwhole k hk)
  refine ⟨hiff.mpr hkept, hsum hkept fun r hr => ?_⟩
  obtain ⟨hmap, htotal⟩ := hrows r hr
  exact unclamped_of_map hmap htotal

/-- A token of score 65. -/
def scoredEvent : TokenProcessed :=
  { smartEvent with
    scoreTotal := some 65
    scoreBreakdown := some (Dict.ofPairs [("smart_money", 20), ("rank_momentum", 20),
      ("volume_quality", 10), ("volume_acceleration", 5), ("structure", 10), ("timeframe", 0),
      ("risk_penalty", 0)]) }

def scoredReport : FactorBreakdown where
  overallAverages := [("smart_money", 20), ("rank_momentum", 20), ("volume_quality", 10),
    ("structure", 10), ("volume_acceleration", 5), ("timeframe", 0), ("risk_penalty", 0)]
  overallRatios := factorKeys.map fun k => (k, 0)
  sampleCount := 1
  bySignalLevel := []

/-- 20 of 65 are reported as no share at all. -/
theorem ratio_truncated :
    ¬∀ (a : ScannerAnalyzer) (events : List TokenProcessed) (fb : FactorBreakdown),
      factorBreakdown a (period a (table events)) = .ok fb →
      ∀ kx ∈ fb.overallRatios,
        kx.2 = Sql.round 3 (exactRatio kx.1 (period a (table events))) := by
  intro h
  have hreport : factorBreakdown scoredAnalyzer (period scoredAnalyzer (table [scoredEvent])) =
      .ok scoredReport := by decide +kernel
  have hshare := h scoredAnalyzer [scoredEvent] scoredReport hreport ("smart_money", 0) (by decide)
  exact absurd hshare (by decide +kernel)

end ChainMonitor.Analyze
