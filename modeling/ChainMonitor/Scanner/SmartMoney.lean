import ChainMonitor.ProofKit.IntRatio
import ChainMonitor.Scanner.Detector

/-! The smart money part of `AlphaScorer.score` in `scanner/detector.py`: what the boost comes to
for every pair of counts, and when the score favours a low base. -/

namespace ChainMonitor.Detector

open ProofKit PyFloat Binary64

/-! ### The boost -/

/-- A ratio from here on overflows, or its product with 10 does. -/
def ratioLimit : ℤ := 14411518807585587 * 2 ^ 967

section Boost

variable {u w : Float.Model.UnpackedFloat} {delta prevCount : ℤ}

theorem atMost_half_iff (hu : Nearest u (delta / prevCount)) (hp : 0 < prevCount) :
    AtMost (2 ^ 52) (-53) u ↔ 2 ^ 54 * delta ≤ (2 ^ 53 + 1) * prevCount := by
  have hp' : (0 : ℚ) < prevCount := by exact_mod_cast hp
  have hcast : 2 ^ 54 * delta ≤ (2 ^ 53 + 1) * prevCount ↔
      2 ^ 54 * (delta : ℚ) ≤ (2 ^ 53 + 1) * prevCount := by
    exact_mod_cast Iff.rfl
  rw [hu.atMost_iff _ _ le_rfl (by norm_num) (by norm_num), nearestLe_of_even (by norm_num), hcast,
    div_div, div_le_iff₀ (by positivity)]
  norm_num
  constructor <;> intro h <;> linarith

theorem two_zpow_add (a b : ℤ) : (2 : ℚ) ^ (a + b) = 2 ^ a * 2 ^ b := zpow_add₀ two_ne_zero a b

/-- The largest value whose product with 10 does not overflow. -/
theorem atMost_limit_iff (hu : Nearest u (delta / prevCount)) (hp : 0 < prevCount) :
    AtMost 7205759403792793 968 u ↔ delta < ratioLimit * prevCount := by
  have hp' : (0 : ℚ) < prevCount := by exact_mod_cast hp
  have hpow : (2 : ℚ) ^ (968 : ℤ) = 2 * 2 ^ 967 := two_zpow_add 1 967
  have hlimit : (7205759403792793 + 1 / 2 : ℚ) * (prevCount * 2 ^ (968 : ℤ)) =
      (ratioLimit * prevCount : ℤ) := by
    rw [hpow, ratioLimit, Int.cast_mul, Int.cast_mul, Int.cast_pow, Int.cast_ofNat, Int.cast_ofNat]
    generalize (2 : ℚ) ^ 967 = z
    ring
  rw [hu.atMost_iff _ _ (by norm_num) (by norm_num) (by norm_num), nearestLe_of_odd (by norm_num),
    div_div, div_lt_iff₀ (by positivity)]
  rw [Nat.cast_ofNat, hlimit, Int.cast_lt]

/-- The product of the ratio and 10 does not overflow when the ratio is up to the largest value. -/
theorem fits_product_iff {v : ℚ} (hu : Canonical u) (hv : toRat u = v) (hw : Nearest w (v * 10)) :
    Fits w ↔ AtMost 7205759403792793 968 u := by
  have hpow : (2 : ℚ) ^ (971 : ℤ) = 2 ^ (3 : ℤ) * 2 ^ (968 : ℤ) := two_zpow_add 3 968
  have hpos : (0 : ℚ) < 2 ^ (968 : ℤ) := by positivity
  have hle : AtMost 7205759403792793 968 u → v ≤ 7205759403792793 * 2 ^ (968 : ℤ) := fun h => by
    simpa [hv] using h.toRat_le hu (by norm_num)
  have hnext : ¬AtMost 7205759403792793 968 u → (7205759403792793 + 1) * 2 ^ (968 : ℤ) ≤ v :=
    fun h => by simpa [hv] using next_le_toRat h hu (by norm_num) (by norm_num)
  rw [Fits, hw.atMost_iff _ _ (by norm_num) (by norm_num) (by norm_num),
    nearestLe_of_odd (by norm_num), div_lt_iff₀ (by positivity), hpow]
  clear hpow
  generalize (2 : ℚ) ^ (968 : ℤ) = z at *
  by_cases h : AtMost 7205759403792793 968 u
  · have := hle h
    refine iff_of_true ?_ h
    norm_num
    linarith
  · have := hnext h
    refine iff_of_false ?_ h
    norm_num
    linarith
/-- The product with 10 of a ratio above a half is at least 5. -/
theorem five_le_toInt {x : Float} {v : ℚ} (hv : 1 / 2 < v) (hw : Nearest w (v * 10))
    (hx : HasValue x w) : ∃ n, toInt x = .ok n ∧ 5 ≤ n := by
  refine ⟨_, toInt_eq_floor hx hw.canonical, Int.le_floor.mpr ?_⟩
  have hbeyond : ¬AtMost (5 * 2 ^ 50 - 1) (-50) w := by
    rw [hw.atMost_iff _ _ (by norm_num) (by norm_num) (by norm_num), nearestLe_of_odd (by norm_num),
      not_lt, le_div_iff₀ (by positivity)]
    norm_num
    linarith
  have hnext := next_le_toRat hbeyond hw.canonical (by norm_num) (by norm_num)
  norm_num at hnext ⊢
  exact hnext

/-- The product with 10 of a ratio above a half: its integer part is at least 5, or it overflows. -/
theorem toInt_product {x : Float} (hu : Canonical u) (hx : HasValue x u)
    (hhalf : ¬AtMost (2 ^ 52) (-53) u) :
    AtMost 7205759403792793 968 u ∧ (∃ n, toInt (x * 10) = .ok n ∧ 5 ≤ n) ∨
      ¬AtMost 7205759403792793 968 u ∧ toInt (x * 10) = .error .overflowError := by
  match u, hu, hhalf, hx with
  | .zero .positive, _, hhalf, _ => exact absurd trivial hhalf
  | .finite .positive n t hn, hu, hhalf, hx =>
    have hten : (n : ℚ) * 2 ^ t * ((5 * 2 ^ 50 : ℕ) * 2 ^ (-49 : ℤ)) = n * 2 ^ t * 10 := by
      norm_num
    obtain ⟨w, hw, hproduct⟩ := hasValue_mul hx hasValue_ten (by omega)
    rw [hten] at hw
    have hfits := fits_product_iff hu rfl hw
    have hvalue : 1 / 2 < (n : ℚ) * 2 ^ t := by
      have hnext := next_le_toRat hhalf hu (by norm_num) (by norm_num)
      norm_num [toRat] at hnext ⊢
      linarith
    rcases hproduct with ⟨hwfits, hprod⟩ | ⟨hwfits, hprod⟩
    · exact .inl ⟨hfits.mp hwfits, five_le_toInt hvalue hw hprod⟩
    · exact .inr ⟨fun h => hwfits (hfits.mpr h), toInt_infinity hprod⟩

/-- The boost is 5 for every ratio above a half, and nothing for the others. -/
theorem boosted_eq (smartScore : ℤ) (hd : 0 < delta) (hp : 0 < prevCount) :
    boosted smartScore delta prevCount =
      if ratioLimit * prevCount ≤ delta then .error .overflowError
      else if 2 ^ 54 * delta ≤ (2 ^ 53 + 1) * prevCount then .ok smartScore
      else .ok (min 30 (smartScore + 5)) := by
  obtain ⟨u, hu, hdiv⟩ := divInt_pos hd hp
  have hunder : AtMost 7205759403792793 968 u → ¬ratioLimit * prevCount ≤ delta := fun h =>
    not_le.mpr ((atMost_limit_iff hu hp).mp h)
  have hover : ¬AtMost 7205759403792793 968 u → ratioLimit * prevCount ≤ delta := fun h =>
    not_lt.mp fun hlt => h ((atMost_limit_iff hu hp).mpr hlt)
  rcases hdiv with ⟨-, x, hdiv, hx⟩ | ⟨hfits, hdiv⟩
  · have hgt : x > 0.5 ↔ ¬AtMost (2 ^ 52) (-53) u := lt_iff_not_atMost hasValue_half hx hu.canonical
    by_cases hhalf : AtMost (2 ^ 52) (-53) u
    · rw [if_neg (hunder (hhalf.of_lt (by norm_num))), if_pos ((atMost_half_iff hu hp).mp hhalf),
        boosted, hdiv]
      exact if_neg fun h => hgt.mp h hhalf
    · have hboosted : boosted smartScore delta prevCount =
          (do let boost ← toInt (x * 10); return min 30 (smartScore + min 5 boost)) := by
        rw [boosted, hdiv]
        exact if_pos (hgt.mpr hhalf)
      rw [hboosted]
      rcases toInt_product hu.canonical hx hhalf with ⟨hle, boost, hint, hboost⟩ | ⟨hle, hint⟩
      · rw [if_neg (hunder hle), if_neg fun h => hhalf ((atMost_half_iff hu hp).mpr h), hint]
        show Except.ok (min 30 (smartScore + min 5 boost)) = _
        rw [min_eq_left hboost]
      · rw [if_pos (hover hle), hint]
        rfl
  · rw [if_pos (hover fun h => hfits (h.of_lt (by norm_num))), boosted, hdiv]
    rfl

end Boost

/-! ### The smart money of two counts -/

/-- The score of a positive difference. -/
def tier (delta : ℤ) : ℤ := if 5 ≤ delta then 30 else if 3 ≤ delta then 25 else 20

/-- The component for two counts whose ratio does not overflow. -/
def component (prevCount baseCount : ℤ) : ℤ :=
  let delta := baseCount - prevCount
  if delta ≤ 0 then if 10 ≤ baseCount then 15 else if 5 ≤ baseCount then 10 else 0
  else if prevCount ≤ 0 ∨ 2 ^ 54 * delta ≤ (2 ^ 53 + 1) * prevCount then tier delta
  else min 30 (tier delta + 5)

/-- The ratio of the counts, or its product with 10, overflows. -/
def Overflows (prevCount baseCount : ℤ) : Prop :=
  0 < prevCount ∧ ratioLimit * prevCount ≤ baseCount - prevCount

variable {token : TrendingToken} {prev : Option TrendingToken} {prevCount baseCount : ℤ}

theorem ratioLimit_pos : 0 < ratioLimit := by
  unfold ratioLimit
  positivity

theorem smartMoney_of_overflows (hc : token.smartDegenCount = some baseCount)
    (hp : prev.bind (·.smartDegenCount) = some prevCount) (h : Overflows prevCount baseCount) :
    smartMoney token prev = .error .overflowError := by
  obtain ⟨hpos, hover⟩ := h
  have hdelta : 0 < baseCount - prevCount := (mul_pos ratioLimit_pos hpos).trans_le hover
  simp only [smartMoney, hc, hp, hdelta, hpos, and_self, if_true, boosted_eq _ hdelta hpos,
    if_pos hover]
  rfl

theorem smartMoney_of_not_overflows (hc : token.smartDegenCount = some baseCount)
    (hp : prev.bind (·.smartDegenCount) = some prevCount) (h : ¬Overflows prevCount baseCount) :
    smartMoney token prev = .ok (component prevCount baseCount) := by
  by_cases hdelta : 0 < baseCount - prevCount
  · have htier : (if 5 ≤ baseCount - prevCount then (30 : ℤ)
        else if 3 ≤ baseCount - prevCount then 25
        else if 1 ≤ baseCount - prevCount then 20
        else if 10 ≤ baseCount then 15 else 0) = tier (baseCount - prevCount) := by
      unfold tier
      split_ifs <;> omega
    have hrange : 20 ≤ tier (baseCount - prevCount) ∧ tier (baseCount - prevCount) ≤ 30 := by
      unfold tier
      split_ifs <;> omega
    simp only [smartMoney, hc, hp, htier, component, if_neg (not_le.mpr hdelta)]
    -- No component of a positive difference is below the floor.
    have hfloor : ∀ n : ℤ, 20 ≤ n → n ≤ 30 →
        min (if 5 ≤ baseCount ∧ n < 10 then 10 else n) 30 = n := by
      intro n h20 h30
      rw [if_neg (by omega), min_eq_left h30]
    by_cases hpos : 0 < prevCount
    · have hunder : ¬ratioLimit * prevCount ≤ baseCount - prevCount := fun hover =>
        h ⟨hpos, hover⟩
      simp only [hdelta, hpos, and_self, if_true, boosted_eq _ hdelta hpos, if_neg hunder,
        not_le.mpr hpos, false_or]
      split
      · exact congrArg Except.ok (hfloor _ hrange.1 hrange.2)
      · exact congrArg Except.ok (hfloor _ (by omega) (by omega))
    · simp only [hpos, and_false, if_false, not_lt.mp hpos, true_or, if_true]
      exact congrArg Except.ok (hfloor _ hrange.1 hrange.2)
  · have hnot : ¬(0 < baseCount - prevCount ∧ 0 < prevCount) := fun hboth => hdelta hboth.1
    simp only [smartMoney, hc, hp, component, if_neg hnot, if_pos (not_lt.mp hdelta)]
    refine congrArg Except.ok ?_
    split_ifs <;> omega

/-- The component falls with the base, but from a base of zero to a small one. -/
theorem component_le_component_iff {delta a b : ℤ} (hdelta : 1 ≤ delta) (ha : 0 ≤ a) (hab : a ≤ b) :
    component b (b + delta) ≤ component a (a + delta) ↔
      (a = 0 → 0 < b → 5 ≤ delta ∨ 2 * delta ≤ b) := by
  have hnot : ¬delta ≤ 0 := by omega
  simp only [component, add_sub_cancel_left, if_neg hnot, tier]
  split_ifs <;> omega

theorem component_of_le (h : baseCount ≤ prevCount) :
    component prevCount baseCount =
      if 10 ≤ baseCount then 15 else if 5 ≤ baseCount then 10 else 0 :=
  if_pos (by omega)

theorem component_of_lt (h : prevCount < baseCount) :
    component prevCount baseCount =
      if prevCount ≤ 0 ∨ 2 ^ 54 * (baseCount - prevCount) ≤ (2 ^ 53 + 1) * prevCount then
        tier (baseCount - prevCount)
      else min 30 (tier (baseCount - prevCount) + 5) :=
  if_neg (by omega)

/-- The component grows with the count: in each of the two kinds of difference, and from the ones
that are not positive to the positive ones. -/
theorem component_mono {prevCount c c' : ℤ} (hc : c ≤ c') :
    component prevCount c ≤ component prevCount c' := by
  by_cases h' : prevCount < c'
  · rw [component_of_lt h']
    by_cases h : prevCount < c
    · rw [component_of_lt h]
      unfold tier
      split_ifs <;> omega
    · rw [component_of_le (not_lt.mp h)]
      unfold tier
      split_ifs <;> omega
  · rw [component_of_le (not_lt.mp h'), component_of_le (hc.trans (not_lt.mp h'))]
    split_ifs <;> omega

/-! ### What the score gives -/

/-- The score is given, with this smart money. -/
def GivesSmartMoney (token : TrendingToken) (prev : Option TrendingToken) (risk : Option TokenRisk)
    (smart : ℤ) : Prop :=
  ∃ scored, score token prev risk = .ok scored ∧ scored.breakdown.smartMoney = smart

theorem givesSmartMoney_iff {risk : Option TokenRisk} {smart : ℤ} :
    GivesSmartMoney token prev risk smart ↔ smartMoney token prev = .ok smart := by
  constructor
  · rintro ⟨scored, hscored, rfl⟩
    obtain ⟨smart, hsmart, hs⟩ := bind_eq_ok.mp hscored
    cases hs
    exact hsmart
  · intro h
    exact ⟨_, bind_eq_ok.mpr ⟨smart, h, rfl⟩, rfl⟩

/-- The token with another `smart_degen_count`. -/
def counting (token : TrendingToken) (count : ℤ) : TrendingToken :=
  { token with smartDegenCount := some count }

theorem gives_counting_iff {token prev : TrendingToken} {risk : Option TokenRisk}
    {p c smart : ℤ} :
    GivesSmartMoney (counting token c) (some (counting prev p)) risk smart ↔
      ¬Overflows p c ∧ component p c = smart := by
  rw [givesSmartMoney_iff]
  by_cases h : Overflows p c
  · rw [smartMoney_of_overflows rfl rfl h]
    exact iff_of_false (fun h => nomatch h) fun hboth => hboth.1 h
  · rw [smartMoney_of_not_overflows rfl rfl h]
    simp [h]

/-- A score favours the lower of two bases exactly when no ratio overflows, and the lower one is not
zero beside a small one. For one base it grows with the count exactly when no ratio overflows. -/
theorem favours_low_base_iff {delta a b p c c' : ℤ} (hdelta : 1 ≤ delta) (ha : 0 ≤ a)
    (hab : a ≤ b) (hc : c ≤ c') (low lowPrev high highPrev : TrendingToken)
    (lowRisk highRisk : Option TokenRisk) :
    ((∃ x y,
        GivesSmartMoney (counting low (a + delta)) (some (counting lowPrev a)) lowRisk x ∧
        GivesSmartMoney (counting high (b + delta)) (some (counting highPrev b)) highRisk y ∧
        y ≤ x) ↔
      (a = 0 → 0 < b → 5 ≤ delta ∨ 2 * delta ≤ b) ∧
        ¬Overflows a (a + delta) ∧ ¬Overflows b (b + delta)) ∧
    ((∃ x y, GivesSmartMoney (counting low c) (some (counting lowPrev p)) lowRisk x ∧
        GivesSmartMoney (counting high c') (some (counting highPrev p)) highRisk y ∧ x ≤ y) ↔
      ¬Overflows p c') := by
  simp only [gives_counting_iff]
  constructor
  · rw [← component_le_component_iff hdelta ha hab]
    constructor
    · rintro ⟨x, y, ⟨hlow, rfl⟩, ⟨hhigh, rfl⟩, hle⟩
      exact ⟨hle, hlow, hhigh⟩
    · rintro ⟨hle, hlow, hhigh⟩
      exact ⟨_, _, ⟨hlow, rfl⟩, ⟨hhigh, rfl⟩, hle⟩
  · constructor
    · rintro ⟨x, y, -, ⟨hmore, -⟩, -⟩
      exact hmore
    · intro hmore
      have hless : ¬Overflows p c := fun h => hmore ⟨h.1, by have := h.2; omega⟩
      exact ⟨_, _, ⟨hless, rfl⟩, ⟨hmore, rfl⟩, component_mono hc⟩

/-- A token as the tests of the detector build it. -/
def plainToken : TrendingToken where
  address := "0xa"
  symbol := "A"
  name := "A"
  priceUsd := 1
  volume1m := some 5000
  volume1h := none
  marketCap := none
  liquidity := some 100000
  smartDegenCount := none
  rank := 1
  chain := "sol"
  alsoIn1h := false

theorem not_overflows_of_lt {p c : ℤ} (hp : 1 ≤ p) (h : c - p < ratioLimit) : ¬Overflows p c := by
  rintro ⟨hpos, hover⟩
  have := le_mul_of_one_le_right ratioLimit_pos.le hp
  omega

/-- Three more on a base of 1 and on one of 10, and one more or three more on a base of 1. -/
theorem favours_low_base_iff_plain :
    (∃ x y,
      GivesSmartMoney (counting plainToken (1 + 3)) (some (counting plainToken 1)) none x ∧
      GivesSmartMoney (counting plainToken (10 + 3)) (some (counting plainToken 10)) none y ∧
      y ≤ x) ∧
    ∃ x y, GivesSmartMoney (counting plainToken 2) (some (counting plainToken 1)) none x ∧
      GivesSmartMoney (counting plainToken 4) (some (counting plainToken 1)) none y ∧ x ≤ y := by
  have hlimit : (3 : ℤ) < ratioLimit := by decide +kernel
  have h := @favours_low_base_iff 3 1 10 1 2 4 (by decide) (by decide) (by decide) (by decide)
    plainToken plainToken plainToken plainToken none none
  exact ⟨h.1.mpr ⟨by decide, not_overflows_of_lt (by decide) hlimit,
    not_overflows_of_lt (by decide) hlimit⟩, h.2.mpr (not_overflows_of_lt (by decide) hlimit)⟩

/-- One more on no base at all gives 20, and one more on a base of 1 gives 25. -/
theorem zero_base_not_favoured :
    ¬∃ x y,
      GivesSmartMoney (counting plainToken (0 + 1)) (some (counting plainToken 0)) none x ∧
      GivesSmartMoney (counting plainToken (1 + 1)) (some (counting plainToken 1)) none y ∧
      y ≤ x := by
  rintro ⟨x, y, hx, hy, hle⟩
  have hx' : smartMoney (counting plainToken (0 + 1)) (some (counting plainToken 0)) = .ok 20 := by
    decide +kernel
  have hy' : smartMoney (counting plainToken (1 + 1)) (some (counting plainToken 1)) = .ok 25 := by
    decide +kernel
  rw [givesSmartMoney_iff, hx'] at hx
  rw [givesSmartMoney_iff, hy'] at hy
  cases hx
  cases hy
  exact absurd hle (by decide)

end ChainMonitor.Detector
