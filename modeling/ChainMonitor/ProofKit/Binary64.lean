import ChainMonitor.ProofKit.Rounding
import Mathlib

/-! Rounding to binary64: where a rounded positive number is among the values of the format, and
that the format keeps it. -/

namespace ChainMonitor.ProofKit.Binary64

open Float.Model Float.Model.UnpackedFloat

/-- A positive value as the format has it: with 53 bits, or fewer at the least exponent. -/
def Canonical : UnpackedFloat → Prop
  | .zero .positive => True
  | .finite .positive n t _ => n < 2 ^ 53 ∧ -1074 ≤ t ∧ (2 ^ 52 ≤ n ∨ t = -1074)
  | _ => False

/-- A canonical value is at most `c` times two to the `e`. -/
def AtMost (c : ℕ) (e : ℤ) : UnpackedFloat → Prop
  | .zero .positive => True
  | .finite .positive n t _ => t < e ∨ t = e ∧ n ≤ c
  | _ => False

/-- The value with mantissa `n`, of which 2^53 takes the next exponent. -/
def carried (n : ℕ) (t : ℤ) : UnpackedFloat :=
  if h : n = 0 then .zero .positive
  else if n < 2 ^ 53 then .finite .positive n t (Nat.pos_of_ne_zero h)
  else .finite .positive (2 ^ 52) (t + 1) (by decide)

/-! ### The two shifts of a rounding -/

section Shift

variable {m n k : ℕ} {e t : ℤ} {acc : Accuracy}

theorem targetExponent_eq (m : ℕ) (e : ℤ) :
    Format.binary64.targetExponent (totalExponent m e) = max (m.log2 + e - 52) (-1074) := by
  simp only [Format.targetExponent, totalExponent, Format.mantissaBits, Format.minExponent]
  norm_num
  congr 1
  ring

theorem div_two_pow_lt (h : m.log2 ≤ 52 + k) : m / 2 ^ k < 2 ^ 53 := by
  rw [Nat.div_lt_iff_lt_mul (by positivity), ← pow_add]
  exact Nat.lt_log2_self.trans_le (Nat.pow_le_pow_right two_pos (by omega))

theorem le_div_two_pow (h : m.log2 = 52 + k) : 2 ^ 52 ≤ m / 2 ^ k := by
  have hm : m ≠ 0 := by
    rintro rfl
    rw [Nat.log2_zero] at h
    omega
  rw [Nat.le_div_iff_mul_le (by positivity), ← pow_add, ← h]
  exact Nat.log2_self_le hm

/-- The shift goes to the target exponent when the mantissa has bits enough. -/
theorem shiftToTargetExponent_eq (ht : t = max (m.log2 + e - 52) (-1074)) (het : e ≤ t) :
    shiftToTargetExponent .binary64 m e acc =
      (ExtendedMantissa.ofMantissaAndAccuracy m acc >>> (t - e).toNat, t) := by
  have hk : e + ((t - e).toNat : ℤ) = t := by omega
  rw [shiftToTargetExponent, targetExponent_eq, ← ht, shiftToExponent, hk]

theorem carried_eq (hn : n ≤ 2 ^ 53) (ht : -1074 ≤ t) :
    (let (em, e) := shiftToTargetExponent .binary64 n t .exact
     if h : em.mantissa = 0 then UnpackedFloat.zero .positive
     else .finite .positive em.mantissa e (Nat.pos_of_ne_zero h)) = carried n t := by
  rcases hn.lt_or_eq with hlt | rfl
  · have hlog : n.log2 ≤ 52 := by
      by_cases h0 : n = 0
      · simp [h0]
      · have := (Nat.log2_lt h0).mpr hlt
        omega
    have hshift : (max ((n.log2 : ℤ) + t - 52) (-1074) - t).toNat = 0 := by omega
    simp only [shiftToTargetExponent, targetExponent_eq, shiftToExponent, hshift]
    by_cases h0 : n = 0
    · simp [carried, h0, mantissa_shiftRight, ExtendedMantissa.ofMantissaAndAccuracy]
    · rw [carried, dif_neg h0, if_pos hlt]
      simp [h0, mantissa_shiftRight, ExtendedMantissa.ofMantissaAndAccuracy]
  · have hshift : (max (((2 ^ 53 : ℕ).log2 : ℤ) + t - 52) (-1074) - t).toNat = 1 := by
      rw [Nat.log2_two_pow]
      omega
    simp only [shiftToTargetExponent, targetExponent_eq, shiftToExponent, hshift]
    simp [carried, mantissa_shiftRight, ExtendedMantissa.ofMantissaAndAccuracy]

end Shift

/-! ### A rounded value among the values of the format -/

/-- What a number rounds to: the nearest multiple `n` of two to the `t`, where `t` leaves the number
53 bits, or is the least exponent. -/
structure RoundsTo (q : ℚ) (n : ℕ) (t : ℤ) : Prop where
  le_exponent : -1074 ≤ t
  le_mantissa : n ≤ 2 ^ 53
  full : 2 ^ 52 ≤ q / 2 ^ t ∨ t = -1074
  nearest : ∀ c, n ≤ c ↔ NearestLe (q / 2 ^ t) c

variable {q x : ℚ} {m n c : ℕ} {e t : ℤ} {acc : Accuracy}

theorem mantissa_ofMantissaAndAccuracy (m : ℕ) (acc : Accuracy) :
    (ExtendedMantissa.ofMantissaAndAccuracy m acc).mantissa = m := by
  cases acc with
  | exact => rfl
  | inexact order => cases order <;> rfl

/-- A number of which the mantissa has 53 bits, or all bits that the format can keep, is rounded to
what it rounds to. -/
theorem roundWithAccuracy_eq (h : Truncates (.ofMantissaAndAccuracy m acc) x)
    (hbits : 52 ≤ m.log2 ∨ e ≤ -1074) :
    ∃ n t, RoundsTo (x * 2 ^ e) n t ∧
      roundWithAccuracy .binary64 .positive m e acc = carried n t := by
  obtain ⟨t, ht⟩ : ∃ t : ℤ, t = max (m.log2 + e - 52) (-1074) := ⟨_, rfl⟩
  have het : e ≤ t := by omega
  obtain ⟨k, hk⟩ : ∃ k : ℕ, t = e + k := ⟨(t - e).toNat, by omega⟩
  have hshift : (t - e).toNat = k := by omega
  let em := ExtendedMantissa.ofMantissaAndAccuracy m acc >>> k
  have hem : em.mantissa = m / 2 ^ k := by
    rw [mantissa_shiftRight, mantissa_ofMantissaAndAccuracy]
  have htruncates : Truncates em (x * 2 ^ e / 2 ^ t) := by
    have hx : x * 2 ^ e / 2 ^ t = x / 2 ^ k := by
      rw [hk, zpow_add₀ two_ne_zero, zpow_natCast]
      field_simp
    rw [hx]
    exact h.shiftRight k
  have hle : em.roundedMantissa ≤ 2 ^ 53 := by
    have := div_two_pow_lt (m := m) (k := k) (by omega)
    have := roundedMantissa_le em
    omega
  refine ⟨em.roundedMantissa, t, ⟨by omega, hle, ?_, htruncates.roundedMantissa_le_iff⟩, ?_⟩
  · by_cases hmin : t = -1074
    · exact .inr hmin
    · refine .inl (le_trans ?_ htruncates.bounds.1)
      rw [hem]
      exact_mod_cast le_div_two_pow (m := m) (k := k) (by omega)
  · rw [roundWithAccuracy, shiftToTargetExponent_eq ht het, hshift]
    exact carried_eq hle (by omega)

theorem scale_eq (q : ℚ) (t e : ℤ) : q / 2 ^ e = q / 2 ^ t * 2 ^ (t - e) := by
  rw [zpow_sub₀ two_ne_zero]
  field_simp

/-- A mantissa has 53 bits, but at the least exponent. -/
theorem RoundsTo.mantissa_full (h : RoundsTo q n t) : 2 ^ 52 ≤ n ∨ t = -1074 := by
  refine h.full.imp_left fun hq => ?_
  by_contra hlt
  have hcast : ((2 ^ 52 - 1 : ℕ) : ℚ) + 1 = 2 ^ 52 := by norm_num
  rcases (h.nearest (2 ^ 52 - 1)).mp (by omega) with hle | ⟨heq, -⟩ <;> linarith

/-- A number that rounds to an exponent is below all values of the greater ones. -/
theorem RoundsTo.lt_of_lt (h : RoundsTo q n t) (ht : t < e) : q / 2 ^ e < 2 ^ 52 + 1 / 2 := by
  have hq : q / 2 ^ t ≤ 2 ^ 53 + 1 / 2 := by
    rcases (h.nearest (2 ^ 53)).mp h.le_mantissa with hq | ⟨hq, -⟩
    · exact_mod_cast hq.le
    · exact_mod_cast hq.le
  have hpow : (2 : ℚ) ^ (t - e) ≤ 2 ^ (-1 : ℤ) := zpow_le_zpow_right₀ one_le_two (by omega)
  rw [scale_eq q t e]
  calc q / 2 ^ t * 2 ^ (t - e) ≤ (2 ^ 53 + 1 / 2) * 2 ^ (-1 : ℤ) :=
        mul_le_mul hq hpow (by positivity) (by norm_num)
    _ < 2 ^ 52 + 1 / 2 := by norm_num

/-- A number that rounds to an exponent is beyond all values of the smaller ones. -/
theorem RoundsTo.le_of_lt (h : RoundsTo q n t) (ht : e < t) (he : -1074 ≤ e) :
    2 ^ 53 ≤ q / 2 ^ e := by
  have hfull : 2 ^ 52 ≤ q / 2 ^ t := h.full.resolve_right (by omega)
  have hpow : (2 : ℚ) ^ (1 : ℤ) ≤ 2 ^ (t - e) := zpow_le_zpow_right₀ one_le_two (by omega)
  rw [scale_eq q t e]
  calc (2 : ℚ) ^ 53 = 2 ^ 52 * 2 ^ (1 : ℤ) := by norm_num
    _ ≤ q / 2 ^ t * 2 ^ (t - e) :=
      mul_le_mul hfull hpow (by positivity) (le_trans (by positivity) hfull)

theorem atMost_carried_iff (hc : 2 ^ 52 ≤ c) :
    AtMost c e (carried n t) ↔ n = 0 ∨ t + 1 ≤ e ∨ t = e ∧ n ≤ c ∧ n < 2 ^ 53 := by
  unfold carried
  split
  · simp [AtMost, *]
  · split
    · simp only [AtMost]
      omega
    · simp only [AtMost]
      omega

/-- A number rounds to at most `c` times two to the `e` when it is nearest to a multiple of two to
the `e` that is. -/
theorem RoundsTo.atMost_iff (h : RoundsTo q n t) (hc : 2 ^ 52 ≤ c) (hc' : c < 2 ^ 53)
    (he : -1074 ≤ e) : AtMost c e (carried n t) ↔ NearestLe (q / 2 ^ e) c := by
  have hcast : (2 ^ 52 : ℚ) ≤ c := by exact_mod_cast hc
  have hcast' : (c + 1 : ℚ) ≤ 2 ^ 53 := by exact_mod_cast hc'
  rw [atMost_carried_iff hc]
  rcases lt_trichotomy t e with hlt | rfl | hgt
  · have hbelow := h.lt_of_lt hlt
    exact iff_of_true (.inr (.inl hlt)) (.inl (by linarith))
  · rw [← h.nearest c]
    omega
  · have hbeyond := h.le_of_lt hgt he
    have hfull := h.mantissa_full.resolve_right (by omega)
    refine iff_of_false (by omega) ?_
    rintro (hle | ⟨heq, -⟩)
    · linarith
    · linarith

theorem RoundsTo.canonical (h : RoundsTo q n t) : Canonical (carried n t) := by
  have hfull := h.mantissa_full
  have hmin := h.le_exponent
  unfold carried
  split
  · trivial
  · split
    · exact ⟨by assumption, hmin, hfull⟩
    · exact ⟨by norm_num, by omega, .inl le_rfl⟩

/-! ### The values of the format as rational numbers -/

/-- The number that a positive value is. -/
def toRat : UnpackedFloat → ℚ
  | .finite .positive n t _ => n * 2 ^ t
  | _ => 0

variable {u : UnpackedFloat}

theorem AtMost.of_lt {c' : ℕ} {e' : ℤ} (h : AtMost c e u) (he : e < e') : AtMost c' e' u := by
  match u, h with
  | .zero .positive, _ => trivial
  | .finite .positive n t _, h =>
    simp only [AtMost] at h ⊢
    omega

theorem AtMost.toRat_le (h : AtMost c e u) (hu : Canonical u) (hc : 2 ^ 52 ≤ c) :
    toRat u ≤ c * 2 ^ e := by
  have hcast : (2 ^ 52 : ℚ) ≤ c := by exact_mod_cast hc
  match u, h, hu with
  | .zero .positive, _, _ => exact mul_nonneg (Nat.cast_nonneg c) (by positivity)
  | .finite .positive n t _, h, hu =>
    obtain ⟨hn, -, -⟩ := hu
    have hn' : (n : ℚ) ≤ 2 ^ 53 := by exact_mod_cast hn.le
    rcases h with hlt | ⟨rfl, hle⟩
    · have hpow : (2 : ℚ) ^ t ≤ 2 ^ (e - 1) := zpow_le_zpow_right₀ one_le_two (by omega)
      have hprod : (n : ℚ) * 2 ^ t ≤ 2 ^ 53 * 2 ^ (e - 1) :=
        mul_le_mul hn' hpow (by positivity) (by positivity)
      calc (n : ℚ) * 2 ^ t ≤ 2 ^ 53 * 2 ^ (e - 1) := hprod
        _ = 2 ^ 52 * 2 ^ e := by rw [zpow_sub_one₀ two_ne_zero]; ring
        _ ≤ c * 2 ^ e := mul_le_mul_of_nonneg_right hcast (by positivity)
    · exact mul_le_mul_of_nonneg_right (by exact_mod_cast hle) (by positivity)

/-- A value beyond `c` times two to the `e` is the next of the format or more. -/
theorem next_le_toRat (h : ¬AtMost c e u) (hu : Canonical u) (hc : c < 2 ^ 53) (he : -1074 ≤ e) :
    (c + 1) * 2 ^ e ≤ toRat u := by
  have hcast : (c + 1 : ℚ) ≤ 2 ^ 53 := by exact_mod_cast hc
  match u, h, hu with
  | .zero .positive, h, _ => exact absurd trivial h
  | .finite .positive n t _, h, hu =>
    obtain ⟨-, -, hfull⟩ := hu
    have hbeyond : e < t ∨ t = e ∧ c + 1 ≤ n := by
      simp only [AtMost] at h
      omega
    rcases hbeyond with hlt | ⟨rfl, hle⟩
    · have hn : 2 ^ 52 ≤ n := hfull.resolve_right (by omega)
      have hn' : (2 ^ 52 : ℚ) ≤ n := by exact_mod_cast hn
      have hpow : (2 : ℚ) ^ (e + 1) ≤ 2 ^ t := zpow_le_zpow_right₀ one_le_two (by omega)
      calc (c + 1 : ℚ) * 2 ^ e ≤ 2 ^ 53 * 2 ^ e := mul_le_mul_of_nonneg_right hcast (by positivity)
        _ = 2 ^ 52 * 2 ^ (e + 1) := by rw [zpow_add_one₀ two_ne_zero]; ring
        _ ≤ n * 2 ^ t := mul_le_mul hn' hpow (by positivity) (by positivity)
    · exact mul_le_mul_of_nonneg_right (by exact_mod_cast hle) (by positivity)

/-! ### Values and their bits -/

theorem unpackSign_packComponents (spec : Format) (sign : Sign)
    (exponent : BitVec spec.exponentBits) (mantissa : BitVec spec.mantissaBitsWithoutImplicit) :
    unpackSign (packComponents spec sign exponent mantissa) = sign.toBitVec := by
  ext i hi
  have hi : i = 0 := by omega
  simp [unpackSign, packComponents, BitVec.getElem_append, BitVec.getLsbD_append, hi]

theorem toNat_ofNat_add {n : ℕ} (hn : 2 ^ 52 ≤ n) (hn' : n < 2 ^ 53) :
    (1#1 ++ BitVec.ofNat 52 n).toNat = n := by
  rw [BitVec.toNat_append, ← Nat.shiftLeft_add_eq_or_of_lt (BitVec.isLt _), Nat.shiftLeft_eq,
    BitVec.toNat_ofNat, BitVec.toNat_ofNat]
  omega

theorem unpack_pack_normal {n : ℕ} {t : ℤ} {hpos : 0 < n} (hn : 2 ^ 52 ≤ n) (hn' : n < 2 ^ 53)
    (ht : -1074 ≤ t) (ht' : t ≤ 971) :
    (Float.Model.pack (.finite .positive n t hpos)).unpack = .finite .positive n t hpos := by
  have hlog : n.log2 = 52 := (Nat.log2_eq_iff hpos.ne').mpr ⟨hn, hn'⟩
  obtain ⟨b, hb⟩ : ∃ b : ℕ, (b : ℤ) = t + 1075 := ⟨(t + 1075).toNat, by omega⟩
  have hbias : (t + (Format.exponentBias .binary64 : ℕ) + (52 : ℕ) : ℤ).toNat = b := by
    have : Format.exponentBias .binary64 = 1023 := rfl
    omega
  have hpack : UnpackedFloat.pack .binary64 (.finite .positive n t hpos) =
      packComponents .binary64 .positive (BitVec.ofNat 11 b) (BitVec.ofNat 52 n) := by
    simp only [UnpackedFloat.pack, hbias, hlog]
    rw [if_neg (by omega)]
    exact if_pos rfl
  have hexp : (BitVec.ofNat 11 b).toNat = b := by
    rw [BitVec.toNat_ofNat]
    omega
  have hone : BitVec.ofNat 11 b ≠ -1#11 := by
    intro h
    have := congrArg BitVec.toNat h
    rw [hexp] at this
    have h2 : (-1#11).toNat = 2047 := rfl
    omega
  have hzero : BitVec.ofNat 11 b ≠ 0#11 := by
    intro h
    have := congrArg BitVec.toNat h
    rw [hexp] at this
    have h2 : (0#11).toNat = 0 := rfl
    omega
  show UnpackedFloat.unpack .binary64 (UnpackedFloat.pack .binary64 _) = _
  rw [hpack]
  unfold UnpackedFloat.unpack
  simp only [unpackMantissa_packComponents, unpackExponent_packComponents,
    unpackSign_packComponents, hone, hzero, if_false, hexp, toNat_ofNat_add hn hn']
  have : Format.exponentBias .binary64 = 1023 := rfl
  simp only [this]
  congr 1
  omega

theorem unpack_pack_subnormal {n : ℕ} {hpos : 0 < n} (hn : n < 2 ^ 52) :
    (Float.Model.pack (.finite .positive n (-1074) hpos)).unpack =
      .finite .positive n (-1074) hpos := by
  have hlog : n.log2 < 52 := (Nat.log2_lt hpos.ne').mpr hn
  have hpack : UnpackedFloat.pack .binary64 (.finite .positive n (-1074) hpos) =
      packComponents .binary64 .positive 0#11 (BitVec.ofNat 52 n) := by
    have hbits : n.log2 + 1 ≠ Format.mantissaBits .binary64 := by
      have : Format.mantissaBits .binary64 = 53 := rfl
      omega
    simp only [UnpackedFloat.pack, if_neg hbits]
    exact if_neg (by decide)
  have hmantissa : (BitVec.ofNat 52 n).toNat = n := by
    rw [BitVec.toNat_ofNat, Nat.mod_eq_of_lt hn]
  have hne : BitVec.ofNat 52 n ≠ 0#52 := by
    intro h
    have := congrArg BitVec.toNat h
    rw [hmantissa, BitVec.toNat_zero] at this
    omega
  show UnpackedFloat.unpack .binary64 (UnpackedFloat.pack .binary64 _) = _
  rw [hpack]
  unfold UnpackedFloat.unpack
  simp only [unpackMantissa_packComponents, unpackExponent_packComponents,
    unpackSign_packComponents, hne, hmantissa, if_true, dif_neg, not_false_eq_true]
  rfl

theorem unpack_pack_overflow {n : ℕ} {t : ℤ} {hpos : 0 < n} (ht : 971 < t) :
    (Float.Model.pack (.finite .positive n t hpos)).unpack = .infinity .positive := by
  have hpack : UnpackedFloat.pack .binary64 (.finite .positive n t hpos) =
      packedInfinity .binary64 .positive := by
    have : Format.exponentBias .binary64 = 1023 := rfl
    simp only [UnpackedFloat.pack, this]
    rw [if_pos (by omega)]
  show UnpackedFloat.unpack .binary64 (UnpackedFloat.pack .binary64 _) = _
  rw [hpack]
  rfl

/-- The value does not overflow. -/
def Fits (u : UnpackedFloat) : Prop := AtMost (2 ^ 53 - 1) 971 u

/-- A value that does not overflow comes back from its bits. -/
theorem unpack_pack (hu : Canonical u) (h : Fits u) : (Float.Model.pack u).unpack = u := by
  match u, hu, h with
  | .zero .positive, _, _ => rfl
  | .finite .positive n t _, ⟨hn, ht, hfull⟩, h =>
    have ht' : t ≤ 971 := by
      rcases h with hlt | ⟨heq, -⟩ <;> omega
    by_cases hnormal : 2 ^ 52 ≤ n
    · exact unpack_pack_normal hnormal hn ht ht'
    · obtain rfl := hfull.resolve_left hnormal
      exact unpack_pack_subnormal (by omega)

theorem unpack_pack_of_not_fits (hu : Canonical u) (h : ¬Fits u) :
    (Float.Model.pack u).unpack = .infinity .positive := by
  match u, hu, h with
  | .zero .positive, _, h => exact absurd trivial h
  | .finite .positive n t _, ⟨hn, _, _⟩, h =>
    apply unpack_pack_overflow
    simp only [Fits, AtMost] at h
    omega

/-! ### The rounded results of division and multiplication -/

/-- The canonical value that a positive number rounds to. -/
structure Nearest (u : UnpackedFloat) (q : ℚ) : Prop where
  canonical : Canonical u
  atMost_iff : ∀ c e, 2 ^ 52 ≤ c → c < 2 ^ 53 → -1074 ≤ e →
    (AtMost c e u ↔ NearestLe (q / 2 ^ e) c)

theorem nearest_roundWithAccuracy (h : Truncates (.ofMantissaAndAccuracy m acc) x)
    (hbits : 52 ≤ m.log2 ∨ e ≤ -1074) :
    Nearest (roundWithAccuracy .binary64 .positive m e acc) (x * 2 ^ e) := by
  obtain ⟨n, t, hrounds, heq⟩ := roundWithAccuracy_eq h hbits
  rw [heq]
  exact ⟨hrounds.canonical, fun c e => hrounds.atMost_iff⟩

theorem nearest_div {a b : ℕ} (ha : 0 < a) (hb : 0 < b) :
    Nearest (UnpackedFloat.div .binary64 (.finite .positive a 0 ha) (.finite .positive b 0 hb))
      (a / b) := by
  obtain ⟨e, he⟩ : ∃ e, e = min (0 : ℤ) (max ((a.log2 : ℤ) - b.log2 - 53) (-1074)) := ⟨_, rfl⟩
  obtain ⟨s, hs⟩ : ∃ s : ℕ, e = -s := ⟨(-e).toNat, by omega⟩
  have hdiv : UnpackedFloat.div .binary64 (.finite .positive a 0 ha) (.finite .positive b 0 hb) =
      roundWithAccuracy .binary64 .positive (a * 2 ^ s / b) e
        (accuracyOfFraction (a * 2 ^ s % b) b) := by
    have htarget : min (0 - 0 : ℤ)
        (Format.binary64.targetExponent (totalExponent a 0 - totalExponent b 0)) = e := by
      have hbits : Format.binary64.mantissaBits = 53 := rfl
      have hleast : Format.binary64.minExponent = -1074 := rfl
      simp only [Format.targetExponent, totalExponent, hbits, hleast]
      omega
    have hshift : (0 - 0 - e : ℤ).toNat = s := by omega
    simp only [UnpackedFloat.div, divCore, htarget, hshift, Nat.shiftLeft_eq]
    rfl
  rw [hdiv]
  have hq : (a / b : ℚ) = (a * 2 ^ s : ℕ) / b * 2 ^ e := by
    rw [hs, zpow_neg, zpow_natCast]
    push_cast
    field_simp
  rw [hq]
  refine nearest_roundWithAccuracy (truncates_div (a * 2 ^ s) hb) ?_
  by_cases hmin : e ≤ -1074
  · exact .inr hmin
  · left
    have hlog : b.log2 + 53 ≤ a.log2 + s := by omega
    have hle : 2 ^ 52 ≤ a * 2 ^ s / b := by
      rw [Nat.le_div_iff_mul_le hb]
      calc 2 ^ 52 * b ≤ 2 ^ 52 * 2 ^ (b.log2 + 1) := Nat.mul_le_mul_left _ Nat.lt_log2_self.le
        _ = 2 ^ (b.log2 + 53) := by rw [← pow_add]; congr 1; omega
        _ ≤ 2 ^ (a.log2 + s) := Nat.pow_le_pow_right two_pos hlog
        _ = 2 ^ a.log2 * 2 ^ s := pow_add 2 _ _
        _ ≤ a * 2 ^ s := Nat.mul_le_mul_right _ (Nat.log2_self_le ha.ne')
    exact (Nat.le_log2 (by omega)).mpr hle

theorem nearest_mul {n n' : ℕ} {t t' : ℤ} (hn : 0 < n) (hn' : 0 < n') (hbits : 2 ^ 52 ≤ n * n') :
    Nearest (UnpackedFloat.mul .binary64 (.finite .positive n t hn) (.finite .positive n' t' hn'))
      (toRat (.finite .positive n t hn) * toRat (.finite .positive n' t' hn')) := by
  have hq : toRat (.finite .positive n t hn) * toRat (.finite .positive n' t' hn') =
      (n * n' : ℕ) * 2 ^ (t + t') := by
    simp only [toRat]
    rw [zpow_add₀ two_ne_zero]
    push_cast
    ring
  rw [hq]
  exact nearest_roundWithAccuracy (truncates_exact (n * n'))
    (.inl ((Nat.le_log2 (by positivity)).mpr hbits))

end ChainMonitor.ProofKit.Binary64
