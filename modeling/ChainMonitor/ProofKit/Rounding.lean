import Mathlib.Algebra.Order.Field.Basic
import Mathlib.Algebra.Order.Field.Rat
import Mathlib.Tactic.FieldSimp
import Mathlib.Tactic.Linarith
import Mathlib.Tactic.NormNum
import Mathlib.Tactic.Ring

/-! Rounding to the nearest even: what the two bits beside a truncated mantissa say about the number
it truncates, and when the rounded mantissa stays below a bound. -/

namespace ChainMonitor.ProofKit

open Float.Model.UnpackedFloat

/-- The mantissa is `x` without its fraction, the round bit the first binary place of the fraction,
and the sticky bit says whether any place follows. -/
def Truncates (em : ExtendedMantissa) (x : ℚ) : Prop :=
  ∃ f : ℚ, 0 ≤ f ∧ f < 1 / 2 ∧ (em.stickyBit = true ↔ f ≠ 0) ∧
    x = em.mantissa + (if em.roundBit then 1 / 2 else 0) + f

/-- The nearest natural number of `x`, an even one of two, is at most `c`. -/
def NearestLe (x : ℚ) (c : ℕ) : Prop := x < c + 1 / 2 ∨ x = c + 1 / 2 ∧ c % 2 = 0

variable {em : ExtendedMantissa} {x : ℚ} {m c k : ℕ}

theorem nearestLe_of_even (hc : c % 2 = 0) : NearestLe x c ↔ x ≤ c + 1 / 2 := by
  rw [NearestLe, le_iff_lt_or_eq]
  simp [hc]

theorem nearestLe_of_odd (hc : c % 2 = 1) : NearestLe x c ↔ x < c + 1 / 2 := by
  simp [NearestLe, hc]

theorem truncates_exact (m : ℕ) : Truncates (.ofMantissaAndAccuracy m .exact) m :=
  ⟨0, le_rfl, by norm_num, by simp [ExtendedMantissa.ofMantissaAndAccuracy],
    by simp [ExtendedMantissa.ofMantissaAndAccuracy]⟩

/-- The quotient of two numbers is truncated by its floor, beside what the remainder says. -/
theorem truncates_div (a : ℕ) {b : ℕ} (hb : 0 < b) :
    Truncates (.ofMantissaAndAccuracy (a / b) (accuracyOfFraction (a % b) b)) (a / b : ℚ) := by
  have hb' : (0 : ℚ) < b := by exact_mod_cast hb
  have hsplit : (a / b : ℚ) = (a / b : ℕ) + (a % b : ℕ) / b := by
    have h : (a : ℚ) = b * (a / b : ℕ) + (a % b : ℕ) := by exact_mod_cast (Nat.div_add_mod a b).symm
    field_simp
    linarith
  rw [hsplit]
  have hmod := Nat.mod_lt a hb
  generalize a % b = r at *
  by_cases hr : r = 0
  · subst hr
    simpa [accuracyOfFraction] using truncates_exact (a / b)
  · have hr' : (0 : ℚ) < r := by exact_mod_cast Nat.pos_of_ne_zero hr
    have hfrac : (0 : ℚ) < r / b := div_pos hr' hb'
    simp only [accuracyOfFraction, if_neg hr]
    cases hcmp : compare (2 * r) b with
    | lt =>
      have hlt : (2 * r : ℚ) < b := by exact_mod_cast compare_lt_iff_lt.mp hcmp
      refine ⟨r / b, hfrac.le, ?_, by simp [ExtendedMantissa.ofMantissaAndAccuracy, hr, hb.ne'], ?_⟩
      · rw [div_lt_div_iff₀ hb' two_pos]
        linarith
      · simp [ExtendedMantissa.ofMantissaAndAccuracy]
    | eq =>
      have heq : (2 * r : ℚ) = b := by exact_mod_cast compare_eq_iff_eq.mp hcmp
      refine ⟨0, le_rfl, by norm_num, by simp [ExtendedMantissa.ofMantissaAndAccuracy], ?_⟩
      rw [← heq]
      simp only [ExtendedMantissa.ofMantissaAndAccuracy, if_true]
      field_simp
      ring
    | gt =>
      have hgt : (b : ℚ) < 2 * r := by exact_mod_cast compare_gt_iff_gt.mp hcmp
      have hlt : (r : ℚ) < b := by exact_mod_cast hmod
      have hhalf : (1 / 2 : ℚ) < r / b := by
        rw [div_lt_div_iff₀ two_pos hb']
        linarith
      have hone : (r / b : ℚ) < 1 := by rwa [div_lt_one hb']
      refine ⟨r / b - 1 / 2, by linarith, by linarith, ?_, ?_⟩
      · simp only [ExtendedMantissa.ofMantissaAndAccuracy, true_iff]
        linarith
      · simp only [ExtendedMantissa.ofMantissaAndAccuracy, if_true]
        ring

theorem Truncates.shiftRightOne (h : Truncates em x) : Truncates em.shiftRightOne (x / 2) := by
  obtain ⟨f, h0, h1, hsticky, rfl⟩ := h
  have hm : (em.mantissa : ℚ) = 2 * (em.mantissa / 2 : ℕ) + (em.mantissa % 2 : ℕ) := by
    exact_mod_cast (Nat.div_add_mod em.mantissa 2).symm
  refine ⟨(if em.roundBit then 1 / 4 else 0) + f / 2, ?_, ?_, ?_, ?_⟩
  · split <;> linarith
  · split <;> linarith
  · simp only [ExtendedMantissa.shiftRightOne, Bool.or_eq_true, hsticky]
    cases em.roundBit
    · simp
    · simp only [true_or, true_iff, if_true]
      linarith
  · rw [hm]
    simp only [ExtendedMantissa.shiftRightOne]
    rcases Nat.mod_two_eq_zero_or_one em.mantissa with hbit | hbit
    · cases em.roundBit <;> simp [hbit] <;> ring
    · cases em.roundBit <;> simp [hbit] <;> ring

theorem shiftRight_succ (em : ExtendedMantissa) (k : ℕ) :
    em >>> (k + 1) = (em >>> k).shiftRightOne := rfl

theorem Truncates.shiftRight (h : Truncates em x) (k : ℕ) : Truncates (em >>> k) (x / 2 ^ k) := by
  induction k with
  | zero =>
    rw [pow_zero, div_one]
    exact h
  | succ k ih =>
    rw [shiftRight_succ, pow_succ, ← div_div]
    exact ih.shiftRightOne

theorem mantissa_shiftRight (em : ExtendedMantissa) (k : ℕ) :
    (em >>> k).mantissa = em.mantissa / 2 ^ k := by
  induction k with
  | zero => simp [HShiftRight.hShiftRight, Nat.repeat]
  | succ k ih =>
    rw [shiftRight_succ]
    simp [ExtendedMantissa.shiftRightOne, ih, Nat.div_div_eq_div_mul, pow_succ]

theorem Truncates.bounds (h : Truncates em x) : em.mantissa ≤ x ∧ x < em.mantissa + 1 := by
  obtain ⟨f, h0, h1, -, rfl⟩ := h
  constructor
  · split <;> linarith
  · split <;> linarith

theorem roundedMantissa_le (em : ExtendedMantissa) : em.roundedMantissa ≤ em.mantissa + 1 := by
  obtain ⟨m, r, s⟩ := em
  cases r <;> cases s <;>
    simp only [ExtendedMantissa.roundedMantissa, ExtendedMantissa.accuracy,
      Accuracy.roundToNearestEven] <;> omega

/-- The rounded mantissa is the nearest number, an even one of two. -/
theorem Truncates.roundedMantissa_le_iff (h : Truncates em x) (c : ℕ) :
    em.roundedMantissa ≤ c ↔ NearestLe x c := by
  obtain ⟨f, h0, h1, hsticky, rfl⟩ := h
  obtain ⟨m, r, s⟩ := em
  unfold NearestLe
  have hle : m ≤ c → (m : ℚ) ≤ c := fun h => by exact_mod_cast h
  have hlt : ¬m ≤ c → (c : ℚ) + 1 ≤ m := fun h => by exact_mod_cast Nat.lt_of_not_le h
  cases r
  · -- Below the middle the mantissa stays.
    have hround : (⟨m, false, s⟩ : ExtendedMantissa).roundedMantissa = m := by cases s <;> rfl
    simp only [hround, Bool.false_eq_true, if_false, add_zero]
    by_cases hmc : m ≤ c
    · exact iff_of_true hmc (.inl (by linarith [hle hmc]))
    · refine iff_of_false hmc ?_
      rintro (h | ⟨h, -⟩) <;> linarith [hlt hmc]
  · cases s
    · -- In the middle it goes to the even one.
      have hf : f = 0 := by simpa using hsticky
      have hround : (⟨m, true, false⟩ : ExtendedMantissa).roundedMantissa = m + m % 2 := rfl
      simp only [hround, if_true, hf, add_zero, add_lt_add_iff_right, add_left_inj, Nat.cast_lt,
        Nat.cast_inj]
      omega
    · -- Above the middle it goes up.
      have hf : 0 < f := lt_of_le_of_ne h0 (hsticky.mp rfl).symm
      have hround : (⟨m, true, true⟩ : ExtendedMantissa).roundedMantissa = m + 1 := rfl
      simp only [hround, if_true]
      by_cases hmc : m + 1 ≤ c
      · have hmc' : (m + 1 : ℚ) ≤ c := by exact_mod_cast hmc
        exact iff_of_true hmc (.inl (by linarith))
      · have hmc' : (c : ℚ) ≤ m := by exact_mod_cast Nat.lt_succ_iff.mp (Nat.lt_of_not_le hmc)
        refine iff_of_false hmc ?_
        rintro (h | ⟨h, -⟩) <;> linarith

end ChainMonitor.ProofKit
