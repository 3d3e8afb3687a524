import ChainMonitor.ProofKit.Binary64
import ChainMonitor.ProofKit.PyFloat
import Mathlib.Data.Rat.Floor

/-! The quotient of two positive `int`s as a Python `float`, and what is computed with it: its
order against a `float`, its products, and their truncation. -/

namespace ChainMonitor.ProofKit.PyFloat

open Float.Model Float.Model.UnpackedFloat Binary64

variable {u v : UnpackedFloat} {q : ℚ} {x y : Float}

/-- A `float` of this value. -/
def HasValue (x : Float) (u : UnpackedFloat) : Prop := x.toModel.unpack = u

theorem hasValue_ofModel_pack (h : Canonical u) (hfits : Fits u) :
    HasValue (.ofModel (Float.Model.pack u)) u := unpack_pack h hfits

theorem exact_of_pos {a : ℕ} (ha : 0 < a) : exact (a : ℤ) = .finite .positive a 0 ha := by
  have hneg : ¬(a : ℤ) < 0 := by omega
  simp [exact, ha.ne', hneg]

/-- The quotient of two positive `int`s is the value nearest to it, if that does not overflow. -/
theorem divInt_pos {a b : ℤ} (ha : 0 < a) (hb : 0 < b) :
    ∃ u, Nearest u (a / b) ∧ (Fits u ∧ (∃ x, divInt a b = .ok x ∧ HasValue x u) ∨
      ¬Fits u ∧ divInt a b = .error .overflowError) := by
  lift a to ℕ using ha.le
  lift b to ℕ using hb.le
  have ha' : 0 < a := by omega
  have hb' : 0 < b := by omega
  have hnearest := nearest_div ha' hb'
  have hdiv : divInt a b = bounded (.ofModel (Float.Model.pack
      (UnpackedFloat.div .binary64 (.finite .positive a 0 ha') (.finite .positive b 0 hb')))) := by
    rw [divInt, if_neg hb.ne', exact_of_pos ha', exact_of_pos hb']
  simp only [Int.cast_natCast]
  refine ⟨_, hnearest, ?_⟩
  rw [hdiv]
  generalize UnpackedFloat.div .binary64 _ _ = u at hnearest
  by_cases hfits : Fits u
  · refine .inl ⟨hfits, _, ?_, hasValue_ofModel_pack hnearest.canonical hfits⟩
    have hinf : (Float.Model.pack u).isInf = false := by
      show (Float.Model.pack u).unpack.isInf = false
      rw [unpack_pack hnearest.canonical hfits]
      match u, hnearest.canonical with
      | .zero .positive, _ => rfl
      | .finite .positive .., _ => rfl
    exact if_neg (by rw [hinf]; exact Bool.false_ne_true)
  · refine .inr ⟨hfits, ?_⟩
    have hinf : (Float.Model.pack u).isInf = true := by
      show (Float.Model.pack u).unpack.isInf = true
      rw [unpack_pack_of_not_fits hnearest.canonical hfits]
      rfl
    exact if_pos hinf

/-- A value is beyond a `float` when it is not among those up to it. -/
theorem lt_iff_not_atMost {c : ℕ} {e : ℤ} {hc : 0 < c} (hx : HasValue x (.finite .positive c e hc))
    (hy : HasValue y u) (hu : Canonical u) : x < y ↔ ¬AtMost c e u := by
  have hlt : x < y ↔ (UnpackedFloat.finite .positive c e hc).lt u = true := by
    rw [← hx, ← hy]
    show decide (x.toModel < y.toModel) = true ↔ _
    rw [decide_eq_true_iff]
    rfl
  rw [hlt]
  match u, hu with
  | .zero .positive, _ => exact iff_of_false Bool.false_ne_true fun h => h trivial
  | .finite .positive n t _, _ =>
    rw [lt_iff_place_lt rfl rfl]
    simp only [place, Prod.Lex.toLex_lt_toLex, AtMost, lt_irrefl, true_and, false_or, Nat.cast_lt]
    omega

/-- The product of two positive values, of mantissas that have 53 bits between them. -/
theorem hasValue_mul {n n' : ℕ} {t t' : ℤ} {hn : 0 < n} {hn' : 0 < n'}
    (hx : HasValue x (.finite .positive n t hn)) (hy : HasValue y (.finite .positive n' t' hn'))
    (hbits : 2 ^ 52 ≤ n * n') :
    ∃ u, Nearest u (n * 2 ^ t * (n' * 2 ^ t')) ∧ (Fits u ∧ HasValue (x * y) u ∨
      ¬Fits u ∧ HasValue (x * y) (.infinity .positive)) := by
  have hnearest := @nearest_mul n n' t t' hn hn' hbits
  have hmul : x * y = .ofModel (Float.Model.pack (UnpackedFloat.mul .binary64
      (.finite .positive n t hn) (.finite .positive n' t' hn'))) := by
    rw [← hx, ← hy]
    rfl
  refine ⟨_, hnearest, ?_⟩
  rw [hmul]
  generalize UnpackedFloat.mul .binary64 _ _ = u at hnearest
  by_cases hfits : Fits u
  · exact .inl ⟨hfits, hasValue_ofModel_pack hnearest.canonical hfits⟩
  · exact .inr ⟨hfits, unpack_pack_of_not_fits hnearest.canonical hfits⟩

theorem roundToInt_eq_floor (n : ℕ) (t : ℤ) :
    roundToInt .positive n t = ⌊(n : ℚ) * 2 ^ t⌋ := by
  rcases Int.eq_nat_or_neg t with ⟨k, rfl | rfl⟩
  · have hfloor : ⌊(n : ℚ) * 2 ^ (k : ℤ)⌋ = ((n * 2 ^ k : ℕ) : ℤ) := by
      rw [zpow_natCast]
      exact_mod_cast Int.floor_natCast (n * 2 ^ k)
    rw [hfloor]
    simp [roundToInt, decreaseExponent, shiftToExponent, mantissa_shiftRight,
      mantissa_ofMantissaAndAccuracy, Nat.shiftLeft_eq, Sign.apply]
  · have hfloor : ⌊(n : ℚ) * 2 ^ (-k : ℤ)⌋ = ((n / 2 ^ k : ℕ) : ℤ) := by
      have hpow : (2 : ℚ) ^ k = (2 ^ k : ℕ) := by norm_num
      rw [zpow_neg, zpow_natCast, ← div_eq_mul_inv, hpow, Rat.floor_natCast_div_natCast]
      rfl
    rw [hfloor]
    simp [roundToInt, decreaseExponent, shiftToExponent, mantissa_shiftRight,
      mantissa_ofMantissaAndAccuracy, Sign.apply]

/-- `int` of a value that does not overflow is its floor. -/
theorem toInt_eq_floor (hx : HasValue x u) (hu : Canonical u) : toInt x = .ok ⌊toRat u⌋ := by
  unfold toInt
  rw [hx]
  match u, hu with
  | .zero .positive, _ => simp [toRat]
  | .finite .positive n t _, _ => exact congrArg Except.ok (roundToInt_eq_floor n t)

theorem toInt_infinity (hx : HasValue x (.infinity .positive)) :
    toInt x = .error .overflowError := by
  unfold toInt
  rw [hx]

theorem hasValue_half : HasValue 0.5 (.finite .positive (2 ^ 52) (-53) (by decide)) := rfl

theorem hasValue_ten : HasValue 10 (.finite .positive (5 * 2 ^ 50) (-49) (by decide)) := rfl

end ChainMonitor.ProofKit.PyFloat
