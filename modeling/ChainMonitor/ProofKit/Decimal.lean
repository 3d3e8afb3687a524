import Mathlib.Algebra.Order.Field.Basic
import Mathlib.Data.Rat.Floor
import Mathlib.Tactic.FieldSimp
import Mathlib.Tactic.Linarith
import Mathlib.Tactic.Positivity
import Mathlib.Tactic.Ring

/-! Decimal rounding of exact numbers: `round(q, digits)` of Python goes to the nearest multiple of
`10 ^ -digits`, and of two that are equally near to the even one. -/

namespace ChainMonitor.ProofKit

/-- The nearest integer, and of two the even one. -/
def roundEven (q : ℚ) : ℤ :=
  let n := ⌊q⌋
  if q - n < 1 / 2 then n
  else if 1 / 2 < q - n then n + 1
  else if n % 2 = 0 then n
  else n + 1

/-- `round(q, digits)`. -/
def roundTo (digits : ℕ) (q : ℚ) : ℚ := roundEven (q * 10 ^ digits) / 10 ^ digits

variable {q r : ℚ} {n : ℤ} {digits : ℕ}

@[simp] theorem roundEven_intCast (n : ℤ) : roundEven n = n := by
  simp [roundEven]

theorem roundEven_eq_or (q : ℚ) : roundEven q = ⌊q⌋ ∨ roundEven q = ⌊q⌋ + 1 := by
  unfold roundEven
  dsimp only
  split_ifs
  · exact .inl rfl
  · exact .inr rfl
  · exact .inl rfl
  · exact .inr rfl

theorem roundEven_le_add_half (q : ℚ) : (roundEven q : ℚ) ≤ q + 1 / 2 := by
  have hfloor := Int.floor_le q
  unfold roundEven
  dsimp only
  split_ifs
  · linarith
  · push_cast
    linarith
  · linarith
  · push_cast
    linarith

theorem sub_half_le_roundEven (q : ℚ) : q - 1 / 2 ≤ roundEven q := by
  have hfloor := Int.lt_floor_add_one q
  unfold roundEven
  dsimp only
  split_ifs
  · linarith
  · push_cast
    linarith
  · linarith
  · push_cast
    linarith

theorem roundEven_mono (hqr : q ≤ r) : roundEven q ≤ roundEven r := by
  rcases (Int.floor_le_floor hqr).lt_or_eq with hlt | heq
  · have hq : roundEven q ≤ ⌊q⌋ + 1 := by rcases roundEven_eq_or q with h | h <;> omega
    have hr : ⌊r⌋ ≤ roundEven r := by rcases roundEven_eq_or r with h | h <;> omega
    omega
  · unfold roundEven
    dsimp only
    rw [heq]
    split_ifs <;> first | omega | exact absurd hqr (by linarith)

/-- A tie below an even integer goes up to it. -/
theorem roundEven_lt_iff (hn : n % 2 = 0) : roundEven q < n ↔ q < n - 1 / 2 := by
  constructor
  · intro h
    by_contra hge
    have htie : roundEven (n - 1 / 2) = n := by
      have hfloor : ⌊(n : ℚ) - 1 / 2⌋ = n - 1 := by
        rw [Int.floor_eq_iff]
        push_cast
        constructor <;> linarith
      unfold roundEven
      dsimp only
      rw [hfloor, if_neg (by push_cast; linarith), if_neg (by push_cast; linarith),
        if_neg (by omega)]
      omega
    have hle := roundEven_mono (not_lt.mp hge)
    omega
  · intro h
    have hle := roundEven_le_add_half q
    have hlt : (roundEven q : ℚ) < n := by linarith
    exact_mod_cast hlt

/-- A tie above an even integer goes down to it. -/
theorem lt_roundEven_iff (hn : n % 2 = 0) : n < roundEven q ↔ n + 1 / 2 < q := by
  constructor
  · intro h
    by_contra hge
    have htie : roundEven (n + 1 / 2) = n := by
      have hfloor : ⌊(n : ℚ) + 1 / 2⌋ = n := by
        rw [Int.floor_eq_iff]
        constructor <;> linarith
      unfold roundEven
      dsimp only
      rw [hfloor, if_neg (by linarith), if_neg (by linarith), if_pos hn]
    have hle := roundEven_mono (not_lt.mp hge)
    omega
  · intro h
    have hle := sub_half_le_roundEven q
    have hlt : (n : ℚ) < roundEven q := by linarith
    exact_mod_cast hlt

/-- What rounds to `n` or above it. The number in the middle goes up to an even integer only. -/
theorem le_roundEven_iff (q : ℚ) (n : ℤ) :
    n ≤ roundEven q ↔ n - 1 / 2 < q ∨ n - 1 / 2 = q ∧ n % 2 = 0 := by
  rcases Int.emod_two_eq_zero_or_one n with hn | hn
  · rw [← not_lt, roundEven_lt_iff hn, not_lt, le_iff_lt_or_eq]
    simp [hn]
  · have hprev := lt_roundEven_iff (q := q) (show (n - 1) % 2 = 0 by omega)
    have hmid : ((n - 1 : ℤ) : ℚ) + 1 / 2 = n - 1 / 2 := by
      push_cast
      ring
    rw [hmid] at hprev
    rw [← hprev, Int.sub_one_lt_iff]
    simp [hn]

/-! ### Decimal fractions -/

/-- A number with `digits` decimal places. -/
def IsDecimal (digits : ℕ) (q : ℚ) : Prop := ∃ k : ℤ, q = k / 10 ^ digits

theorem isDecimal_roundTo (digits : ℕ) (q : ℚ) : IsDecimal digits (roundTo digits q) :=
  ⟨_, rfl⟩

theorem isDecimal_zero (digits : ℕ) : IsDecimal digits 0 := ⟨0, by simp⟩

theorem isDecimal_natCast (digits n : ℕ) : IsDecimal digits (n : ℚ) :=
  ⟨n * 10 ^ digits, by push_cast; field_simp⟩

theorem IsDecimal.add (hq : IsDecimal digits q) (hr : IsDecimal digits r) :
    IsDecimal digits (q + r) := by
  obtain ⟨k, rfl⟩ := hq
  obtain ⟨l, rfl⟩ := hr
  exact ⟨k + l, by push_cast; ring⟩

theorem IsDecimal.neg (hq : IsDecimal digits q) : IsDecimal digits (-q) := by
  obtain ⟨k, rfl⟩ := hq
  exact ⟨-k, by push_cast; ring⟩

theorem IsDecimal.sum {qs : List ℚ} (h : ∀ q ∈ qs, IsDecimal digits q) :
    IsDecimal digits qs.sum := by
  induction qs with
  | nil => exact isDecimal_zero digits
  | cons q qs ih =>
    obtain ⟨hq, hqs⟩ := List.forall_mem_cons.mp h
    rw [List.sum_cons]
    exact hq.add (ih hqs)

theorem IsDecimal.sum_map {α : Type*} {f : α → ℚ} {xs : List α}
    (h : ∀ x ∈ xs, IsDecimal digits (f x)) : IsDecimal digits (xs.map f).sum := by
  apply IsDecimal.sum
  intro q hq
  obtain ⟨x, hx, rfl⟩ := List.mem_map.mp hq
  exact h x hx

/-- Rounding leaves what has no more digits as it is. -/
theorem roundTo_of_isDecimal (hq : IsDecimal digits q) : roundTo digits q = q := by
  obtain ⟨k, rfl⟩ := hq
  have hk : (k : ℚ) / 10 ^ digits * 10 ^ digits = k := by field_simp
  rw [roundTo, hk, roundEven_intCast]

/-- Rounding moves a number by at most half of the last place. -/
theorem abs_roundTo_sub_le (digits : ℕ) (q : ℚ) : |roundTo digits q - q| ≤ 1 / 2 / 10 ^ digits := by
  have hpow : (0 : ℚ) < 10 ^ digits := by positivity
  have hup := roundEven_le_add_half (q * 10 ^ digits)
  have hdown := sub_half_le_roundEven (q * 10 ^ digits)
  have hscaled : roundTo digits q - q =
      (roundEven (q * 10 ^ digits) - q * 10 ^ digits) / 10 ^ digits := by
    rw [roundTo]
    field_simp
  rw [hscaled, abs_div, abs_of_pos hpow]
  apply div_le_div_of_nonneg_right _ hpow.le
  rw [abs_le]
  constructor <;> linarith

theorem roundTo_mono (digits : ℕ) : Monotone (roundTo digits) := by
  intro q r hqr
  have hpow : (0 : ℚ) < 10 ^ digits := by positivity
  have hmul : q * 10 ^ digits ≤ r * 10 ^ digits := mul_le_mul_of_nonneg_right hqr hpow.le
  have hround : (roundEven (q * 10 ^ digits) : ℚ) ≤ roundEven (r * 10 ^ digits) := by
    exact_mod_cast roundEven_mono hmul
  exact div_le_div_of_nonneg_right hround hpow.le

theorem le_roundTo_of_le (hr : IsDecimal digits r) (h : r ≤ q) : r ≤ roundTo digits q := by
  have hround := roundTo_mono digits h
  rwa [roundTo_of_isDecimal hr] at hround

theorem roundTo_le_of_le (hr : IsDecimal digits r) (h : q ≤ r) : roundTo digits q ≤ r := by
  have hround := roundTo_mono digits h
  rwa [roundTo_of_isDecimal hr] at hround

/-- Rounding keeps a number on its side of a decimal fraction unless it lifts it there. -/
theorem lt_iff_roundTo_lt_iff (hr : IsDecimal digits r) :
    (q < r ↔ roundTo digits q < r) ↔ ¬(q < r ∧ r ≤ roundTo digits q) := by
  constructor
  · rintro h ⟨hlt, hle⟩
    exact absurd (h.mp hlt) (not_lt.mpr hle)
  · intro h
    constructor
    · intro hlt
      by_contra hge
      exact h ⟨hlt, not_lt.mp hge⟩
    · intro hlt
      by_contra hge
      exact absurd hlt (not_lt.mpr (le_roundTo_of_le hr (not_lt.mp hge)))

/-- The least positive decimal fraction is the unit of the last place. -/
theorem IsDecimal.le_of_pos (hq : IsDecimal digits q) (hpos : 0 < q) : 1 / 10 ^ digits ≤ q := by
  obtain ⟨k, rfl⟩ := hq
  have hpow : (0 : ℚ) < 10 ^ digits := by positivity
  rw [div_pos_iff_of_pos_right hpow, Int.cast_pos] at hpos
  rw [div_le_div_iff_of_pos_right hpow]
  exact_mod_cast hpos

theorem isDecimal_half_iff (digits : ℕ) (n : ℤ) :
    IsDecimal digits ((n : ℚ) / 10 ^ digits / 2) ↔ n % 2 = 0 := by
  have hpow : (10 : ℚ) ^ digits ≠ 0 := by positivity
  constructor
  · rintro ⟨k, hk⟩
    have heq : (n : ℚ) = (2 * k : ℤ) := by
      push_cast
      field_simp at hk
      linarith
    have hn : n = 2 * k := by exact_mod_cast heq
    omega
  · intro hn
    obtain ⟨k, rfl⟩ := Int.dvd_of_emod_eq_zero hn
    refine ⟨k, ?_⟩
    push_cast
    field_simp

/-- What rounds to a decimal fraction or above it: what is less than half of the last place below
it, and the number in the middle when half of the fraction has no more digits. -/
theorem le_roundTo_iff (q : ℚ) (hr : IsDecimal digits r) :
    r ≤ roundTo digits q ↔
      r - 1 / 2 / 10 ^ digits < q ∨ r - 1 / 2 / 10 ^ digits = q ∧ IsDecimal digits (r / 2) := by
  obtain ⟨n, rfl⟩ := hr
  have hpow : (0 : ℚ) < 10 ^ digits := by positivity
  have hmid : (n : ℚ) / 10 ^ digits - 1 / 2 / 10 ^ digits = (n - 1 / 2) / 10 ^ digits := by ring
  rw [isDecimal_half_iff, hmid, div_lt_iff₀ hpow, div_eq_iff hpow.ne', ← le_roundEven_iff, roundTo,
    div_le_div_iff_of_pos_right hpow]
  exact Int.cast_le

/-- The numbers that round to less than an even multiple of the last place. -/
theorem roundTo_lt_iff (hn : n % 2 = 0) :
    roundTo digits q < n / 10 ^ digits ↔ q < (n - 1 / 2) / 10 ^ digits := by
  have hpow : (0 : ℚ) < 10 ^ digits := by positivity
  rw [roundTo, div_lt_div_iff_of_pos_right hpow, lt_div_iff₀ hpow, ← roundEven_lt_iff hn]
  exact Int.cast_lt

/-- The numbers that round to more than an even multiple of the last place. -/
theorem lt_roundTo_iff (digits : ℕ) (q : ℚ) (hn : n % 2 = 0) :
    n / 10 ^ digits < roundTo digits q ↔ (n + 1 / 2) / 10 ^ digits < q := by
  have hpow : (0 : ℚ) < 10 ^ digits := by positivity
  rw [roundTo, div_lt_div_iff_of_pos_right hpow, div_lt_iff₀ hpow, ← lt_roundEven_iff hn]
  exact Int.cast_lt

/-- The numbers whose rounding has an absolute value below an even multiple of the last place. -/
theorem abs_roundTo_lt_iff (digits : ℕ) (q : ℚ) (hn : n % 2 = 0) :
    |roundTo digits q| < n / 10 ^ digits ↔ |q| < (n - 1 / 2) / 10 ^ digits := by
  have hneg : -n % 2 = 0 := by omega
  have hlow := lt_roundTo_iff digits q hneg
  push_cast at hlow
  rw [abs_lt, abs_lt, roundTo_lt_iff hn, ← neg_div, hlow]
  have hswap : (-(n : ℚ) + 1 / 2) / 10 ^ digits = -((n - 1 / 2) / 10 ^ digits) := by ring
  rw [hswap]

end ChainMonitor.ProofKit
