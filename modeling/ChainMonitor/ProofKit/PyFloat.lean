import Mathlib.Algebra.Order.Ring.Int
import Mathlib.Data.Prod.Lex
import Mathlib.Order.Compare

/-! What Python adds to binary64 arithmetic: the conversions between `int` and `float`, the division
of two `int`s, and the exceptions that these raise. A Python `float` is a `Float`. -/

namespace ChainMonitor.ProofKit

/-- The built-in exceptions that reading and converting a value may raise, and any other one. -/
inductive PyError
  | overflowError
  | zeroDivisionError
  | valueError
  | typeError
  | attributeError
  | indexError
  | recursionError
  | exception
  deriving DecidableEq

namespace PyFloat

open Float.Model

/-- `bool(x)`, which holds of everything but the two zeros. -/
def truthy (x : Float) : Bool := x != 0

/-- `math.isfinite(x)`. -/
def isFinite (x : Float) : Bool := x.toModel.isFinite

/-- The result of an `int` operation, which may not overflow. -/
def bounded (x : Float) : Except PyError Float :=
  if x.toModel.isInf then .error .overflowError else .ok x

/-- `float(n)`. -/
def ofInt (n : ℤ) : Except PyError Float := bounded (Float.ofInt n)

/-- `int(x)`, which truncates. -/
def toInt (x : Float) : Except PyError ℤ :=
  match x.toModel.unpack with
  | .notANumber => .error .valueError
  | .infinity _ => .error .overflowError
  | .zero _ => .ok 0
  | .finite sign mantissa exponent _ => .ok (UnpackedFloat.roundToInt sign mantissa exponent)

/-- The integer `n`, not rounded to any format. -/
def exact (n : ℤ) : UnpackedFloat :=
  if h : n = 0 then .zero .positive
  else .finite (if n < 0 then .negative else .positive) n.natAbs 0 (Int.natAbs_pos.mpr h)

/-- `a / b`, rounded once. -/
def divInt (a b : ℤ) : Except PyError Float :=
  if b = 0 then .error .zeroDivisionError
  else bounded (.ofModel (pack (UnpackedFloat.div Format.binary64 (exact a) (exact b))))

example : (divInt (10 ^ 400) (4 * 10 ^ 399)).toOption = some 2.5 := by decide +kernel

/-- `max(m, x)`, which is `m` where `x` is not a number. -/
def atLeast (m x : Float) : Float := if m < x then x else m

theorem le_of_lt {x y : Float} (h : x < y) : x ≤ y := by
  have hlt : x.toModel.unpack.lt y.toModel.unpack = true := of_decide_eq_true h
  have hle : x.toModel.unpack.le y.toModel.unpack = true := by
    unfold UnpackedFloat.lt at hlt
    rw [UnpackedFloat.le, eq_of_beq hlt]
    rfl
  exact decide_eq_true hle

theorem le_atLeast {m : Float} (hm : m ≤ m) (x : Float) : m ≤ atLeast m x := by
  unfold atLeast
  split
  · exact le_of_lt (by assumption)
  · exact hm

/-! ### The order of the finite values -/

/-- The place of a value among the finite ones: by sign, then exponent, then mantissa. -/
def place : UnpackedFloat → ℤ ×ₗ ℤ ×ₗ ℤ
  | .finite .positive mantissa exponent _ => toLex (1, toLex (exponent, (mantissa : ℤ)))
  | .finite .negative mantissa exponent _ => toLex (-1, toLex (-exponent, -(mantissa : ℤ)))
  | .zero _ | .infinity _ | .notANumber => toLex (0, toLex (0, 0))

def rank (x : Float) : ℤ ×ₗ ℤ ×ₗ ℤ := place x.toModel.unpack

section Places

variable {u v : UnpackedFloat}

theorem lt_iff_of_compare {c : Ordering} (h : u.compare v = some c) :
    u.lt v = true ↔ c = .lt := by
  rw [UnpackedFloat.lt, h]
  simp

theorem lt_iff_of_lt (h : u.compare v = some .lt) (hplace : place u < place v) :
    u.lt v = true ↔ place u < place v :=
  iff_of_true ((lt_iff_of_compare h).mpr rfl) hplace

theorem lt_iff_of_gt (h : u.compare v = some .gt) (hplace : place v < place u) :
    u.lt v = true ↔ place u < place v :=
  iff_of_false (fun hlt => nomatch (lt_iff_of_compare h).mp hlt) hplace.not_gt

theorem toLex_fst_lt {a b : ℤ} {x y : ℤ ×ₗ ℤ} (h : a < b) : toLex (a, x) < toLex (b, y) :=
  Prod.Lex.toLex_lt_toLex.mpr (.inl h)

theorem lt_iff_place_lt (hu : u.isFinite) (hv : v.isFinite) :
    u.lt v = true ↔ place u < place v := by
  rcases u with s | _ | s | ⟨s, m, e, hm⟩ <;> rcases v with t | _ | t | ⟨t, m', e', hm'⟩
  all_goals first
    | exact absurd hu Bool.false_ne_true
    | exact absurd hv Bool.false_ne_true
    | skip
  · rw [lt_iff_of_compare (c := .eq) rfl]
    exact iff_of_false nofun (lt_irrefl _)
  · cases t with
    | negative => exact lt_iff_of_gt rfl (toLex_fst_lt (by decide))
    | positive => exact lt_iff_of_lt rfl (toLex_fst_lt (by decide))
  · cases s with
    | negative => exact lt_iff_of_lt rfl (toLex_fst_lt (by decide))
    | positive => exact lt_iff_of_gt rfl (toLex_fst_lt (by decide))
  · cases s with
    | negative =>
      cases t with
      | negative =>
        rw [lt_iff_of_compare (c := ((compare e e').then (compare m m')).swap) rfl,
          Ordering.swap_eq_lt, Ordering.then_eq_gt, compare_gt_iff_gt, compare_eq_iff_eq,
          compare_gt_iff_gt]
        show _ ↔ toLex (-1, toLex (-e, -(m : ℤ))) < toLex (-1, toLex (-e', -(m' : ℤ)))
        simp [Prod.Lex.toLex_lt_toLex]
      | positive => exact lt_iff_of_lt rfl (toLex_fst_lt (by decide))
    | positive =>
      cases t with
      | negative => exact lt_iff_of_gt rfl (toLex_fst_lt (by decide))
      | positive =>
        rw [lt_iff_of_compare (c := (compare e e').then (compare m m')) rfl, Ordering.then_eq_lt,
          compare_lt_iff_lt, compare_eq_iff_eq, compare_lt_iff_lt]
        show _ ↔ toLex (1, toLex (e, (m : ℤ))) < toLex (1, toLex (e', (m' : ℤ)))
        simp [Prod.Lex.toLex_lt_toLex]

end Places

/-- On finite values `<` is the order of their places, so it is a strict weak order. -/
theorem lt_iff_rank_lt {x y : Float} (hx : isFinite x) (hy : isFinite y) :
    x < y ↔ rank x < rank y := by
  rw [rank, rank, ← lt_iff_place_lt hx hy]
  show decide (x.toModel < y.toModel) = true ↔ _
  rw [decide_eq_true_iff]
  rfl

end PyFloat

end ChainMonitor.ProofKit
