import ChainMonitor.ProofKit.Grouping
import Mathlib.Algebra.Order.Floor.Ring
import Mathlib.Data.List.Sort
import Mathlib.Data.Nat.Sqrt
import Mathlib.Data.Rat.Floor
import Mathlib.Tactic.FieldSimp
import Mathlib.Tactic.Linarith
import Mathlib.Tactic.Positivity

/-! What PostgreSQL computes over the rows of a table: the groups of `GROUP BY`, and aggregates over
the values of a group. NULL is `none`; an aggregate over no values is NULL, but for a count.
Averages and quotients of `numeric` values are exact. -/

namespace ChainMonitor.ProofKit.Sql

variable {ε ρ κ α : Type*}

/-- The values of the type `integer`. -/
def IsInt (n : ℤ) : Prop := -2 ^ 31 ≤ n ∧ n < 2 ^ 31

instance (n : ℤ) : Decidable (IsInt n) := by
  unfold IsInt
  infer_instance

/-- `n::int`, which raises `error` for a number that is out of range. -/
def toInt (error : ε) (n : ℤ) : Except ε ℤ := if IsInt n then .ok n else .error error

/-- The nearest integer, and of two the one away from zero. -/
def roundAway (x : ℚ) : ℤ := if 0 ≤ x then ⌊x + 1 / 2⌋ else -⌊-x + 1 / 2⌋

/-- `ROUND(x, places)`. -/
def round (places : ℕ) (x : ℚ) : ℚ := roundAway (x * 10 ^ places) / 10 ^ places

def avg (xs : List ℤ) : Option ℚ := if xs = [] then none else some (xs.sum / xs.length)

/-- `PERCENTILE_CONT(0.5)`: the value in the middle, or the mean of two. -/
def median (xs : List ℤ) : Option ℚ :=
  let sorted := xs.insertionSort (· ≤ ·)
  match sorted[(xs.length - 1) / 2]?, sorted[xs.length / 2]? with
  | some a, some b => some ((a + b) / 2)
  | _, _ => none

/-- `ROUND(SQRT(x), places)` of a number that is not negative: the greatest `n` of which `2 n - 1`
is at most twice the root, in units of the last place. -/
def roundSqrt (places : ℕ) (x : ℚ) : ℚ :=
  ((Nat.sqrt ⌊4 * 10 ^ (2 * places) * x⌋₊ + 1) / 2 : ℕ) / 10 ^ places

/-- `ROUND(STDDEV(xs), places)`, the deviation of a sample. -/
def roundStddev (places : ℕ) (xs : List ℤ) : Option ℚ :=
  let mean : ℚ := xs.sum / xs.length
  if xs.length < 2 then none
  else some (roundSqrt places ((xs.map fun x => (x - mean) ^ 2).sum / (xs.length - 1)))

/-- `WIDTH_BUCKET(x, lo, hi, n)`, for `lo < hi`. -/
def widthBucket (x lo hi n : ℤ) : ℤ :=
  if x < lo then 0 else if hi ≤ x then n + 1 else (x - lo) * n / (hi - lo) + 1

/-- `a / NULLIF(b, 0)` of two integers, which leaves out the fraction. -/
def quotient : Option ℤ → Option ℤ → Option ℤ
  | some a, some b => if b = 0 then none else some (a.tdiv b)
  | _, _ => none

/-- The rows by their values of `key`. The groups stand in the order in which they begin. -/
def groupBy [DecidableEq κ] (key : ρ → κ) (rows : List ρ) : List (κ × List ρ) :=
  (Dict.groups (rows.map fun r => (key r, r))).rows

/-- `ORDER BY`: what is equal in this order stays as it was. -/
def orderBy (before : α → α → Bool) (rows : List α) : List α :=
  rows.insertionSort fun a b => before a b = true

section

variable {error : ε} {n : ℤ} {xs : List ℤ} {rows : List ρ}

theorem toInt_eq_ok {m : ℤ} : toInt error n = .ok m ↔ IsInt n ∧ m = n := by
  unfold toInt
  split
  · rename_i h
    simp [h, eq_comm]
  · rename_i h
    simp [h]

theorem avg_eq_none : avg xs = none ↔ xs = [] := by
  simp [avg]

/-- A group is all rows of its key, and there is one at least. -/
theorem mem_groupBy [DecidableEq κ] {key : ρ → κ} {g : κ × List ρ} :
    g ∈ groupBy key rows ↔ g.2 ≠ [] ∧ g.2 = rows.filter fun r => key r = g.1 := by
  have hown : Dict.own (rows.map fun r => (key r, r)) g.1 = rows.filter fun r => key r = g.1 := by
    simp [Dict.own, List.filter_map, Function.comp_def]
  rw [groupBy, Dict.mem_groups, hown]
  constructor
  · rintro ⟨hne, heq⟩
    exact ⟨heq ▸ hne, heq⟩
  · rintro ⟨hne, heq⟩
    exact ⟨heq ▸ hne, heq⟩

/-- The group that a row is in. -/
theorem groupBy_of_mem [DecidableEq κ] {key : ρ → κ} {r : ρ} (h : r ∈ rows) :
    (key r, rows.filter fun s => key s = key r) ∈ groupBy key rows :=
  mem_groupBy.mpr ⟨List.ne_nil_of_mem (List.mem_filter.mpr ⟨h, by simp⟩), rfl⟩

theorem mem_group [DecidableEq κ] {key : ρ → κ} {g : κ × List ρ} (h : g ∈ groupBy key rows)
    {r : ρ} : r ∈ g.2 ↔ r ∈ rows ∧ key r = g.1 := by
  rw [(mem_groupBy.mp h).2, List.mem_filter, decide_eq_true_iff]

theorem sublist_of_mem_groupBy [DecidableEq κ] {key : ρ → κ} {g : κ × List ρ}
    (h : g ∈ groupBy key rows) : g.2.Sublist rows := by
  rw [(mem_groupBy.mp h).2]
  exact List.filter_sublist

theorem mem_orderBy {before : α → α → Bool} {as : List α} {a : α} :
    a ∈ orderBy before as ↔ a ∈ as :=
  List.mem_insertionSort _

end

/-! ### Rounding -/

section

variable {x y : ℚ} {m n : ℤ}

theorem le_roundAway (k : ℕ) : (k + 1 : ℤ) ≤ roundAway x ↔ (k + 1 / 2 : ℚ) ≤ x := by
  have hk : (0 : ℚ) ≤ k := by positivity
  unfold roundAway
  split
  · rw [Int.le_floor]
    push_cast
    constructor
    · intro h
      linarith
    · intro h
      linarith
  · rename_i hneg
    have hfloor : 0 ≤ ⌊-x + 1 / 2⌋ := Int.floor_nonneg.mpr (by linarith)
    exact iff_of_false (by omega) (by linarith)

theorem roundAway_neg (h : x ≠ 0) : roundAway (-x) = -roundAway x := by
  unfold roundAway
  rcases lt_or_gt_of_ne h with hlt | hgt
  · rw [if_pos (by linarith), if_neg (by linarith), neg_neg]
  · rw [if_neg (by linarith), if_pos hgt.le, neg_neg]

theorem roundAway_le (k : ℕ) : roundAway x ≤ -(k + 1 : ℤ) ↔ x ≤ -(k + 1 / 2 : ℚ) := by
  by_cases h : x = 0
  · subst h
    have hk : (0 : ℚ) ≤ k := by positivity
    have hzero : roundAway 0 = 0 := by decide +kernel
    rw [hzero]
    exact iff_of_false (by omega) (by linarith)
  · rw [le_neg, ← roundAway_neg h, le_roundAway, le_neg]

/-- Integers that pass the same ones in both directions are the same. -/
theorem eq_of_passed (h : ∀ k : ℕ, ((k + 1 : ℤ) ≤ m ↔ (k + 1 : ℤ) ≤ n) ∧
    (m ≤ -(k + 1 : ℤ) ↔ n ≤ -(k + 1 : ℤ))) : m = n := by
  rcases lt_trichotomy m n with hlt | heq | hgt
  · by_cases hn : 1 ≤ n
    · have := (h (n - 1).toNat).1
      omega
    · have := (h (-m - 1).toNat).2
      omega
  · exact heq
  · by_cases hm : 1 ≤ m
    · have := (h (m - 1).toNat).1
      omega
    · have := (h (-n - 1).toNat).2
      omega

/-- Two numbers are rounded to one when no half lies between them. -/
theorem roundAway_eq_iff : roundAway x = roundAway y ↔
    ∀ k : ℕ, ((k + 1 / 2 : ℚ) ≤ x ↔ (k + 1 / 2 : ℚ) ≤ y) ∧
      (x ≤ -(k + 1 / 2 : ℚ) ↔ y ≤ -(k + 1 / 2 : ℚ)) := by
  simp only [← le_roundAway, ← roundAway_le]
  constructor
  · intro h k
    rw [h]
    exact ⟨Iff.rfl, Iff.rfl⟩
  · exact eq_of_passed

theorem round_eq_iff {places : ℕ} : round places x = round places y ↔
    roundAway (x * 10 ^ places) = roundAway (y * 10 ^ places) := by
  have hpow : (10 : ℚ) ^ places ≠ 0 := by positivity
  rw [round, round, div_left_inj' hpow, Int.cast_inj]

theorem abs_roundAway_sub_le (x : ℚ) : |(roundAway x : ℚ) - x| ≤ 1 / 2 := by
  unfold roundAway
  rw [abs_le]
  split
  · have h1 := Int.floor_le (x + 1 / 2)
    have h2 := Int.lt_floor_add_one (x + 1 / 2)
    constructor
    · linarith
    · linarith
  · have h1 := Int.floor_le (-x + 1 / 2)
    have h2 := Int.lt_floor_add_one (-x + 1 / 2)
    push_cast
    constructor
    · linarith
    · linarith

theorem abs_round_sub_le (places : ℕ) (x : ℚ) : |round places x - x| ≤ 1 / (2 * 10 ^ places) := by
  have hpow : (0 : ℚ) < 10 ^ places := by positivity
  have hsub : round places x - x =
      ((roundAway (x * 10 ^ places) : ℚ) - x * 10 ^ places) / 10 ^ places := by
    rw [round]
    field_simp
  rw [hsub, abs_div, abs_of_pos hpow, div_le_iff₀ hpow]
  calc |(roundAway (x * 10 ^ places) : ℚ) - x * 10 ^ places| ≤ 1 / 2 := abs_roundAway_sub_le _
    _ = 1 / (2 * 10 ^ places) * 10 ^ places := by field_simp

end

end ChainMonitor.ProofKit.Sql
