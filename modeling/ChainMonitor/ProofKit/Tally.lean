import Mathlib.Algebra.BigOperators.Group.Finset.Basic
import Mathlib.Algebra.BigOperators.Group.Finset.Piecewise
import Mathlib.Algebra.Group.Pi.Basic
import Mathlib.Data.Fintype.Basic

/-! Histograms: how many elements of a list fall in each bucket, and the loop that counts them. -/

namespace ChainMonitor.ProofKit

variable {α ι : Type*} [DecidableEq ι]

/-- One more in bucket `b`. -/
def bump (counts : ι → ℕ) (b : ι) : ι → ℕ := Function.update counts b (counts b + 1)

/-- How many elements fall in each bucket. -/
def tally (bucket : α → ι) (as : List α) (b : ι) : ℕ := as.countP fun a => bucket a = b

variable {bucket : α → ι} {as bs : List α} {p : α → Bool}

@[simp] theorem tally_nil (b : ι) : tally bucket [] b = 0 := rfl

theorem tally_cons (a : α) (as : List α) :
    tally bucket (a :: as) = bump (tally bucket as) (bucket a) := by
  funext b
  by_cases h : bucket a = b
  · subst h
    simp [tally, bump]
  · simp [tally, bump, h, Function.update_of_ne (Ne.symm h)]

theorem tally_append (as bs : List α) :
    tally bucket (as ++ bs) = tally bucket as + tally bucket bs := by
  funext b
  exact List.countP_append

theorem bump_add (counts more : ι → ℕ) (b : ι) : bump counts b + more = bump (counts + more) b := by
  funext c
  by_cases h : c = b
  · subst h
    simp only [bump, Pi.add_apply, Function.update_self]
    omega
  · simp [bump, h]

/-- The loop adds the tally of the list to the counts. -/
theorem foldl_bump (counts : ι → ℕ) (as : List α) :
    as.foldl (fun counts a => bump counts (bucket a)) counts = counts + tally bucket as := by
  induction as generalizing counts with
  | nil => rfl
  | cons a as ih =>
    rw [List.foldl_cons, ih, tally_cons, bump_add, add_comm counts (bump _ _), bump_add,
      add_comm counts]

section Finite

variable [Fintype ι]

theorem sum_bump (counts : ι → ℕ) (b : ι) : ∑ c, bump counts b c = (∑ c, counts c) + 1 := by
  have hbump : ∀ c, bump counts b c = counts c + if c = b then 1 else 0 := by
    intro c
    by_cases h : c = b
    · subst h
      simp [bump]
    · simp [bump, h]
  simp [hbump, Finset.sum_add_distrib]

/-- Every element falls in one bucket. -/
theorem sum_tally (as : List α) : ∑ b, tally bucket as b = as.length := by
  induction as with
  | nil => simp
  | cons a as ih => rw [tally_cons, sum_bump, ih, List.length_cons]

/-- Elements that are left out are missing in the tally. -/
theorem tally_filter_eq_iff : tally bucket (as.filter p) = tally bucket as ↔ ∀ a ∈ as, p a := by
  constructor
  · intro h
    have hsum : ∑ b, tally bucket (as.filter p) b = ∑ b, tally bucket as b := by rw [h]
    rw [sum_tally, sum_tally] at hsum
    exact List.length_filter_eq_length_iff.mp hsum
  · intro h
    rw [List.filter_eq_self.mpr h]

end Finite

end ChainMonitor.ProofKit
