import Mathlib.Data.List.Basic
import Mathlib.Data.List.Pairwise

/-! Tables under unique constraints that may be partial. `clash` says of two rows that a constraint
lets only one of them stand, so that `clash r r` may fail for a row that no constraint covers. -/

namespace ChainMonitor.ProofKit

variable {α : Type*}

/-- Rows of which no two clash. -/
structure UniqueRows (clash : α → α → Prop) where
  rows : List α
  apart : rows.Pairwise fun r s => ¬clash r s

namespace UniqueRows

variable {clash : α → α → Prop} {t t' : UniqueRows clash} {r s row : α}

def empty : UniqueRows clash := ⟨[], .nil⟩

section Insert

variable [DecidableRel clash]

/-- The table after `row` has been inserted, or `none` where a row clashes with it. -/
def insert? (row : α) (t : UniqueRows clash) : Option (UniqueRows clash) :=
  if h : ∃ r ∈ t.rows, clash r row then none
  else some
    { rows := t.rows ++ [row]
      apart := by
        refine List.pairwise_append.mpr ⟨t.apart, List.pairwise_singleton _ _, ?_⟩
        intro r hr s hs hclash
        rw [List.mem_singleton.mp hs] at hclash
        exact h ⟨r, hr, hclash⟩ }

theorem insert?_eq_none : t.insert? row = none ↔ ∃ r ∈ t.rows, clash r row := by
  unfold insert?
  split
  · simp [*]
  · simp [*]

theorem rows_of_insert? (h : t.insert? row = some t') : t'.rows = t.rows ++ [row] := by
  unfold insert? at h
  split at h
  · cases h
  · cases h
    rfl

theorem mem_of_insert? (h : t.insert? row = some t') : r ∈ t'.rows ↔ r ∈ t.rows ∨ r = row := by
  rw [rows_of_insert? h, List.mem_append, List.mem_singleton]

end Insert

/-- The table after every row has been rewritten by `f`, which makes no two rows clash. -/
def update (f : α → α) (hf : ∀ r s, clash (f r) (f s) → clash r s) (t : UniqueRows clash) :
    UniqueRows clash where
  rows := t.rows.map f
  apart := List.pairwise_map.mpr (t.apart.imp fun hrs hclash => hrs (hf _ _ hclash))

/-- Two rows that clash are one row. -/
theorem eq_of_clash [Std.Symm clash] (hr : r ∈ t.rows) (hs : s ∈ t.rows) (h : clash r s) :
    r = s := by
  by_contra hne
  have hnot : Std.Symm fun r s => ¬clash r s :=
    ⟨fun r s hrs hsr => hrs (Std.Symm.symm s r hsr)⟩
  exact t.apart.forall hr hs hne h

end UniqueRows

end ChainMonitor.ProofKit
