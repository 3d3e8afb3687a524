import ChainMonitor.ProofKit.Dict
import ChainMonitor.ProofKit.Tally
import Mathlib.Algebra.Ring.Nat

/-! Counters and histograms with labels, how a stream of events moves them, and streams of which no
beginning spends more than it has earned. -/

namespace ChainMonitor.ProofKit.Metric

/-! ### Metrics with labels -/

variable {κ β : Type} [DecidableEq κ]

/-- What the metric of the labels is, which is `zero` before it is used. -/
def child (zero : β) (m : Dict κ β) (labels : κ) : β := (m.get? labels).getD zero

def onChild (zero : β) (labels : κ) (f : β → β) (m : Dict κ β) : Dict κ β :=
  m.set labels (f (child zero m labels))

theorem child_onChild {zero : β} {labels other : κ} {f : β → β} {m : Dict κ β} :
    child zero (onChild zero labels f m) other =
      if other = labels then f (child zero m other) else child zero m other := by
  unfold onChild child
  rw [Dict.get?_set]
  split
  · rename_i h
    rw [h, Option.getD_some]
  · rfl

/-- Counters by their labels. -/
abbrev Counters (κ : Type) [DecidableEq κ] := Dict κ ℕ

def inc (labels : κ) (n : ℕ) (m : Counters κ) : Counters κ := onChild 0 labels (· + n) m

def value (m : Counters κ) (labels : κ) : ℕ := child 0 m labels

theorem value_inc {labels other : κ} {n : ℕ} {m : Counters κ} :
    value (inc labels n m) other = value m other + if labels = other then n else 0 := by
  unfold value inc
  rw [child_onChild]
  by_cases h : other = labels
  · simp [h]
  · simp [h, Ne.symm h]

/-- How many observations there are at most each upper bound and above the one before it, the last
ones above all bounds, and the sum of the observations. -/
structure Histogram {α : Type} (bounds : List α) where
  buckets : Fin (bounds.length + 1) → ℕ
  sum : α

section Histogram

variable {α : Type} {bounds : List α}

def Histogram.empty [Zero α] : Histogram bounds := ⟨0, 0⟩

def bucketOf [LE α] [DecidableLE α] (bounds : List α) (x : α) : Fin (bounds.length + 1) :=
  ⟨bounds.findIdx fun bound => x ≤ bound, Nat.lt_succ_of_le List.findIdx_le_length⟩

def Histogram.observe [LE α] [DecidableLE α] [Add α] (x : α) (h : Histogram bounds) :
    Histogram bounds :=
  ⟨bump h.buckets (bucketOf bounds x), h.sum + x⟩

/-- The count that goes with the buckets. -/
def Histogram.count (h : Histogram bounds) : ℕ := ∑ b, h.buckets b

@[simp] theorem Histogram.count_empty [Zero α] : (empty : Histogram bounds).count = 0 := by
  simp [count, empty]

@[simp] theorem Histogram.count_observe [LE α] [DecidableLE α] [Add α] (x : α)
    (h : Histogram bounds) : (h.observe x).count = h.count + 1 :=
  sum_bump h.buckets (bucketOf bounds x)

/-- Histograms by their labels. -/
abbrev Histograms (κ : Type) [DecidableEq κ] {α : Type} (bounds : List α) :=
  Dict κ (Histogram bounds)

variable [Zero α] [Add α] [LE α] [DecidableLE α]

def observe (labels : κ) (x : α) (m : Histograms κ bounds) : Histograms κ bounds :=
  onChild .empty labels (Histogram.observe x) m

def count (m : Histograms κ bounds) (labels : κ) : ℕ := (child .empty m labels).count

theorem count_observe {labels other : κ} {x : α} {m : Histograms κ bounds} :
    count (observe labels x m) other = count m other + if labels = other then 1 else 0 := by
  unfold count observe
  rw [child_onChild]
  by_cases h : other = labels
  · simp [h]
  · simp [h, Ne.symm h]

end Histogram

/-! ### Streams of events -/

variable {E σ δ : Type}

/-- What each event adds to a measure of the state, a run of events adds in all. -/
theorem foldl_add {f : σ → E → σ} {g : σ → ℕ} {w : E → ℕ}
    (h : ∀ s e, g (f s e) = g s + w e) (es : List E) (s : σ) :
    g (es.foldl f s) = g s + (es.map w).sum := by
  induction es generalizing s with
  | nil => rfl
  | cons e es ih =>
    rw [List.foldl_cons, ih, h, List.map_cons, List.sum_cons]
    omega

/-- No beginning of the stream spends more than it has earned. -/
def Solvent (earned spent : E → ℕ) (es : List E) : Prop :=
  ∀ seen, seen <+: es → (seen.map spent).sum ≤ (seen.map earned).sum

variable {earned spent : E → ℕ} {es more : List E}

theorem solvent_nil : Solvent earned spent [] := by
  intro seen hseen
  rw [List.prefix_nil.mp hseen]
  exact Nat.le_refl _

theorem Solvent.append (h : Solvent earned spent es) (h' : Solvent earned spent more) :
    Solvent earned spent (es ++ more) := by
  intro seen hseen
  rcases List.prefix_or_prefix_of_prefix hseen (List.prefix_append es more) with
    hfirst | ⟨later, rfl⟩
  · exact h seen hfirst
  · have hall := h es (List.prefix_refl es)
    have hrest := h' later ((List.prefix_append_right_inj es).mp hseen)
    rw [List.map_append, List.map_append, List.sum_append, List.sum_append]
    omega

theorem Solvent.flatten {words : List (List E)} (h : ∀ es ∈ words, Solvent earned spent es) :
    Solvent earned spent words.flatten := by
  induction words with
  | nil => exact solvent_nil
  | cons es words ih =>
    obtain ⟨hfirst, hrest⟩ := List.forall_mem_cons.mp h
    exact hfirst.append (ih hrest)

/-- The first event earns what the stream spends. -/
theorem solvent_cons {e : E} (h : ((e :: es).map spent).sum ≤ earned e) :
    Solvent earned spent (e :: es) := by
  intro seen hseen
  rcases List.prefix_cons_iff.mp hseen with rfl | ⟨later, rfl, hlater⟩
  · exact Nat.le_refl _
  · obtain ⟨rest, rfl⟩ := hlater
    simp only [List.map_cons, List.sum_cons, List.map_append, List.sum_append] at h ⊢
    omega

end ChainMonitor.ProofKit.Metric
