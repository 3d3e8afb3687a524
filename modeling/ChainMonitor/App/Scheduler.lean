import ChainMonitor.ProofKit.Run
import Mathlib.Algebra.Order.Ring.Int
import Mathlib.Data.List.Basic
import Mathlib.Tactic.Linarith
import Mathlib.Tactic.Ring

/-! `ChainPipelineScheduler` of `app/services/chain_scheduler.py`. Windows are minutes. A tick
builds its batch of due windows from the current minute, and tries them in order. -/

namespace ChainMonitor.Scheduler

open ProofKit

/-- The parameters of a scheduler, with the bounds that `__init__` puts on them. -/
structure Config where
  windowStepMinutes : ℤ
  catchupWindows : ℕ
  one_le_step : 1 ≤ windowStepMinutes
  one_le_catchup : 1 ≤ catchupWindows

/-- `round(n / 60)`, which rounds a half to the even neighbour. -/
def roundMinutes (n : ℤ) : ℤ :=
  if n % 60 < 30 ∨ (n % 60 = 30 ∧ n / 60 % 2 = 0) then n / 60 else n / 60 + 1

def Config.init (intervalSeconds catchupWindows : ℤ) : Config where
  windowStepMinutes := max 1 (roundMinutes (max 10 intervalSeconds))
  catchupWindows := (max 1 catchupWindows).toNat
  one_le_step := le_max_left _ _
  one_le_catchup := one_le_toNat_max catchupWindows

/-- The windows `next, next + step, ...` up to `current`, of which there are `fuel` at most. -/
def windowsFrom (step current : ℤ) : ℕ → ℤ → List ℤ
  | 0, _ => []
  | fuel + 1, next =>
    if next ≤ current then next :: windowsFrom step current fuel (next + step) else []

/-- The loop of `_build_due_windows`. A step is at least a minute, which bounds its iterations. -/
def dueWindows (step last current : ℤ) : List ℤ :=
  windowsFrom step current (current - last).toNat (last + step)

def buildDueWindows (cfg : Config) (lastWindowTs : Option ℤ) (current : ℤ) : List ℤ :=
  match lastWindowTs with
  | none => [current]
  | some last =>
    let due := dueWindows cfg.windowStepMinutes last current
    if due = [] then [current]
    else if cfg.catchupWindows < due.length then due.drop (due.length - cfg.catchupWindows)
    else due

/-- What becomes of a window in the loop over a batch. -/
inductive Outcome
  | lockNotAcquired
  | claimRaised
  | duplicate
  | succeeded
  | failed
  deriving DecidableEq

/-- The loop sets `_last_window_ts` to the window. -/
def Outcome.advances : Outcome → Bool
  | .duplicate | .succeeded => true
  | .lockNotAcquired | .claimRaised | .failed => false

/-- A window's turn, and the windows that others have claimed since the turn before. -/
structure Turn where
  claimedByOthers : List ℤ
  outcome : Outcome
  deriving DecidableEq

structure Tick where
  current : ℤ
  turns : List Turn
  deriving DecidableEq

/-- The scheduler of one chain, the minute of its last tick, and the windows that `pipeline_runs`
holds a claim for. -/
structure System where
  clock : ℤ
  lastWindowTs : Option ℤ
  claimed : List ℤ
  deriving DecidableEq

def created (t : ℤ) (claimed : List ℤ) : System := ⟨t, none, claimed⟩

/-- The body of the loop. A window that has a claim is a duplicate, and one that has none is claimed
before it is run. -/
def turn (s : System) : ℤ × Turn → Option System
  | (w, ⟨others, o⟩) =>
    match o with
    | .lockNotAcquired | .claimRaised => some { s with claimed := others ++ s.claimed }
    | .duplicate =>
      if w ∈ others ++ s.claimed then
        some { s with claimed := others ++ s.claimed, lastWindowTs := some w }
      else none
    | .succeeded =>
      if w ∈ others ++ s.claimed then none
      else some { s with claimed := w :: others ++ s.claimed, lastWindowTs := some w }
    | .failed =>
      if w ∈ others ++ s.claimed then none
      else some { s with claimed := w :: others ++ s.claimed }

def batch (cfg : Config) (s : System) (e : Tick) : List ℤ :=
  buildDueWindows cfg s.lastWindowTs e.current

def tick (cfg : Config) (s : System) (e : Tick) : Option System :=
  if s.clock ≤ e.current ∧ e.turns.length = (batch cfg s e).length then
    (exec turn s ((batch cfg s e).zip e.turns)).map fun s' => { s' with clock := e.current }
  else none

/-! ### The due windows -/

theorem windowsFrom_eq {step current : ℤ} (hs : 1 ≤ step) (fuel : ℕ) (next : ℤ)
    (hf : current - next < fuel) :
    windowsFrom step current fuel next =
      (List.range ((current - next) / step + 1).toNat).map fun i : ℕ => next + i * step := by
  induction fuel generalizing next with
  | zero =>
    have hneg : (current - next) / step < 0 :=
      Int.ediv_neg_of_neg_of_pos (by simpa using hf) (by omega)
    have hzero : ((current - next) / step + 1).toNat = 0 := by omega
    simp [windowsFrom, hzero]
  | succ fuel ih =>
    unfold windowsFrom
    split
    · rename_i hle
      have hq : (current - (next + step)) / step = (current - next) / step - 1 := by
        rw [← sub_sub, Int.sub_ediv_of_dvd _ (dvd_refl step), Int.ediv_self (by omega)]
      have hnonneg : 0 ≤ (current - next) / step := Int.ediv_nonneg (by omega) (by omega)
      have hlen : ((current - next) / step + 1).toNat = ((current - next) / step).toNat + 1 := by
        omega
      rw [ih (next + step) (by omega), hq, hlen, List.range_succ_eq_map]
      simp only [sub_add_cancel, List.map_cons, List.map_map, Nat.cast_zero, zero_mul, add_zero,
        List.cons.injEq, true_and]
      refine List.map_congr_left fun i _ => ?_
      simp only [Function.comp, Nat.succ_eq_add_one, Nat.cast_add, Nat.cast_one]
      ring
    · rename_i hlt
      have hneg : (current - next) / step < 0 := Int.ediv_neg_of_neg_of_pos (by omega) (by omega)
      have hzero : ((current - next) / step + 1).toNat = 0 := by omega
      simp [hzero]

/-- The number of due windows. -/
def dueCount (step last current : ℤ) : ℕ := ((current - last) / step).toNat

theorem dueWindows_eq {step : ℤ} (hs : 1 ≤ step) (last current : ℤ) :
    dueWindows step last current =
      (List.range (dueCount step last current)).map fun i : ℕ => last + (i + 1) * step := by
  have hq : (current - (last + step)) / step = (current - last) / step - 1 := by
    rw [← sub_sub, Int.sub_ediv_of_dvd _ (dvd_refl step), Int.ediv_self (by omega)]
  rw [dueWindows, windowsFrom_eq hs _ _ (by omega), hq, sub_add_cancel, dueCount]
  refine List.map_congr_left fun i _ => ?_
  ring

section Due

variable {cfg : Config} {last current w : ℤ}

/-- The window of index `k` on the grid after `last`. -/
def gridWindow (cfg : Config) (last : ℤ) (k : ℕ) : ℤ := last + (k + 1) * cfg.windowStepMinutes

theorem gridWindow_le_iff {k : ℕ} :
    gridWindow cfg last k ≤ current ↔ k < dueCount cfg.windowStepMinutes last current := by
  have hs := cfg.one_le_step
  have hmul : gridWindow cfg last k ≤ current ↔
      ((k : ℤ) + 1) * cfg.windowStepMinutes ≤ current - last := by
    unfold gridWindow
    constructor <;> intro h <;> linarith
  rw [hmul, ← Int.le_ediv_iff_mul_le (by omega), dueCount]
  omega

theorem gridWindow_add {k j : ℕ} :
    gridWindow cfg last k + j * cfg.windowStepMinutes = gridWindow cfg last (k + j) := by
  simp only [gridWindow, Nat.cast_add]
  ring

theorem gridWindow_lt {k j : ℕ} (h : k < j) : gridWindow cfg last k < gridWindow cfg last j := by
  have hs := cfg.one_le_step
  obtain ⟨m, rfl⟩ := Nat.exists_eq_add_of_lt h
  rw [Nat.add_assoc, ← gridWindow_add]
  have : 0 < ((m + 1 : ℕ) : ℤ) * cfg.windowStepMinutes := by positivity
  omega

theorem gridWindow_injective {k j : ℕ} (h : gridWindow cfg last k = gridWindow cfg last j) :
    k = j := by
  rcases lt_trichotomy k j with hlt | rfl | hlt
  · exact absurd h (gridWindow_lt hlt).ne
  · rfl
  · exact absurd h (gridWindow_lt hlt).ne'

/-- The grid after a window of the grid is the rest of it. -/
theorem gridWindow_gridWindow {k j : ℕ} :
    gridWindow cfg (gridWindow cfg last k) j = gridWindow cfg last (k + (j + 1)) := by
  rw [← gridWindow_add, gridWindow, Nat.cast_add, Nat.cast_one]

/-- The batch of a tick with due windows: the last ones of the grid, at most `catchupWindows`. -/
theorem buildDueWindows_eq (h : gridWindow cfg last 0 ≤ current) :
    buildDueWindows cfg (some last) current =
      ((List.range (dueCount cfg.windowStepMinutes last current)).map (gridWindow cfg last)).drop
        (dueCount cfg.windowStepMinutes last current - cfg.catchupWindows) := by
  have hpos := gridWindow_le_iff.mp h
  have hdue : dueWindows cfg.windowStepMinutes last current =
      (List.range (dueCount cfg.windowStepMinutes last current)).map (gridWindow cfg last) :=
    dueWindows_eq cfg.one_le_step last current
  simp only [buildDueWindows, hdue, List.map_eq_nil_iff, List.range_eq_nil, List.length_map,
    List.length_range, hpos.ne', ↓reduceIte]
  split
  · rfl
  · rename_i hle
    rw [Nat.sub_eq_zero_of_le (not_lt.mp hle), List.drop_zero]

/-- With no window due after the last one, the batch is the current minute. -/
theorem buildDueWindows_fallback (h : current < gridWindow cfg last 0) :
    buildDueWindows cfg (some last) current = [current] := by
  have hzero : dueCount cfg.windowStepMinutes last current = 0 := by
    have := mt gridWindow_le_iff.mpr h.not_ge
    omega
  simp [buildDueWindows, dueWindows_eq cfg.one_le_step, hzero]

theorem buildDueWindows_getElem? (h : gridWindow cfg last 0 ≤ current) {i : ℕ} :
    (buildDueWindows cfg (some last) current)[i]? = some w ↔
      ∃ k, k = dueCount cfg.windowStepMinutes last current - cfg.catchupWindows + i ∧
        gridWindow cfg last k ≤ current ∧ gridWindow cfg last k = w := by
  rw [buildDueWindows_eq h, List.getElem?_drop]
  simp only [List.getElem?_map, Option.map_eq_some_iff, gridWindow_le_iff]
  constructor
  · rintro ⟨k, hk, hw⟩
    obtain ⟨hlt, rfl⟩ := List.getElem?_eq_some_iff.mp hk
    rw [List.getElem_range] at hw
    exact ⟨_, rfl, by simpa using hlt, hw⟩
  · rintro ⟨k, rfl, hlt, hw⟩
    exact ⟨_, List.getElem?_range hlt, hw⟩

/-- A window of the grid is in the batch when it is due and fewer than `catchupWindows` later ones
are. -/
theorem mem_buildDueWindows (h : gridWindow cfg last 0 ≤ current) {k : ℕ} :
    gridWindow cfg last k ∈ buildDueWindows cfg (some last) current ↔
      gridWindow cfg last k ≤ current ∧ current < gridWindow cfg last (k + cfg.catchupWindows) := by
  rw [List.mem_iff_getElem?, ← not_le, gridWindow_le_iff (k := k + cfg.catchupWindows)]
  constructor
  · rintro ⟨i, hi⟩
    obtain ⟨j, hj, hle, hw⟩ := (buildDueWindows_getElem? h).mp hi
    obtain rfl : j = k := gridWindow_injective hw
    have hlt := gridWindow_le_iff.mp hle
    exact ⟨hle, by omega⟩
  · rintro ⟨hle, hlt⟩
    have hk := gridWindow_le_iff.mp hle
    refine ⟨k - (dueCount cfg.windowStepMinutes last current - cfg.catchupWindows),
      (buildDueWindows_getElem? h).mpr ⟨k, by omega, hle, rfl⟩⟩

/-- A window of the batch comes after the last one, unless it is the current minute. -/
theorem lt_or_eq_of_mem (hw : w ∈ buildDueWindows cfg (some last) current) :
    last < w ∨ w = current := by
  by_cases h : gridWindow cfg last 0 ≤ current
  · obtain ⟨i, hi⟩ := List.mem_iff_getElem?.mp hw
    obtain ⟨k, -, -, rfl⟩ := (buildDueWindows_getElem? h).mp hi
    have hs := cfg.one_le_step
    have hpos : 0 < ((k : ℤ) + 1) * cfg.windowStepMinutes := by positivity
    exact .inl (by unfold gridWindow; omega)
  · rw [buildDueWindows_fallback (not_le.mp h), List.mem_singleton] at hw
    exact .inr hw

end Due

/-! ### The turns of a batch -/

section Turns

variable {s s' : System} {w : ℤ} {t : Turn}

/-- What a turn leaves behind. -/
theorem turn_eq_some (h : turn s (w, t) = some s') :
    s'.lastWindowTs = (if t.outcome.advances then some w else s.lastWindowTs) ∧
      s.claimed ⊆ s'.claimed ∧ (t.outcome.advances = true → w ∈ s'.claimed) := by
  obtain ⟨others, o⟩ := t
  have hsub : s.claimed ⊆ others ++ s.claimed := List.subset_append_right _ _
  have hcons : s.claimed ⊆ w :: others ++ s.claimed := fun x hx => by simp [hx]
  cases o with
  | lockNotAcquired | claimRaised =>
    cases h
    exact ⟨rfl, hsub, nofun⟩
  | duplicate =>
    simp only [turn, Option.ite_none_right_eq_some, Option.some_inj] at h
    obtain ⟨hw, rfl⟩ := h
    exact ⟨rfl, hsub, fun _ => hw⟩
  | succeeded =>
    simp only [turn, Option.ite_none_left_eq_some, Option.some_inj] at h
    obtain ⟨hw, rfl⟩ := h
    exact ⟨rfl, hcons, fun _ => by simp⟩
  | failed =>
    simp only [turn, Option.ite_none_left_eq_some, Option.some_inj] at h
    obtain ⟨hw, rfl⟩ := h
    exact ⟨rfl, hcons, nofun⟩

/-- Where turns leave the high-water mark: at the last of their windows that advances it. -/
inductive Left (turns : List (ℤ × Turn)) (before : Option ℤ) : Option ℤ → Prop
  | unmoved (h : ∀ p : ℤ × Turn, p ∈ turns → p.2.outcome.advances = false) :
      Left turns before before
  | moved {j : ℕ} {w : ℤ} {t : Turn} (hj : turns[j]? = some (w, t))
      (ha : t.outcome.advances = true)
      (hlater : ∀ (k : ℕ) (p : ℤ × Turn), j < k → turns[k]? = some p →
        p.2.outcome.advances = false) :
      Left turns before (some w)

theorem Left.concat {turns : List (ℤ × Turn)} {before after : Option ℤ}
    (h : Left turns before after) (w : ℤ) (t : Turn) :
    Left (turns ++ [(w, t)]) before (if t.outcome.advances then some w else after) := by
  have hget : ∀ {k : ℕ} {p}, (turns ++ [(w, t)])[k]? = some p → turns[k]? = some p ∨
      (k = turns.length ∧ p = (w, t)) := by
    intro k p hp
    rcases lt_or_ge k turns.length with hk | hk
    · exact .inl (by rwa [List.getElem?_append_left hk] at hp)
    · rw [List.getElem?_append_right hk, List.getElem?_singleton] at hp
      split at hp
      · cases hp
        exact .inr ⟨by omega, rfl⟩
      · cases hp
  split
  · rename_i ha
    refine .moved (j := turns.length) (by simp) ha fun k p hk hp => ?_
    rcases hget hp with hp | ⟨rfl, -⟩
    · have := (List.getElem?_eq_some_iff.mp hp).1
      omega
    · omega
  · rename_i ha
    cases h with
    | unmoved hall =>
      refine .unmoved fun p hp => ?_
      rcases List.mem_append.mp hp with hp | hp
      · exact hall p hp
      · rw [List.mem_singleton.mp hp]
        simpa using ha
    | @moved j v u hj hv hlater =>
      have hlt := (List.getElem?_eq_some_iff.mp hj).1
      refine .moved (by rw [List.getElem?_append_left hlt, hj]) hv fun k p hk hp => ?_
      rcases hget hp with hp | ⟨-, rfl⟩
      · exact hlater k p hk hp
      · simpa using ha

theorem turns_eq_some {turns : List (ℤ × Turn)} (h : exec turn s turns = some s') :
    Left turns s.lastWindowTs s'.lastWindowTs ∧ s.claimed ⊆ s'.claimed ∧
      ∀ p : ℤ × Turn, p ∈ turns → p.2.outcome.advances = true → p.1 ∈ s'.claimed := by
  refine exec_history (fun turns s' => Left turns s.lastWindowTs s'.lastWindowTs ∧
    s.claimed ⊆ s'.claimed ∧
      ∀ p : ℤ × Turn, p ∈ turns → p.2.outcome.advances = true → p.1 ∈ s'.claimed)
    ⟨.unmoved (by simp), List.Subset.refl _, by simp⟩ ?_ h
  rintro turns u ⟨w, t⟩ v - ⟨hleft, hsub, hclaimed⟩ hstep
  obtain ⟨hlast, hgrow, hadv⟩ := turn_eq_some hstep
  refine ⟨?_, List.Subset.trans hsub hgrow, ?_⟩
  · rw [hlast]
    exact hleft.concat w t
  · intro q hq ha
    rcases List.mem_append.mp hq with hq | hq
    · exact hgrow (hclaimed q hq ha)
    · obtain rfl := List.mem_singleton.mp hq
      exact hadv ha

end Turns

/-! ### Windows that nobody has claimed -/

section Ticks

variable {cfg : Config} {s s' : System} {e : Tick} {i : ℕ} {w next : ℤ}

theorem tick_eq_some : tick cfg s e = some s' ↔
    (s.clock ≤ e.current ∧ e.turns.length = (batch cfg s e).length) ∧
      ∃ u, exec turn s ((batch cfg s e).zip e.turns) = some u ∧
        s' = { u with clock := e.current } := by
  unfold tick
  split
  · rename_i h
    simp [h, eq_comm]
  · rename_i h
    simp [h]

/-- At least `catchupWindows` later windows of its grid are due. -/
def FallsOut (cfg : Config) (next w : ℤ) : Prop :=
  w + cfg.catchupWindows * cfg.windowStepMinutes ≤ next

/-- No later window of the batch was a duplicate or ran with success. -/
def NotPassed (e : Tick) (i : ℕ) : Prop :=
  ∀ j t, i < j → e.turns[j]? = some t → t.outcome.advances = false

/-- A window was due after the last one, so the batch is not the current minute by default. -/
def OnGrid (cfg : Config) (s : System) (e : Tick) : Prop :=
  ∃ last, s.lastWindowTs = some last ∧ last + cfg.windowStepMinutes ≤ e.current

theorem gridWindow_zero {last : ℤ} : gridWindow cfg last 0 = last + cfg.windowStepMinutes := by
  simp [gridWindow]

/-- A window of the grid that is not before the next tick's first one is returned, or falls out. -/
theorem kept_or_fallsOut {last : ℤ} {k : ℕ} (hnext : gridWindow cfg last k ≤ next) :
    gridWindow cfg last k ∈ buildDueWindows cfg (some last) next ∨
      FallsOut cfg next (gridWindow cfg last k) := by
  have hfirst : gridWindow cfg last 0 ≤ next := by
    rcases Nat.eq_zero_or_pos k with rfl | hk
    · exact hnext
    · exact (gridWindow_lt hk).le.trans hnext
  unfold FallsOut
  rw [mem_buildDueWindows hfirst, gridWindow_add]
  rcases lt_or_ge next (gridWindow cfg last (k + cfg.catchupWindows)) with h | h
  · exact .inl ⟨hnext, h⟩
  · exact .inr h

/-- A window before the high-water mark is not returned again. -/
theorem not_kept_of_lt {last : ℤ} (hw : w < last) (hnext : last ≤ next) :
    w ∉ buildDueWindows cfg (some last) next := by
  intro hmem
  rcases lt_or_eq_of_mem hmem with h | h <;> omega

theorem exists_zip_of_turn (hlen : e.turns.length = (batch cfg s e).length) {j : ℕ} {t : Turn}
    (ht : e.turns[j]? = some t) : ∃ w, ((batch cfg s e).zip e.turns)[j]? = some (w, t) := by
  obtain ⟨hlt, -⟩ := List.getElem?_eq_some_iff.mp ht
  exact ⟨_, List.getElem?_zip_eq_some.mpr ⟨List.getElem?_eq_getElem (hlen ▸ hlt), ht⟩⟩

theorem kept_iff_of_onGrid (hgrid : OnGrid cfg s e) {after : Option ℤ}
    (hlen : e.turns.length = (batch cfg s e).length)
    (hleft : Left ((batch cfg s e).zip e.turns) s.lastWindowTs after)
    (hi : (batch cfg s e)[i]? = some w)
    (hown : ∀ t, e.turns[i]? = some t → t.outcome.advances = false) (hnext : e.current ≤ next) :
    (w ∈ buildDueWindows cfg after next ∨ FallsOut cfg next w) ↔
      FallsOut cfg next w ∨ NotPassed e i := by
  have hzip : ∀ j t, e.turns[j]? = some t → ∃ v, ((batch cfg s e).zip e.turns)[j]? = some (v, t) :=
    fun _ _ => exists_zip_of_turn hlen
  obtain ⟨last, hl, hdue⟩ := hgrid
  rw [← gridWindow_zero] at hdue
  rw [batch, hl] at hi hleft hzip
  obtain ⟨k, hk, hle, rfl⟩ := (buildDueWindows_getElem? hdue).mp hi
  cases hleft with
  | unmoved hall =>
    have hpass : NotPassed e i := by
      intro j t _ ht
      obtain ⟨v, hv⟩ := hzip j t ht
      exact hall _ (List.mem_of_getElem? hv)
    exact iff_of_true (kept_or_fallsOut (hle.trans hnext)) (.inr hpass)
  | @moved j w' t hj ha hlater =>
    obtain ⟨hjw, hjt⟩ := List.getElem?_zip_eq_some.mp hj
    obtain ⟨k', hk', hle', rfl⟩ := (buildDueWindows_getElem? hdue).mp hjw
    rcases lt_trichotomy j i with hlt | rfl | hlt
    · have hpass : NotPassed e i := by
        intro j' t' hj' ht'
        obtain ⟨v, hv⟩ := hzip j' t' ht'
        exact hlater j' _ (by omega) hv
      obtain ⟨m, hm⟩ := Nat.exists_eq_add_of_lt hlt
      have hgrid : gridWindow cfg last k = gridWindow cfg (gridWindow cfg last k') m := by
        rw [gridWindow_gridWindow]
        congr 1
        omega
      rw [hgrid] at hle ⊢
      exact iff_of_true (kept_or_fallsOut (hle.trans hnext)) (.inr hpass)
    · exact absurd (hown t hjt) (by simp [ha])
    · have hpassed : ¬ NotPassed e i := fun h => by simp [h j t hlt hjt] at ha
      have hlt : gridWindow cfg last k < gridWindow cfg last k' := gridWindow_lt (by omega)
      have hnot : gridWindow cfg last k ∉
          buildDueWindows cfg (some (gridWindow cfg last k')) next :=
        not_kept_of_lt hlt (hle'.trans hnext)
      simp only [hnot, hpassed, false_or, or_false]

theorem batch_of_not_onGrid (h : ¬ OnGrid cfg s e) : batch cfg s e = [e.current] := by
  unfold batch
  cases hl : s.lastWindowTs with
  | none => rfl
  | some last =>
    refine buildDueWindows_fallback (not_le.mp fun hle => h ⟨last, hl, ?_⟩)
    rwa [← gridWindow_zero]

/-- The current minute, tried by default, is returned again only within the minute. -/
theorem kept_iff_of_not_onGrid (hgrid : ¬ OnGrid cfg s e) :
    e.current ∈ buildDueWindows cfg s.lastWindowTs next ↔ next = e.current := by
  cases hl : s.lastWindowTs with
  | none => simp [buildDueWindows, eq_comm]
  | some last =>
    have hfirst : e.current < gridWindow cfg last 0 := by
      rw [gridWindow_zero]
      exact not_le.mp fun h => hgrid ⟨last, hl, h⟩
    by_cases hnext : gridWindow cfg last 0 ≤ next
    · have hnot : e.current ∉ buildDueWindows cfg (some last) next := by
        intro hmem
        obtain ⟨i, hi⟩ := List.mem_iff_getElem?.mp hmem
        obtain ⟨k, -, -, hk⟩ := (buildDueWindows_getElem? hnext).mp hi
        rcases Nat.eq_zero_or_pos k with rfl | hpos
        · omega
        · have hlt : gridWindow cfg last 0 < gridWindow cfg last k := gridWindow_lt hpos
          omega
      have hne : next ≠ e.current := by omega
      simp only [hnot, hne]
    · rw [buildDueWindows_fallback (not_le.mp hnext), List.mem_singleton, eq_comm]

/-- After any tick, a window of its batch that nobody has claimed is returned by the next tick, or
falls out of the last `catchupWindows` due windows, exactly when it falls out, or no later window of
the batch was a duplicate or ran with success, and the batch was made of windows due after the last
one, or else the next tick is in the same minute. -/
theorem window_kept_iff (h : tick cfg s e = some s') (hi : (batch cfg s e)[i]? = some w)
    (hun : w ∉ s'.claimed) (hnext : e.current ≤ next) :
    (w ∈ buildDueWindows cfg s'.lastWindowTs next ∨ FallsOut cfg next w) ↔
      FallsOut cfg next w ∨ NotPassed e i ∧ (OnGrid cfg s e ∨ next = e.current) := by
  obtain ⟨⟨-, hlen⟩, u, hu, rfl⟩ := tick_eq_some.mp h
  obtain ⟨hleft, -, hclaimed⟩ := turns_eq_some hu
  have hown : ∀ t, e.turns[i]? = some t → t.outcome.advances = false := by
    intro t ht
    have hzip : ((batch cfg s e).zip e.turns)[i]? = some (w, t) :=
      List.getElem?_zip_eq_some.mpr ⟨hi, ht⟩
    by_contra ha
    exact hun (hclaimed _ (List.mem_of_getElem? hzip) (by simpa using ha))
  by_cases hgrid : OnGrid cfg s e
  · simpa [hgrid] using kept_iff_of_onGrid hgrid hlen hleft hi hown hnext
  · have hbatch := batch_of_not_onGrid hgrid
    rw [hbatch] at hi hlen hleft
    obtain ⟨hlt, hw⟩ := List.getElem?_eq_some_iff.mp hi
    obtain rfl : i = 0 := by simpa using hlt
    obtain rfl : e.current = w := by simpa using hw
    have hpass : NotPassed e 0 := by
      intro j t hj ht
      have := (List.getElem?_eq_some_iff.mp ht).1
      simp only [hlen, List.length_singleton] at this
      omega
    have hlast : u.lastWindowTs = s.lastWindowTs := by
      generalize u.lastWindowTs = after at hleft
      cases hleft with
      | unmoved _ => rfl
      | @moved j v t hj ha _ =>
        obtain ⟨hjw, hjt⟩ := List.getElem?_zip_eq_some.mp hj
        have hj0 := (List.getElem?_eq_some_iff.mp hjw).1
        obtain rfl : j = 0 := by simpa using hj0
        exact absurd (hown t hjt) (by simp [ha])
    simp only [hlast, kept_iff_of_not_onGrid hgrid, hgrid, hpass, false_or, true_and]
    exact or_comm

end Ticks

/-! ### A window that is passed over -/

/-- A window a minute, and three to catch up with. -/
def sample : Config := .init 60 3

/-- Minute 0 ran with success, and the next tick finds three windows due. The lock is taken at the
turn of window 2. -/
def lockMissed : Tick :=
  ⟨3, [⟨[], .succeeded⟩, ⟨[], .lockNotAcquired⟩, ⟨[], .succeeded⟩]⟩

theorem tick_lockMissed :
    tick sample ⟨0, some 0, [0]⟩ lockMissed = some ⟨3, some 3, [3, 1, 0]⟩ := by
  decide +kernel

theorem window_kept_lockMissed :
    (2 ∈ buildDueWindows sample (some 3) 4 ∨ FallsOut sample 4 2) ↔
      FallsOut sample 4 2 ∨ NotPassed lockMissed 1 ∧
        (OnGrid sample ⟨0, some 0, [0]⟩ lockMissed ∨ 4 = lockMissed.current) :=
  window_kept_iff tick_lockMissed (by decide +kernel) (by decide +kernel) (by decide +kernel)

/-- Window 2, which nobody has claimed, is lost: the success of window 3 passes over it. -/
theorem window_lost :
    ¬ ∀ (cfg : Config) (t₀ : ℤ) (claimed : List ℤ) (es : List Tick) (s : System) (e : Tick)
        (s' : System) (next : ℤ),
      exec (tick cfg) (created t₀ claimed) es = some s → tick cfg s e = some s' →
      e.current ≤ next → ∀ w ∈ batch cfg s e, w ∉ s'.claimed →
        w ∈ buildDueWindows cfg s'.lastWindowTs next ∨ FallsOut cfg next w := by
  intro h
  have hfirst : exec (tick sample) (created 0 []) [⟨0, [⟨[], .succeeded⟩]⟩] =
      some ⟨0, some 0, [0]⟩ := by
    decide +kernel
  rcases h sample 0 [] _ _ lockMissed _ 4 hfirst tick_lockMissed (by decide) 2
    (by decide +kernel) (by decide +kernel) with hkept | hout
  · exact absurd hkept (by decide +kernel)
  · exact absurd hout (by unfold FallsOut; decide +kernel)

end ChainMonitor.Scheduler
