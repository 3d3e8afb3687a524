import ChainMonitor.App.Scheduler

/-! The windows that a `ChainPipelineScheduler` targets over a run: where they are on the grid of
the last window processed, and how far apart. -/

namespace ChainMonitor.Scheduler

open ProofKit

/-- The windows of the grid after `last` that are not after `current`, in ascending order. -/
structure IsGrid (cfg : Config) (last current : ℤ) (grid : List ℤ) : Prop where
  ascending : grid.Pairwise (· < ·)
  mem : ∀ w, w ∈ grid ↔ ∃ k : ℕ, 1 ≤ k ∧ w = last + k * cfg.windowStepMinutes ∧ w ≤ current

def gridPoints (cfg : Config) (last current : ℤ) : List ℤ :=
  (List.range (dueCount cfg.windowStepMinutes last current)).map (gridWindow cfg last)

section Grid

variable {cfg : Config} {last current w : ℤ}

theorem gridWindow_add_le {k j : ℕ} (h : k < j) :
    gridWindow cfg last k + cfg.windowStepMinutes ≤ gridWindow cfg last j := by
  have hnext : gridWindow cfg last k + cfg.windowStepMinutes = gridWindow cfg last (k + 1) := by
    simpa using gridWindow_add (k := k) (j := 1)
  rw [hnext]
  rcases Nat.eq_or_lt_of_le (show k + 1 ≤ j by omega) with heq | hlt
  · rw [heq]
  · exact (gridWindow_lt hlt).le

theorem gridPoints_apart : (gridPoints cfg last current).Pairwise
    fun v w => v + cfg.windowStepMinutes ≤ w :=
  List.pairwise_map.mpr (List.pairwise_lt_range.imp gridWindow_add_le)

theorem mem_gridPoints : w ∈ gridPoints cfg last current ↔
    ∃ k : ℕ, gridWindow cfg last k = w ∧ w ≤ current := by
  rw [gridPoints, List.mem_map]
  constructor
  · rintro ⟨k, hk, rfl⟩
    exact ⟨k, rfl, gridWindow_le_iff.mpr (List.mem_range.mp hk)⟩
  · rintro ⟨k, rfl, hle⟩
    exact ⟨k, List.mem_range.mpr (gridWindow_le_iff.mp hle), rfl⟩

theorem isGrid_gridPoints (cfg : Config) (last current : ℤ) :
    IsGrid cfg last current (gridPoints cfg last current) where
  ascending := by
    have hstep := cfg.one_le_step
    exact gridPoints_apart.imp fun h => by omega
  mem w := by
    rw [mem_gridPoints]
    constructor
    · rintro ⟨k, rfl, hle⟩
      exact ⟨k + 1, by omega, by simp [gridWindow], hle⟩
    · rintro ⟨k, hk, rfl, hle⟩
      obtain ⟨j, rfl⟩ := Nat.exists_eq_add_of_le' hk
      exact ⟨j, by simp [gridWindow], hle⟩

theorem buildDueWindows_gridPoints (cfg : Config) (last current : ℤ) :
    buildDueWindows cfg (some last) current =
      if gridPoints cfg last current = [] then [current]
      else (gridPoints cfg last current).drop
        ((gridPoints cfg last current).length - cfg.catchupWindows) := by
  have hlength : (gridPoints cfg last current).length =
      dueCount cfg.windowStepMinutes last current := by simp [gridPoints]
  by_cases h : gridWindow cfg last 0 ≤ current
  · have hne : gridPoints cfg last current ≠ [] :=
      List.ne_nil_of_mem (mem_gridPoints.mpr ⟨0, rfl, h⟩)
    rw [if_neg hne, buildDueWindows_eq h, hlength]
    rfl
  · have hnil : gridPoints cfg last current = [] := by
      rw [← List.length_eq_zero_iff, hlength]
      have := mt gridWindow_le_iff.mpr h
      omega
    rw [if_pos hnil, buildDueWindows_fallback (not_le.mp h)]

end Grid

/-! ### What a run targets -/

/-- The windows that the ticks of a run target, in order, with the turn of each. -/
def targeted (cfg : Config) (s : System) (es : List Tick) : List (ℤ × Turn) :=
  emitted (tick cfg) (fun s e => (batch cfg s e).zip e.turns) s es

/-- A window comes `gap` minutes or more after each one that was processed before it, and the
high-water mark is not before any of these. -/
structure Spaced (gap : ℤ) (log : List (ℤ × Turn)) (mark : Option ℤ) : Prop where
  apart : log.Pairwise fun p q => p.2.outcome.advances = true → p.1 + gap ≤ q.1
  below : ∀ p ∈ log, p.2.outcome.advances = true → ∃ last, mark = some last ∧ p.1 ≤ last

theorem spaced_nil (gap : ℤ) (mark : Option ℤ) : Spaced gap [] mark :=
  ⟨.nil, by simp⟩

section Steps

variable {cfg : Config} {s s' : System} {e : Tick} {es : List Tick} {gap last : ℤ}
  {log turns : List (ℤ × Turn)} {before after : Option ℤ}

/-- The turns of a batch whose windows are `gap` apart, and `gap` after the mark. -/
theorem Spaced.append (h : Spaced gap log before) (hgap : 0 ≤ gap) (hleft : Left turns before after)
    (hturns : turns.Pairwise fun p q => p.1 + gap ≤ q.1)
    (hmark : ∀ last, before = some last → ∀ p ∈ turns, last + gap ≤ p.1) :
    Spaced gap (log ++ turns) after := by
  obtain ⟨hapart, hbelow⟩ := h
  constructor
  · refine List.pairwise_append.mpr ⟨hapart, ?_, ?_⟩
    · exact hturns.imp fun {p q} h (_ : p.2.outcome.advances = true) => h
    · intro p hp q hq hadvances
      obtain ⟨last, hlast, hle⟩ := hbelow p hp hadvances
      have := hmark last hlast q hq
      omega
  · intro p hp hadvances
    cases hleft with
    | unmoved hall =>
      rcases List.mem_append.mp hp with hp | hp
      · exact hbelow p hp hadvances
      · rw [hall p hp] at hadvances
        cases hadvances
    | @moved j w t hj ha hlater =>
      refine ⟨w, rfl, ?_⟩
      rcases List.mem_append.mp hp with hp | hp
      · obtain ⟨last, hlast, hle⟩ := hbelow p hp hadvances
        have := hmark last hlast (w, t) (List.mem_of_getElem? hj)
        dsimp only at this
        omega
      · obtain ⟨i, hi⟩ := List.mem_iff_getElem?.mp hp
        rcases lt_trichotomy i j with hlt | rfl | hlt
        · obtain ⟨hi', rfl⟩ := List.getElem?_eq_some_iff.mp hi
          obtain ⟨hj', hw⟩ := List.getElem?_eq_some_iff.mp hj
          have := List.pairwise_iff_getElem.mp hturns i j hi' hj' hlt
          rw [hw] at this
          dsimp only at this
          omega
        · rw [hj] at hi
          cases hi
          exact le_rfl
        · rw [hlater i p hlt hi] at hadvances
          cases hadvances

/-- The mark moves only to a window of the turns. -/
theorem Left.eq_or (h : Left turns before after) :
    after = before ∨ ∃ p ∈ turns, after = some p.1 := by
  cases h with
  | unmoved _ => exact .inl rfl
  | moved hj _ _ => exact .inr ⟨_, List.mem_of_getElem? hj, rfl⟩

/-- What a tick does to the mark and the clock. -/
theorem tick_left (h : tick cfg s e = some s') :
    Left ((batch cfg s e).zip e.turns) s.lastWindowTs s'.lastWindowTs ∧ s'.clock = e.current ∧
      s.clock ≤ e.current ∧ e.turns.length = (batch cfg s e).length := by
  obtain ⟨⟨hclock, hlen⟩, u, hu, rfl⟩ := tick_eq_some.mp h
  exact ⟨(turns_eq_some hu).1, rfl, hclock, hlen⟩

theorem fst_mem_batch {p : ℤ × Turn} (h : p ∈ (batch cfg s e).zip e.turns) :
    p.1 ∈ batch cfg s e := (List.of_mem_zip h).1

theorem batch_le_current {w : ℤ} (h : w ∈ batch cfg s e) : w ≤ e.current := by
  unfold batch at h
  cases hlast : s.lastWindowTs with
  | none =>
    rw [hlast] at h
    exact (List.mem_singleton.mp h).le
  | some last =>
    rw [hlast, buildDueWindows_gridPoints] at h
    split at h
    · exact (List.mem_singleton.mp h).le
    · obtain ⟨_, _, hle⟩ := mem_gridPoints.mp (List.mem_of_mem_drop h)
      exact hle

theorem batch_apart : (batch cfg s e).Pairwise fun v w => v + cfg.windowStepMinutes ≤ w := by
  unfold batch
  cases s.lastWindowTs with
  | none => exact List.pairwise_singleton _ _
  | some last =>
    rw [buildDueWindows_gridPoints]
    split
    · exact List.pairwise_singleton _ _
    · exact gridPoints_apart.sublist (List.drop_sublist _ _)

theorem zip_apart (hlen : e.turns.length = (batch cfg s e).length)
    (hgap : gap ≤ cfg.windowStepMinutes) :
    ((batch cfg s e).zip e.turns).Pairwise fun p q => p.1 + gap ≤ q.1 := by
  have hfst : ((batch cfg s e).zip e.turns).map Prod.fst = batch cfg s e :=
    List.map_fst_zip hlen.ge
  have hapart : (batch cfg s e).Pairwise fun v w => v + cfg.windowStepMinutes ≤ w := batch_apart
  rw [← hfst] at hapart
  exact (List.pairwise_map.mp hapart).imp fun h => by omega

/-- A batch made of due windows is on the grid of the mark. -/
theorem batch_onGrid (h : OnGrid cfg s e) (hlast : s.lastWindowTs = some last) {w : ℤ}
    (hw : w ∈ batch cfg s e) : ∃ k, gridWindow cfg last k = w := by
  obtain ⟨other, hother, hdue⟩ := h
  obtain rfl := Option.some.inj (hlast.symm.trans hother)
  rw [← gridWindow_zero] at hdue
  rw [batch, hlast] at hw
  obtain ⟨i, hi⟩ := List.mem_iff_getElem?.mp hw
  obtain ⟨k, -, -, rfl⟩ := (buildDueWindows_getElem? hdue).mp hi
  exact ⟨k, rfl⟩

end Steps

section Runs

variable {cfg : Config} {s s' : System} {es : List Tick} {last : ℤ}

/-- The mark is not ahead of the clock. -/
def Behind (s : System) : Prop := ∀ last, s.lastWindowTs = some last → last ≤ s.clock

/-- In any run the windows processed never go back. -/
theorem spaced_of_run (hs : Behind s) (h : exec (tick cfg) s es = some s') :
    Spaced 0 (targeted cfg s es) s'.lastWindowTs ∧ Behind s' := by
  refine exec_history (fun es s' => Spaced 0 (targeted cfg s es) s'.lastWindowTs ∧ Behind s')
    ⟨spaced_nil 0 _, hs⟩ ?_ h
  rintro es t e u ht ⟨hspaced, hbehind⟩ hstep
  obtain ⟨hleft, hclock, hforward, hlen⟩ := tick_left hstep
  have hstep' := cfg.one_le_step
  rw [targeted, emitted_concat ht]
  constructor
  · refine hspaced.append le_rfl hleft (zip_apart hlen (by omega)) ?_
    intro last hlast p hp
    have hmem := fst_mem_batch hp
    have hlow := hbehind last hlast
    rw [batch, hlast] at hmem
    rcases lt_or_eq_of_mem hmem with hlt | heq <;> omega
  · intro mark hmark
    rw [hclock]
    rcases hleft.eq_or with hsame | ⟨p, hp, hmoved⟩
    · exact (hbehind mark (hsame ▸ hmark)).trans hforward
    · obtain rfl := Option.some.inj (hmark.symm.trans hmoved)
      exact batch_le_current (fst_mem_batch hp)

/-- The mark is the first one, or a window of its grid. -/
def Reaches (cfg : Config) (last mark : ℤ) : Prop := mark = last ∨ ∃ k, gridWindow cfg last k = mark

theorem Reaches.gridWindow {mark : ℤ} (h : Reaches cfg last mark) (k : ℕ) :
    ∃ j, gridWindow cfg last j = gridWindow cfg mark k := by
  rcases h with rfl | ⟨i, rfl⟩
  · exact ⟨k, rfl⟩
  · exact ⟨_, gridWindow_gridWindow.symm⟩

/-- In a run whose ticks all find a window due, the windows are on one grid, and at least a step
after each one processed before. -/
theorem spaced_of_due (hs : s.lastWindowTs = some last) (hdue : Meets (tick cfg) (OnGrid cfg) s es)
    (h : exec (tick cfg) s es = some s') :
    Spaced cfg.windowStepMinutes (targeted cfg s es) s'.lastWindowTs ∧
      (∀ p ∈ targeted cfg s es, ∃ k, gridWindow cfg last k = p.1) ∧
      ∃ mark, s'.lastWindowTs = some mark ∧ Reaches cfg last mark := by
  refine exec_induction (fun es s' =>
    Spaced cfg.windowStepMinutes (targeted cfg s es) s'.lastWindowTs ∧
      (∀ p ∈ targeted cfg s es, ∃ k, gridWindow cfg last k = p.1) ∧
      ∃ mark, s'.lastWindowTs = some mark ∧ Reaches cfg last mark)
    ⟨spaced_nil _ _, by simp [targeted, emitted], last, hs, .inl rfl⟩ ?_ hdue h
  rintro es t e u ht ⟨hspaced, hgrid, mark, hmark, hreaches⟩ hdue hstep
  obtain ⟨hleft, -, -, hlen⟩ := tick_left hstep
  have hbatch : ∀ p ∈ (batch cfg t e).zip e.turns, ∃ k, gridWindow cfg mark k = p.1 :=
    fun p hp => batch_onGrid hdue hmark (fst_mem_batch hp)
  have hnew : ∀ p ∈ (batch cfg t e).zip e.turns, ∃ k, gridWindow cfg last k = p.1 := by
    intro p hp
    obtain ⟨k, hk⟩ := hbatch p hp
    rw [← hk]
    exact hreaches.gridWindow k
  have hstep' := cfg.one_le_step
  rw [targeted, emitted_concat ht]
  refine ⟨hspaced.append (by omega) hleft (zip_apart hlen le_rfl) ?_, ?_, ?_⟩
  · intro other hother p hp
    obtain rfl := Option.some.inj (hmark.symm.trans hother)
    obtain ⟨k, hk⟩ := hbatch p hp
    rw [← hk, ← gridWindow_zero]
    rcases Nat.eq_zero_or_pos k with rfl | hpos
    · exact le_rfl
    · exact (gridWindow_lt hpos).le
  · intro p hp
    rcases List.mem_append.mp hp with hp | hp
    · exact hgrid p hp
    · exact hnew p hp
  · rcases hleft.eq_or with hsame | ⟨p, hp, hmoved⟩
    · exact ⟨mark, hsame.trans hmark, hreaches⟩
    · exact ⟨p.1, hmoved, .inr (hnew p hp)⟩

end Runs

/-- The batch of a tick is the newest part of the grid after the last window processed, and the
current minute where no window is due. In any run the windows never go back behind a processed one.
While every tick finds a window due, they are on one grid, and at least a step after each one
processed before. -/
theorem catch_up (cfg : Config) :
    (∀ last current, ∃ grid, IsGrid cfg last current grid ∧
      buildDueWindows cfg (some last) current =
        if grid = [] then [current] else grid.drop (grid.length - cfg.catchupWindows)) ∧
    (∀ t₀ claimed es s, exec (tick cfg) (created t₀ claimed) es = some s →
      (targeted cfg (created t₀ claimed) es).Pairwise fun p q =>
        p.2.outcome.advances = true → p.1 ≤ q.1) ∧
    ∀ t₀ claimed es s last es' s', exec (tick cfg) (created t₀ claimed) es = some s →
      s.lastWindowTs = some last → Meets (tick cfg) (OnGrid cfg) s es' →
      exec (tick cfg) s es' = some s' →
      (∀ p ∈ targeted cfg s es', ∃ k : ℕ, 1 ≤ k ∧ p.1 = last + k * cfg.windowStepMinutes) ∧
      (targeted cfg s es').Pairwise fun p q =>
        p.2.outcome.advances = true → p.1 + cfg.windowStepMinutes ≤ q.1 := by
  refine ⟨?_, ?_, ?_⟩
  · intro last current
    exact ⟨_, isGrid_gridPoints cfg last current, buildDueWindows_gridPoints cfg last current⟩
  · intro t₀ claimed es s h
    have hspaced := (spaced_of_run (s := created t₀ claimed) nofun h).1
    exact hspaced.apart.imp fun {p q} hle hadvances => by simpa using hle hadvances
  · intro t₀ claimed es s last es' s' _ hlast hdue h
    obtain ⟨hspaced, hgrid, -⟩ := spaced_of_due hlast hdue h
    refine ⟨?_, hspaced.apart⟩
    intro p hp
    obtain ⟨k, hk⟩ := hgrid p hp
    exact ⟨k + 1, by omega, by rw [← hk]; simp [gridWindow]⟩

theorem catch_up_sample :
    (∀ p ∈ targeted sample ⟨0, some 0, [0]⟩ [lockMissed],
      ∃ k : ℕ, 1 ≤ k ∧ p.1 = 0 + k * sample.windowStepMinutes) ∧
    (targeted sample ⟨0, some 0, [0]⟩ [lockMissed]).Pairwise fun p q =>
      p.2.outcome.advances = true → p.1 + sample.windowStepMinutes ≤ q.1 := by
  have hfirst : exec (tick sample) (created 0 []) [⟨0, [⟨[], .succeeded⟩]⟩] =
      some ⟨0, some 0, [0]⟩ := by
    decide +kernel
  have hdue : Meets (tick sample) (OnGrid sample) ⟨0, some 0, [0]⟩ [lockMissed] :=
    ⟨⟨0, rfl, by decide +kernel⟩, fun _ _ => trivial⟩
  have hrun : exec (tick sample) ⟨0, some 0, [0]⟩ [lockMissed] = some ⟨3, some 3, [3, 1, 0]⟩ := by
    decide +kernel
  exact (catch_up sample).2.2 0 [] _ _ 0 _ _ hfirst rfl hdue hrun

/-- A tick within the minute of the last window has no window due, and targets it again. -/
theorem current_by_default :
    ¬∀ (cfg : Config) (last current : ℤ) (grid : List ℤ), IsGrid cfg last current grid →
      buildDueWindows cfg (some last) current = grid.drop (grid.length - cfg.catchupWindows) := by
  intro h
  have hgrid := h sample 0 0 _ (isGrid_gridPoints sample 0 0)
  exact absurd hgrid (by decide +kernel)

end ChainMonitor.Scheduler
