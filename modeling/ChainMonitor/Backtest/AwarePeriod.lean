import ChainMonitor.Backtest.WalkForward

/-! `_walk_forward_check` and `_iter_minutes` on the aware `datetime`s of Python. They add to the
clock of a zone, whose offset may change, compare two times of one zone by its clock, and raise an
`OverflowError` outside of the years 1 to 9999. -/

namespace ChainMonitor.Backtest

open ProofKit PipelineService Scoring Snapshots

/-! ### Aware times -/

def datetimeMin : ℤ := -62135596800000000

def datetimeMax : ℤ := 253402300799999999

/-- The clock shows a time of the years 1 to 9999, in microseconds from the start of 1970. -/
def InRange (clock : ℤ) : Prop := datetimeMin ≤ clock ∧ clock ≤ datetimeMax

instance (clock : ℤ) : Decidable (InRange clock) := inferInstanceAs (Decidable (_ ∧ _))

/-- An aware `datetime`: what the clock of its zone shows, and whether it does for the second time.
-/
structure AwareTime (Z : Type) where
  clock : ℤ
  fold : Bool
  tzinfo : Z
  inRange : InRange clock
  deriving DecidableEq

/-- The offsets of the zones from UTC. -/
abbrev Zones (Z : Type) := Z → ℤ → Bool → ℤ

/-- What a run over a period raises. -/
inductive PeriodError
  | overflowError
  | run (error : RunError)
  deriving DecidableEq

section Times

variable {Z : Type} [DecidableEq Z] (zones : Zones Z)

namespace AwareTime

/-- The time in UTC. -/
def utc (t : AwareTime Z) : ℤ := t.clock - zones t.tzinfo t.clock t.fold

/-- `t - u`: two times of one zone are read off its clock. -/
def sub (t u : AwareTime Z) : ℤ :=
  if t.tzinfo = u.tzinfo then t.clock - u.clock else t.utc zones - u.utc zones

/-- `t < u`. -/
def before (t u : AwareTime Z) : Prop := t.sub zones u < 0

instance (t u : AwareTime Z) : Decidable (t.before zones u) := inferInstanceAs (Decidable (_ < _))

/-- `t + timedelta(microseconds=micros)`. -/
def add (t : AwareTime Z) (micros : ℤ) : Except PeriodError (AwareTime Z) :=
  if h : InRange (t.clock + micros) then .ok ⟨t.clock + micros, false, t.tzinfo, h⟩
  else .error .overflowError

/-- `t.astimezone(UTC).replace(second=0, microsecond=0)`, as a minute. -/
def minute (t : AwareTime Z) : Except PeriodError ℤ :=
  if InRange (t.utc zones) then .ok (t.utc zones / 60000000) else .error .overflowError

end AwareTime

/-- The minute that has none after it. -/
def lastMinute : ℤ := datetimeMax / 60000000

/-- The loop of `_iter_minutes`, which goes to the next minute after each. -/
def pointsFrom (cursor stop : ℤ) : Except PeriodError (List ℤ) :=
  if cursor ≤ stop then
    if lastMinute ≤ cursor then .error .overflowError
    else (cursor :: ·) <$> pointsFrom (cursor + 1) stop
  else .ok []
termination_by (stop + 1 - cursor).toNat

/-- `_iter_minutes`. -/
def iterPoints (start stop : AwareTime Z) : Except PeriodError (List ℤ) := do
  pointsFrom (← start.minute zones) (← stop.minute zones)

/-- `BacktestEngine.run` of a config with the period. -/
def BacktestEngine.runPeriod (e : BacktestEngine) (config : BacktestConfig)
    (period : AwareTime Z × AwareTime Z) :
    Except PeriodError (List BacktestTradeResult × BacktestMetrics) := do
  if period.2.before zones period.1 then
    throw (.run (.valueError "period_end must be greater than or equal to period_start"))
  let minutes ← iterPoints zones period.1 period.2
  (e.runMinutes config minutes).mapError fun error => .run (.scoring error)

/-- The windows of `_walk_forward_check`. -/
def periodWindows (start stop : AwareTime Z) :
    Except PeriodError (List (AwareTime Z × AwareTime Z)) := do
  let splitPoint ← start.add (divideAndRound (stop.sub zones start) 2)
  let second ← splitPoint.add 60000000
  return [(start, splitPoint), (second, stop)]

end Times

/-! ### Minutes in a row -/

theorem length_minutesFrom (cursor stop : ℤ) :
    (minutesFrom cursor stop).length = (stop + 1 - cursor).toNat := by
  fun_induction minutesFrom cursor stop with
  | case1 cursor hle ih =>
    rw [List.length_cons, ih]
    omega
  | case2 cursor hgt =>
    rw [List.length_nil]
    omega

theorem minutesFrom_of_lt {cursor stop : ℤ} (h : stop < cursor) : minutesFrom cursor stop = [] := by
  rw [minutesFrom, if_neg (not_le.mpr h)]

/-- The minutes from `a` to `b`, and those from `c` to `d`, are those from `a` to `d`. -/
def Abut (a b c d : ℤ) : Prop :=
  if a ≤ b then if c ≤ d then c = b + 1 else b = d
  else if c ≤ d then c = a else d < a

instance (a b c d : ℤ) : Decidable (Abut a b c d) := by
  unfold Abut
  infer_instance

theorem minutesFrom_append_iff {a b c d : ℤ} :
    minutesFrom a b ++ minutesFrom c d = minutesFrom a d ↔ Abut a b c d := by
  unfold Abut
  constructor
  · intro h
    have hlength := congrArg List.length h
    rw [List.length_append, length_minutesFrom, length_minutesFrom, length_minutesFrom] at hlength
    split
    · split
      · omega
      · omega
    · split
      · omega
      · omega
  · intro h
    split at h
    · split at h
      · subst h
        exact minutesFrom_append (by omega) (by omega)
      · rw [minutesFrom_of_lt (show d < c by omega), List.append_nil, h]
    · rw [minutesFrom_of_lt (show b < a by omega), List.nil_append]
      split at h
      · rw [h]
      · rw [minutesFrom_of_lt (show d < c by omega), minutesFrom_of_lt h]

theorem Abut.disjoint {a b c d : ℤ} (h : Abut a b c d) :
    (minutesFrom a b).Disjoint (minutesFrom c d) := by
  apply List.disjoint_left.mpr
  intro k hk hk'
  rw [mem_minutesFrom] at hk hk'
  rw [Abut, if_pos (by omega), if_pos (by omega)] at h
  omega

/-- The loop ends before the calendar does, or has no minute to go from. -/
theorem pointsFrom_eq_ok {cursor stop : ℤ} {minutes : List ℤ} (hstop : stop ≤ lastMinute) :
    pointsFrom cursor stop = .ok minutes ↔
      (cursor ≤ stop → stop < lastMinute) ∧ minutesFrom cursor stop = minutes := by
  fun_induction pointsFrom cursor stop generalizing minutes with
  | case1 cursor hle hlast =>
    simp only [reduceCtorEq, false_iff]
    omega
  | case2 cursor hle hlast ih =>
    rw [minutesFrom, if_pos hle, map_eq_ok]
    constructor
    · rintro ⟨rest, hrest, rfl⟩
      obtain ⟨hbefore, rfl⟩ := (ih).mp hrest
      exact ⟨fun _ => by omega, rfl⟩
    · rintro ⟨hbefore, rfl⟩
      exact ⟨_, ih.mpr ⟨fun _ => hbefore hle, rfl⟩, rfl⟩
  | case3 cursor hgt =>
    rw [minutesFrom, if_neg hgt, Except.ok.injEq]
    exact ⟨fun h => ⟨fun hle => absurd hle hgt, h⟩, And.right⟩

/-! ### The seam -/

section Seam

variable {Z : Type} [DecidableEq Z]

/-- What the clock of the start shows at the split point. -/
def splitClock (zones : Zones Z) (start stop : AwareTime Z) : ℤ :=
  start.clock + divideAndRound (stop.sub zones start) 2

/-- The split point in UTC, or a time that much after it on the clock. -/
def seamUtc (zones : Zones Z) (start stop : AwareTime Z) (later : ℤ) : ℤ :=
  let clock := splitClock zones start stop + later
  clock - zones start.tzinfo clock false

/-- No time around the seam leaves the calendar, the second window does not end before it starts,
the minutes of UTC on both sides of the seam follow one another, and the calendar has a minute after
the last one of the period. -/
structure Seam (zones : Zones Z) (start stop : AwareTime Z) : Prop where
  reached : splitClock zones start stop + 60000000 ≤ datetimeMax
  utc : ∀ time ∈ [start.utc zones, seamUtc zones start stop 0, seamUtc zones start stop 60000000,
    stop.utc zones], InRange time
  ordered : stop.tzinfo ≠ start.tzinfo → seamUtc zones start stop 60000000 ≤ stop.utc zones
  abut : Abut (start.utc zones / 60000000) (seamUtc zones start stop 0 / 60000000)
    (seamUtc zones start stop 60000000 / 60000000) (stop.utc zones / 60000000)
  ends : start.utc zones / 60000000 ≤ stop.utc zones / 60000000 →
    stop.utc zones / 60000000 < lastMinute

/-- The trades of a run over a period. -/
def periodTrades (zones : Zones Z) (e : BacktestEngine) (config : BacktestConfig)
    (period : AwareTime Z × AwareTime Z) : Except PeriodError (List BacktestTradeResult) :=
  Prod.fst <$> e.runPeriod zones config period

/-- Neither of two windows of a period ends before it starts, so that a run over it does not raise,
their minutes in turn are those of the period, and their trades too. -/
structure SplitBy (zones : Zones Z) (e : BacktestEngine) (config : BacktestConfig)
    (start stop : AwareTime Z) (w₁ w₂ : AwareTime Z × AwareTime Z) : Prop where
  ordered : ∀ w ∈ [w₁, w₂], ¬w.2.before zones w.1
  returns : e.scoringEngine.strategyVersion ≠ "" → ∀ w ∈ [w₁, w₂], ∀ threshold, ∃ result,
    e.runPeriod zones { config with convictionThreshold := threshold } w = .ok result
  minutes : ∃ m₁ m₂, iterPoints zones w₁.1 w₁.2 = .ok m₁ ∧ iterPoints zones w₂.1 w₂.2 = .ok m₂ ∧
    m₁.Disjoint m₂ ∧ iterPoints zones start stop = .ok (m₁ ++ m₂)
  trades : ∀ threshold,
    periodTrades zones e { config with convictionThreshold := threshold } (start, stop) = (do
      let first ← periodTrades zones e { config with convictionThreshold := threshold } w₁
      let second ← periodTrades zones e { config with convictionThreshold := threshold } w₂
      return first ++ second)

/-- The windows of `_walk_forward_check` split the backtest exactly. -/
def Splits (zones : Zones Z) (e : BacktestEngine) (config : BacktestConfig)
    (start stop : AwareTime Z) : Prop :=
  ∃ w₁ w₂, periodWindows zones start stop = .ok [w₁, w₂] ∧ SplitBy zones e config start stop w₁ w₂

variable {zones : Zones Z} {e : BacktestEngine} {config : BacktestConfig}
  {start stop t u : AwareTime Z} {minutes : List ℤ}

omit [DecidableEq Z] in
theorem iterPoints_eq_ok : iterPoints zones t u = .ok minutes ↔
    (InRange (t.utc zones) ∧ InRange (u.utc zones)) ∧
      (t.utc zones / 60000000 ≤ u.utc zones / 60000000 → u.utc zones / 60000000 < lastMinute) ∧
      minutesFrom (t.utc zones / 60000000) (u.utc zones / 60000000) = minutes := by
  unfold iterPoints AwareTime.minute
  by_cases ht : InRange (t.utc zones)
  · rw [if_pos ht]
    by_cases hu : InRange (u.utc zones)
    · rw [if_pos hu]
      have hlast : u.utc zones / 60000000 ≤ lastMinute :=
        Int.ediv_le_ediv (by norm_num) hu.2
      show pointsFrom _ _ = _ ↔ _
      rw [pointsFrom_eq_ok hlast]
      simp only [ht, hu, and_self, true_and]
    · rw [if_neg hu]
      exact ⟨(fun h => by cases h), fun h => absurd h.1.2 hu⟩
  · rw [if_neg ht]
    exact ⟨(fun h => by cases h), fun h => absurd h.1.1 ht⟩

theorem runPeriod_of_points {period : AwareTime Z × AwareTime Z}
    (hordered : ¬period.2.before zones period.1)
    (hminutes : iterPoints zones period.1 period.2 = .ok minutes) :
    e.runPeriod zones config period =
      (e.runMinutes config minutes).mapError fun error => .run (.scoring error) := by
  unfold BacktestEngine.runPeriod
  rw [if_neg hordered, hminutes]
  rfl

/-- A run over minutes that exist returns, with a strategy version. -/
theorem runPeriod_isOk {period : AwareTime Z × AwareTime Z}
    (hversion : e.scoringEngine.strategyVersion ≠ "") (hordered : ¬period.2.before zones period.1)
    (hminutes : iterPoints zones period.1 period.2 = .ok minutes) :
    ∃ result, e.runPeriod zones config period = .ok result := by
  obtain ⟨result, hresult⟩ := runMinutes_isOk hversion config minutes
  rw [runPeriod_of_points hordered hminutes, hresult]
  exact ⟨result, rfl⟩

theorem periodTrades_of_points {period : AwareTime Z × AwareTime Z}
    (hordered : ¬period.2.before zones period.1)
    (hminutes : iterPoints zones period.1 period.2 = .ok minutes) :
    periodTrades zones e config period =
      (Prod.fst <$> e.runMinutes config minutes).mapError fun error => .run (.scoring error) := by
  rw [periodTrades, runPeriod_of_points hordered hminutes]
  cases e.runMinutes config minutes <;> rfl

theorem mapError_mapError {ε δ γ α : Type} (f : ε → δ) (g : δ → γ) (x : Except ε α) :
    (x.mapError f).mapError g = x.mapError fun err => g (f err) := by
  cases x <;> rfl

theorem mapError_append {ε δ α : Type} (f : ε → δ) (first second : Except ε (List α)) :
    (do return (← first) ++ (← second) : Except ε (List α)).mapError f = (do
      let before ← first.mapError f
      let after ← second.mapError f
      return before ++ after) := by
  cases first with
  | error err => rfl
  | ok before => cases second <;> rfl

section Fixed

variable {offset : Z → ℤ} (hfixed : ∀ z clock fold, zones z clock fold = offset z)
include hfixed

theorem sub_of_fixed : t.sub zones u = t.utc zones - u.utc zones := by
  unfold AwareTime.sub AwareTime.utc
  split
  · rename_i hzone
    rw [hfixed, hfixed, hzone]
    omega
  · rfl

end Fixed

theorem reached_of_periodWindows {windows : List (AwareTime Z × AwareTime Z)}
    (h : periodWindows zones start stop = .ok windows) :
    splitClock zones start stop + 60000000 ≤ datetimeMax := by
  obtain ⟨split, hsplit, h⟩ := bind_eq_ok.mp h
  obtain ⟨second, hsecond, -⟩ := bind_eq_ok.mp h
  unfold AwareTime.add at hsplit hsecond
  split at hsplit
  · obtain rfl := Except.ok.inj hsplit
    split at hsecond
    · rename_i hin
      exact hin.2
    · cases hsecond
  · cases hsplit

section Span

variable (hspan : 120000000 < stop.sub zones start)
include hspan

theorem inRange_of_reached {clock : ℤ} (hlow : splitClock zones start stop ≤ clock)
    (hhigh : clock ≤ datetimeMax) : InRange clock := by
  have hround := divideAndRound_two (stop.sub zones start)
  have hstart := start.inRange.1
  unfold splitClock at hlow
  exact ⟨by omega, hhigh⟩

/-- The windows, when no time leaves the calendar. -/
theorem periodWindows_of_reached (h : splitClock zones start stop + 60000000 ≤ datetimeMax) :
    ∃ hsplit hsecond, periodWindows zones start stop =
      .ok [(start, ⟨splitClock zones start stop, false, start.tzinfo, hsplit⟩),
        (⟨splitClock zones start stop + 60000000, false, start.tzinfo, hsecond⟩, stop)] := by
  have hsplit : InRange (splitClock zones start stop) := inRange_of_reached hspan le_rfl (by omega)
  have hsecond : InRange (splitClock zones start stop + 60000000) :=
    inRange_of_reached hspan (by omega) h
  refine ⟨hsplit, hsecond, ?_⟩
  have hfirst : start.add (divideAndRound (stop.sub zones start) 2) =
      .ok ⟨splitClock zones start stop, false, start.tzinfo, hsplit⟩ := dif_pos hsplit
  rw [periodWindows, hfirst]
  show (AwareTime.add _ 60000000 >>= _) = _
  rw [AwareTime.add, dif_pos hsecond]
  rfl

variable {w₁ w₂ : AwareTime Z × AwareTime Z}

/-- Windows that meet at the seam split the period when the minutes on both sides abut. -/
theorem splitBy_iff {hsplit : InRange (splitClock zones start stop)}
    {hsecond : InRange (splitClock zones start stop + 60000000)}
    (hw₁ : w₁ = (start, ⟨splitClock zones start stop, false, start.tzinfo, hsplit⟩))
    (hw₂ : w₂ = (⟨splitClock zones start stop + 60000000, false, start.tzinfo, hsecond⟩, stop)) :
    SplitBy zones e config start stop w₁ w₂ ↔ Seam zones start stop := by
  have hround := divideAndRound_two (stop.sub zones start)
  have hwhole : ¬stop.before zones start := by
    unfold AwareTime.before
    omega
  have hzero : w₁.2.utc zones = seamUtc zones start stop 0 := by
    rw [hw₁]
    simp only [AwareTime.utc, seamUtc, add_zero]
  have hminute : w₂.1.utc zones = seamUtc zones start stop 60000000 := by
    rw [hw₂]
    rfl
  have hfirst : ¬w₁.2.before zones w₁.1 := by
    have hsub : w₁.2.sub zones w₁.1 = splitClock zones start stop - start.clock := by
      rw [hw₁]
      exact if_pos rfl
    rw [AwareTime.before, hsub, splitClock]
    omega
  have hlater : ¬w₂.2.before zones w₂.1 ↔
      (stop.tzinfo ≠ start.tzinfo → seamUtc zones start stop 60000000 ≤ stop.utc zones) := by
    by_cases hzone : stop.tzinfo = start.tzinfo
    · have hsub : w₂.2.sub zones w₂.1 =
          stop.clock - (splitClock zones start stop + 60000000) := by
        rw [hw₂]
        exact if_pos hzone
      have hspan' : stop.sub zones start = stop.clock - start.clock := if_pos hzone
      refine iff_of_true ?_ fun hne => absurd hzone hne
      rw [AwareTime.before, hsub, splitClock]
      omega
    · have hsub : w₂.2.sub zones w₂.1 =
          stop.utc zones - seamUtc zones start stop 60000000 := by
        rw [← hminute, hw₂]
        exact if_neg hzone
      rw [AwareTime.before, hsub, forall_prop_of_true hzone]
      omega
  constructor
  · intro h
    obtain ⟨m₁, m₂, hm₁, hm₂, hdisjoint, hm⟩ := h.minutes
    obtain ⟨⟨hstart, hP⟩, hends₁, rfl⟩ := iterPoints_eq_ok.mp hm₁
    obtain ⟨⟨hQ, hstop⟩, hends₂, rfl⟩ := iterPoints_eq_ok.mp hm₂
    obtain ⟨-, hends, happend⟩ := iterPoints_eq_ok.mp hm
    rw [hzero] at hP happend
    rw [hminute] at hQ happend
    rw [hw₁] at hstart happend
    rw [hw₂] at hstop happend
    refine ⟨hsecond.2, ?_, hlater.mp (h.ordered w₂ (by simp)), ?_, hends⟩
    · simp only [List.forall_mem_cons, List.not_mem_nil, false_implies, implies_true, and_true]
      exact ⟨hstart, hP, hQ, hstop⟩
    · exact minutesFrom_append_iff.mp happend.symm
  · intro h
    obtain ⟨hstart, hP, hQ, hstop⟩ : InRange (start.utc zones) ∧
        InRange (seamUtc zones start stop 0) ∧ InRange (seamUtc zones start stop 60000000) ∧
          InRange (stop.utc zones) := by
      simpa only [List.forall_mem_cons, List.not_mem_nil, false_implies, implies_true, and_true]
        using h.utc
    have habut := h.abut
    have hends := h.ends
    have hm₁ : iterPoints zones w₁.1 w₁.2 = .ok (minutesFrom (start.utc zones / 60000000)
        (seamUtc zones start stop 0 / 60000000)) := by
      rw [iterPoints_eq_ok, hzero, hw₁]
      refine ⟨⟨hstart, hP⟩, ?_, rfl⟩
      unfold Abut at habut
      dsimp only
      split at habut
      · split at habut
        · omega
        · omega
      · omega
    have hm₂ : iterPoints zones w₂.1 w₂.2 = .ok (minutesFrom
        (seamUtc zones start stop 60000000 / 60000000) (stop.utc zones / 60000000)) := by
      rw [iterPoints_eq_ok, hminute, hw₂]
      refine ⟨⟨hQ, hstop⟩, ?_, rfl⟩
      unfold Abut at habut
      dsimp only
      split at habut
      · split at habut
        · omega
        · omega
      · split at habut
        · omega
        · omega
    have hm : iterPoints zones start stop = .ok
        (minutesFrom (start.utc zones / 60000000) (seamUtc zones start stop 0 / 60000000) ++
          minutesFrom (seamUtc zones start stop 60000000 / 60000000)
            (stop.utc zones / 60000000)) :=
      iterPoints_eq_ok.mpr ⟨⟨hstart, hstop⟩, hends, (minutesFrom_append_iff.mpr habut).symm⟩
    have hlast := hlater.mpr h.ordered
    refine ⟨?_, fun hversion => ?_, ⟨_, _, hm₁, hm₂, ?_, ?_⟩, fun threshold => ?_⟩
    · simp only [List.forall_mem_cons, List.not_mem_nil, false_implies, implies_true, and_true]
      exact ⟨hfirst, hlast⟩
    · simp only [List.forall_mem_cons, List.not_mem_nil, false_implies, implies_true, and_true]
      exact ⟨fun threshold => runPeriod_isOk hversion hfirst hm₁,
        fun threshold => runPeriod_isOk hversion hlast hm₂⟩
    · exact habut.disjoint
    · exact hm
    · rw [periodTrades_of_points hwhole hm, periodTrades_of_points hfirst hm₁,
        periodTrades_of_points hlast hm₂, runMinutes_append]
      exact mapError_append _ _ _

theorem splits_iff_seam : Splits zones e config start stop ↔ Seam zones start stop := by
  by_cases hreached : splitClock zones start stop + 60000000 ≤ datetimeMax
  · obtain ⟨hsplit, hsecond, hwindows⟩ := periodWindows_of_reached hspan hreached
    have hby : SplitBy zones e config start stop (start, ⟨_, _, _, hsplit⟩)
        (⟨_, _, _, hsecond⟩, stop) ↔ Seam zones start stop := splitBy_iff hspan rfl rfl
    rw [← hby]
    constructor
    · rintro ⟨w₁, w₂, hpair, hsplits⟩
      have hlist := Except.ok.inj (hpair.symm.trans hwindows)
      simp only [List.cons.injEq, and_true] at hlist
      rwa [hlist.1, hlist.2] at hsplits
    · exact fun hsplits => ⟨_, _, hwindows, hsplits⟩
  · constructor
    · rintro ⟨w₁, w₂, hpair, -⟩
      exact absurd (reached_of_periodWindows hpair) hreached
    · exact fun h => absurd h.reached hreached

/-- With one offset for each zone nothing but the end of the calendar spoils the seam. -/
theorem seam_iff_of_fixed {offset : Z → ℤ}
    (hfixed : ∀ z clock fold, zones z clock fold = offset z) :
    Seam zones start stop ↔ splitClock zones start stop + 60000000 ≤ datetimeMax ∧
      (InRange (start.utc zones) ∧ InRange (stop.utc zones)) ∧
      stop.utc zones / 60000000 < lastMinute := by
  have hround := divideAndRound_two (stop.sub zones start)
  have hsub : stop.sub zones start = stop.utc zones - start.utc zones := sub_of_fixed hfixed
  have hseam : ∀ later, seamUtc zones start stop later =
      start.utc zones + divideAndRound (stop.sub zones start) 2 + later := by
    intro later
    unfold seamUtc splitClock AwareTime.utc
    dsimp only
    rw [hfixed, hfixed]
    omega
  have hzero := hseam 0
  have hminute := hseam 60000000
  constructor
  · intro h
    refine ⟨h.reached, ⟨h.utc _ (by simp), h.utc _ (by simp)⟩, h.ends ?_⟩
    omega
  · rintro ⟨hreached, ⟨hstart, hstop⟩, hlast⟩
    refine ⟨hreached, ?_, fun _ => ?_, ?_, fun _ => hlast⟩
    · simp only [List.forall_mem_cons, List.not_mem_nil, false_implies, implies_true, and_true]
      refine ⟨hstart, ⟨?_, ?_⟩, ⟨?_, ?_⟩, hstop⟩
      · have hlow := hstart.1
        omega
      · have hhigh := hstop.2
        omega
      · have hlow := hstart.1
        omega
      · have hhigh := hstop.2
        omega
    · omega
    · rw [Abut, if_pos (by omega), if_pos (by omega)]
      omega

end Span

/-- The two windows split the backtest exactly when the minutes around the seam do. Where the zones
have one offset each, they do unless the calendar ends. -/
theorem walkForward_splits_iff (zones : Zones Z) (e : BacktestEngine) (config : BacktestConfig)
    (start stop : AwareTime Z) (hspan : 120000000 < stop.sub zones start) :
    (Splits zones e config start stop ↔ Seam zones start stop) ∧
    ∀ offset : Z → ℤ, (∀ z clock fold, zones z clock fold = offset z) →
      (Splits zones e config start stop ↔ splitClock zones start stop + 60000000 ≤ datetimeMax ∧
        (InRange (start.utc zones) ∧ InRange (stop.utc zones)) ∧
        stop.utc zones / 60000000 < lastMinute) :=
  ⟨splits_iff_seam hspan, fun _ hfixed =>
    (splits_iff_seam hspan).trans (seam_iff_of_fixed hspan hfixed)⟩

/-- A period that begins and ends between minutes, in two zones of fixed offsets, is split. -/
theorem walkForward_splits_iff_unaligned :
    Splits (fun (z : ℤ) _ _ => z) oneSymbol (oneMinuteConfig 1000 20)
      ⟨29453780 * 60000000 - 45123456, false, 3600000000, by decide⟩
      ⟨29453780 * 60000000 + 75123456, false, -18000000000, by decide⟩ :=
  ((walkForward_splits_iff _ _ _ _ _ (by decide)).2 id fun _ _ _ => rfl).mpr (by decide)

/-! ### Zones of one offset -/

/-- The time as an instant, with the offset of its zone. -/
def AwareTime.toDateTime (zones : Zones Z) (t : AwareTime Z) : DateTime :=
  ⟨t.utc zones, zones t.tzinfo t.clock t.fold⟩

/-- A config with the instants of a period. -/
def withPeriod (zones : Zones Z) (config : BacktestConfig) (period : AwareTime Z × AwareTime Z) :
    BacktestConfig :=
  { config with
    periodStart := period.1.toDateTime zones
    periodEnd := period.2.toDateTime zones }

section Fixed

variable {offset : Z → ℤ} (hfixed : ∀ z clock fold, zones z clock fold = offset z)
include hfixed

/-- Where the zones have one offset each, a run over a period within the calendar is the run over
its instants. -/
theorem runPeriod_of_fixed {period : AwareTime Z × AwareTime Z}
    (hstart : InRange (period.1.utc zones)) (hstop : InRange (period.2.utc zones))
    (hlast : period.2.utc zones / 60000000 < lastMinute) :
    e.runPeriod zones config period = (e.run (withPeriod zones config period)).mapError .run := by
  have hsub : period.2.sub zones period.1 = period.2.utc zones - period.1.utc zones :=
    sub_of_fixed hfixed
  have hminutes : iterPoints zones period.1 period.2 = .ok (iterMinutes
      (period.1.toDateTime zones) (period.2.toDateTime zones)) :=
    iterPoints_eq_ok.mpr ⟨⟨hstart, hstop⟩, fun _ => hlast, rfl⟩
  by_cases hbefore : period.2.before zones period.1
  · have hlt : (withPeriod zones config period).periodEnd.instant <
        (withPeriod zones config period).periodStart.instant := by
      rw [AwareTime.before, hsub] at hbefore
      show period.2.utc zones < period.1.utc zones
      omega
    unfold BacktestEngine.runPeriod BacktestEngine.run
    rw [if_pos hbefore, if_pos hlt]
    rfl
  · have hle : ¬(withPeriod zones config period).periodEnd.instant <
        (withPeriod zones config period).periodStart.instant := by
      rw [AwareTime.before, hsub] at hbefore
      show ¬period.2.utc zones < period.1.utc zones
      omega
    rw [runPeriod_of_points hbefore hminutes]
    unfold BacktestEngine.run
    rw [if_neg hle]
    exact (mapError_mapError RunError.scoring PeriodError.run (e.runMinutes _ _)).symm

omit [DecidableEq Z] in
theorem toDateTime_of_add {micros : ℤ} (h : t.add micros = .ok u) :
    u.toDateTime zones = (t.toDateTime zones).add micros := by
  unfold AwareTime.add at h
  split at h
  · rw [← Except.ok.inj h]
    simp only [AwareTime.toDateTime, AwareTime.utc, DateTime.add, hfixed, DateTime.mk.injEq,
      and_true]
    omega
  · cases h

/-- The windows are those of the instants. -/
theorem windows_of_fixed {found : List (AwareTime Z × AwareTime Z)}
    (h : periodWindows zones start stop = .ok found) :
    found.map (fun w => (w.1.toDateTime zones, w.2.toDateTime zones)) =
      windows (withPeriod zones config (start, stop)) := by
  obtain ⟨split, hsplit, h⟩ := bind_eq_ok.mp h
  obtain ⟨second, hsecond, h⟩ := bind_eq_ok.mp h
  have hspan : stop.sub zones start = totalSpan (withPeriod zones config (start, stop)) :=
    sub_of_fixed hfixed
  rw [← Except.ok.inj h, List.map_cons, List.map_singleton, toDateTime_of_add hfixed hsecond,
    toDateTime_of_add hfixed hsplit, hspan]
  rfl

end Fixed

end Seam

/-! ### Two periods that are not split -/

inductive Place
  | utc
  | newYork
  deriving DecidableEq

/-- UTC, and the clocks of New York around 2 o'clock on 8 March 2026, which go from 2:00 to 3:00. -/
def clocks : Zones Place
  | .utc, _, _ => 0
  | .newYork, clock, fold =>
    if clock < 1772935200000000 then -18000000000
    else if clock < 1772938800000000 then if fold then -14400000000 else -18000000000
    else -14400000000

/-- A time in New York as the clock shows it first, at a minute of 2026-03-08. -/
def newYorkTime (minutes : ℤ) (h : InRange ((29548800 + minutes) * 60000000)) : AwareTime Place :=
  ⟨(29548800 + minutes) * 60000000, false, .newYork, h⟩

/-- A time in UTC at a minute of 9999-12-31. -/
def lastDayTime (minutes : ℤ) (h : InRange ((4223370240 + minutes) * 60000000)) : AwareTime Place :=
  ⟨(4223370240 + minutes) * 60000000, false, .utc, h⟩

/-- From 1:59 to 4:00 in New York the windows overlap: they meet at 2:59:30, and a minute later on
the clock it is an hour earlier. A period up to the last minute of the calendar is not run at all.
-/
theorem windows_overlap :
    ¬Splits clocks oneSymbol (oneMinuteConfig 1000 20) (newYorkTime 119 (by decide))
      (newYorkTime 240 (by decide)) ∧
    ¬Splits clocks oneSymbol (oneMinuteConfig 1000 20) (lastDayTime 1430 (by decide))
      (lastDayTime 1439 (by decide)) := by
  refine ⟨fun h => ?_, fun h => ?_⟩
  · have habut := ((splits_iff_seam (by decide)).mp h).abut
    revert habut
    decide
  · have hends := ((splits_iff_seam (by decide)).mp h).ends
    revert hends
    decide

end ChainMonitor.Backtest
