import ChainMonitor.Backtest.Books
import ChainMonitor.Backtest.ProfitFactor
import ChainMonitor.ProofKit.Ranking

/-! `BacktestParameterOptimizer.grid_search` of `backtest/optimizer.py`: the trials, their ranking,
and what the exits of a trial do to its place. -/

namespace ChainMonitor.Backtest

open ProofKit PipelineService Scoring Snapshots

structure ParameterSearchReport where
  chainId : String
  strategyVersion : String
  testedCount : ℕ
  best : SearchCandidate
  leaderboard : List SearchCandidate

inductive SearchError
  | run (error : RunError)
  | indexError

def thresholds (config : BacktestConfig) : List ℚ :=
  [ max 55 (config.convictionThreshold - 5),
    config.convictionThreshold,
    min 90 (config.convictionThreshold + 5) ]

def stopLosses (config : BacktestConfig) : List ℚ :=
  [max (2 / 100) (config.stopLossPct - 2 / 100), config.stopLossPct]

def takeProfits (config : BacktestConfig) : List ℚ :=
  [config.takeProfitPct, min (20 / 100) (config.takeProfitPct + 3 / 100)]

def holdMinutes (config : BacktestConfig) : List ℤ :=
  [max 3 (config.holdMinutes - 2), config.holdMinutes]

def trialConfig (config : BacktestConfig) (threshold stopLoss takeProfit : ℚ) (hold : ℤ) :
    BacktestConfig :=
  { config with
    convictionThreshold := threshold
    stopLossPct := stopLoss
    takeProfitPct := takeProfit
    holdMinutes := hold }

/-- The product of the parameters, in the order of `itertools.product`. -/
def trials (config : BacktestConfig) : List BacktestConfig :=
  (thresholds config).flatMap fun threshold => (stopLosses config).flatMap fun stopLoss =>
    (takeProfits config).flatMap fun takeProfit => (holdMinutes config).map fun hold =>
      trialConfig config threshold stopLoss takeProfit hold

/-- The candidate that a trial adds. -/
def outcome (e : BacktestEngine) (trial : BacktestConfig) : Except RunError SearchCandidate :=
  (fun result => searchCandidate trial result.2) <$> e.run trial

/-- `candidates.sort(..., reverse=True)`, which keeps the order of equal keys. -/
def rankCandidates (candidates : List SearchCandidate) : List SearchCandidate :=
  candidates.insertionSort fun a b => b.key ≤ a.key

/-- The report of the candidates; `candidates[0]` raises when there is none. -/
def searchReport (config : BacktestConfig) (candidates : List SearchCandidate) :
    Except SearchError ParameterSearchReport :=
  match rankCandidates candidates with
  | [] => .error .indexError
  | best :: rest => .ok {
      chainId := config.chainId
      strategyVersion := config.strategyVersion
      testedCount := candidates.length
      best
      leaderboard := (best :: rest).take 10 }

def gridSearch (e : BacktestEngine) (config : BacktestConfig) :
    Except SearchError ParameterSearchReport := do
  let candidates ← ((trials config).mapM (outcome e)).mapError .run
  searchReport config candidates

/-! ### What the trials find -/

section Trials

variable {e : BacktestEngine} {config trial : BacktestConfig} {rows : List (List ScoreRowInput)}

/-- The candidate of a trial, by the score rows of all minutes. -/
def candidateOf (e : BacktestEngine) (rows : List (List ScoreRowInput)) (trial : BacktestConfig) :
    SearchCandidate :=
  searchCandidate trial (e.report trial
    (rows.flatten.filter fun score => trial.convictionThreshold ≤ score.conviction)).2

/-- A run returns when the period is in order and every minute can be scored. -/
theorem run_eq_report {result : List BacktestTradeResult × BacktestMetrics} :
    e.run config = .ok result ↔ config.periodStart.instant ≤ config.periodEnd.instant ∧
      ∃ rows, (iterMinutes config.periodStart config.periodEnd).mapM e.scoreRows = .ok rows ∧
        e.report config (rows.flatten.filter fun score =>
          config.convictionThreshold ≤ score.conviction) = result := by
  rw [run_eq_ok]
  refine and_congr_right fun _ => ?_
  unfold BacktestEngine.passing
  cases (iterMinutes config.periodStart config.periodEnd).mapM e.scoreRows with
  | error err =>
    constructor
    · rintro ⟨rows, h, -⟩
      cases h
    · rintro ⟨rows, h, -⟩
      cases h
  | ok rows =>
    constructor
    · rintro ⟨_, h, hreport⟩
      cases h
      exact ⟨rows, rfl, hreport⟩
    · rintro ⟨_, h, hreport⟩
      cases h
      exact ⟨_, rfl, hreport⟩

theorem mem_trials : trial ∈ trials config ↔ ∃ threshold ∈ thresholds config,
    ∃ stopLoss ∈ stopLosses config, ∃ takeProfit ∈ takeProfits config,
      ∃ hold ∈ holdMinutes config,
        trialConfig config threshold stopLoss takeProfit hold = trial := by
  simp only [trials, List.mem_flatMap, List.mem_map]

/-- The parameters of the search are themselves a trial. -/
theorem self_mem_trials (config : BacktestConfig) : config ∈ trials config :=
  mem_trials.mpr ⟨_, by simp [thresholds], _, List.mem_cons_of_mem _ (List.mem_singleton_self _), _,
    List.mem_cons_self, _, List.mem_cons_of_mem _ (List.mem_singleton_self _), rfl⟩

theorem length_trials (config : BacktestConfig) : (trials config).length = 24 := rfl

theorem period_of_mem_trials (h : trial ∈ trials config) :
    trial.periodStart = config.periodStart ∧ trial.periodEnd = config.periodEnd := by
  obtain ⟨_, -, _, -, _, -, _, -, rfl⟩ := mem_trials.mp h
  exact ⟨rfl, rfl⟩

theorem outcome_eq_ok {c : SearchCandidate} (h : trial ∈ trials config) :
    outcome e trial = .ok c ↔ config.periodStart.instant ≤ config.periodEnd.instant ∧
      ∃ rows, (iterMinutes config.periodStart config.periodEnd).mapM e.scoreRows = .ok rows ∧
        candidateOf e rows trial = c := by
  obtain ⟨hstart, hend⟩ := period_of_mem_trials h
  have hmap : outcome e trial = .ok c ↔
      ∃ result, e.run trial = .ok result ∧ searchCandidate trial result.2 = c := by
    unfold outcome
    cases e.run trial with
    | error err => simp
    | ok result => simp
  rw [hmap, ← hstart, ← hend]
  constructor
  · rintro ⟨result, hrun, rfl⟩
    obtain ⟨hle, rows, hrows, rfl⟩ := run_eq_report.mp hrun
    exact ⟨hle, rows, hrows, rfl⟩
  · rintro ⟨hle, rows, hrows, rfl⟩
    exact ⟨_, run_eq_report.mpr ⟨hle, rows, hrows, rfl⟩, rfl⟩

theorem mapM_outcome {cs : List SearchCandidate} :
    (trials config).mapM (outcome e) = .ok cs ↔
      config.periodStart.instant ≤ config.periodEnd.instant ∧
      ∃ rows, (iterMinutes config.periodStart config.periodEnd).mapM e.scoreRows = .ok rows ∧
        (trials config).map (candidateOf e rows) = cs := by
  rw [mapM_eq_ok]
  constructor
  · intro h
    obtain ⟨c, -, hc⟩ := forall₂_mem_left h (self_mem_trials config)
    obtain ⟨hle, rows, hrows, -⟩ := (outcome_eq_ok (self_mem_trials config)).mp hc
    refine ⟨hle, rows, hrows, ?_⟩
    rw [← List.forall₂_eq_eq_eq, List.forall₂_map_left_iff]
    refine (forall₂_congr_mem fun trial htrial c => ?_).mp h
    rw [outcome_eq_ok htrial]
    constructor
    · rintro ⟨-, rows', hrows', heq⟩
      cases hrows.symm.trans hrows'
      exact heq
    · exact fun heq => ⟨hle, rows, hrows, heq⟩
  · rintro ⟨hle, rows, hrows, rfl⟩
    rw [List.forall₂_map_right_iff]
    refine List.forall₂_same.mpr fun trial htrial => ?_
    exact (outcome_eq_ok htrial).mpr ⟨hle, rows, hrows, rfl⟩

theorem searchReport_cons (config : BacktestConfig) (c : SearchCandidate)
    (cs : List SearchCandidate) : searchReport config (c :: cs) = .ok {
      chainId := config.chainId
      strategyVersion := config.strategyVersion
      testedCount := (c :: cs).length
      best := firstMax SearchCandidate.key c cs
      leaderboard := (rankCandidates (c :: cs)).take 10 } := by
  have hhead : (rankCandidates (c :: cs)).head? = some (firstMax SearchCandidate.key c cs) :=
    head?_insertionSort SearchCandidate.key c cs
  unfold searchReport
  cases hranked : rankCandidates (c :: cs) with
  | nil =>
    rw [hranked] at hhead
    cases hhead
  | cons best rest =>
    rw [hranked] at hhead
    rw [← Option.some.inj hhead]

theorem gridSearch_eq_ok {report : ParameterSearchReport} :
    gridSearch e config = .ok report ↔ config.periodStart.instant ≤ config.periodEnd.instant ∧
      ∃ rows, (iterMinutes config.periodStart config.periodEnd).mapM e.scoreRows = .ok rows ∧
        searchReport config ((trials config).map (candidateOf e rows)) = .ok report := by
  unfold gridSearch
  cases hcs : (trials config).mapM (outcome e) with
  | error err =>
    constructor
    · intro h
      cases h
    · rintro ⟨hle, rows, hrows, -⟩
      cases hcs.symm.trans (mapM_outcome.mpr ⟨hle, rows, hrows, rfl⟩)
  | ok candidates =>
    obtain ⟨hle, rows, hrows, hcandidates⟩ := mapM_outcome.mp hcs
    show searchReport config candidates = .ok report ↔ _
    constructor
    · intro h
      rw [← hcandidates] at h
      exact ⟨hle, rows, hrows, h⟩
    · rintro ⟨-, rows', hrows', h⟩
      obtain rfl : rows = rows' := Except.ok.inj (hrows.symm.trans hrows')
      rw [hcandidates] at h
      exact h

/-! ### The report -/

/-- The trials of one threshold and exits, which differ in the time to hold. -/
def holdPairs (config : BacktestConfig) : List (BacktestConfig × BacktestConfig) :=
  (thresholds config).flatMap fun threshold => (stopLosses config).flatMap fun stopLoss =>
    (takeProfits config).map fun takeProfit =>
      (trialConfig config threshold stopLoss takeProfit (max 3 (config.holdMinutes - 2)),
        trialConfig config threshold stopLoss takeProfit config.holdMinutes)

theorem trials_eq (config : BacktestConfig) :
    trials config = (holdPairs config).flatMap fun p => [p.1, p.2] := rfl

theorem fst_mem_trials {p : BacktestConfig × BacktestConfig} (hp : p ∈ holdPairs config) :
    p.1 ∈ trials config := by
  rw [trials_eq]
  exact List.mem_flatMap.mpr ⟨p, hp, List.mem_cons_self⟩

/-- No run looks at the time to hold. -/
theorem key_holdMinutes (rows : List (List ScoreRowInput)) {p : BacktestConfig × BacktestConfig}
    (hp : p ∈ holdPairs config) :
    (candidateOf e rows p.1).key = (candidateOf e rows p.2).key := by
  simp only [holdPairs, List.mem_flatMap, List.mem_map] at hp
  obtain ⟨threshold, -, stopLoss, -, takeProfit, -, rfl⟩ := hp
  rfl

theorem holdMinutes_of_mem {p : BacktestConfig × BacktestConfig} (hp : p ∈ holdPairs config) :
    p.1.holdMinutes = max 3 (config.holdMinutes - 2) := by
  simp only [holdPairs, List.mem_flatMap, List.mem_map] at hp
  obtain ⟨threshold, -, stopLoss, -, takeProfit, -, rfl⟩ := hp
  rfl

/-- The candidates, and what the report says of them. -/
theorem report_of_rows {report : ParameterSearchReport}
    (h : searchReport config ((trials config).map (candidateOf e rows)) = .ok report) :
    report.testedCount = 24 ∧
    report.leaderboard = (rankCandidates ((trials config).map (candidateOf e rows))).take 10 ∧
    report.leaderboard.head? = some report.best ∧
    (∀ trial ∈ trials config, (candidateOf e rows trial).key ≤ report.best.key) ∧
    ∃ p ∈ holdPairs config, report.best = candidateOf e rows p.1 := by
  have hlen : ((trials config).map (candidateOf e rows)).length = 24 := by
    rw [List.length_map, length_trials]
  cases hcs : (trials config).map (candidateOf e rows) with
  | nil =>
    rw [hcs] at hlen
    cases hlen
  | cons c cs =>
    rw [hcs, searchReport_cons] at h
    rw [hcs] at hlen
    obtain rfl := Except.ok.inj h
    have hhead := head?_insertionSort SearchCandidate.key c cs
    have hbest : ∀ x ∈ c :: cs, x.key ≤ (firstMax SearchCandidate.key c cs).key :=
      le_firstMax SearchCandidate.key c cs
    refine ⟨hlen, rfl, ?_, fun trial htrial => hbest _ (hcs ▸ List.mem_map_of_mem htrial), ?_⟩
    · show ((rankCandidates (c :: cs)).take 10).head? = _
      rw [List.head?_take, if_neg (by norm_num)]
      exact hhead
    · have hpairs : ((holdPairs config).map fun p =>
          (candidateOf e rows p.1, candidateOf e rows p.2)).flatMap (fun p => [p.1, p.2]) =
            c :: cs := by
        rw [← hcs, trials_eq, List.map_flatMap, List.flatMap_map]
        rfl
      have hkey : ∀ q ∈ (holdPairs config).map fun p =>
          (candidateOf e rows p.1, candidateOf e rows p.2), q.1.key = q.2.key := by
        intro q hq
        obtain ⟨p, hp, rfl⟩ := List.mem_map.mp hq
        exact key_holdMinutes rows hp
      have hmem := firstMax_mem_fst hkey hpairs
      rw [List.map_map] at hmem
      obtain ⟨p, hp, heq⟩ := List.mem_map.mp hmem
      exact ⟨p, hp, heq.symm⟩

theorem exists_searchReport (e : BacktestEngine) (config : BacktestConfig)
    (rows : List (List ScoreRowInput)) :
    ∃ report, searchReport config ((trials config).map (candidateOf e rows)) = .ok report := by
  cases hcs : (trials config).map (candidateOf e rows) with
  | nil =>
    have hlen := congrArg List.length hcs
    rw [List.length_map, length_trials] at hlen
    cases hlen
  | cons c cs => exact ⟨_, searchReport_cons config c cs⟩

theorem passed_of_key_le {a b : SearchCandidate} (h : a.key ≤ b.key) (ha : a.passed = true) :
    b.passed = true :=
  Prod.Lex.monotone_fst _ _ h ha

/-- A grid search returns exactly when a run of its config does. Its leaderboard holds the first ten
of the 24 candidates in falling order of the key, where what stood before one of no greater key
stays before it; of these the best is the first and no worse than the config itself; the best has
passed when some trial has; and it always has the first of the two times to hold, as the trials with
the second one find the same and come after them. -/
theorem gridSearch_report (e : BacktestEngine) (config : BacktestConfig) :
    ((∃ report, gridSearch e config = .ok report) ↔ ∃ result, e.run config = .ok result) ∧
    ∀ report, gridSearch e config = .ok report →
      (∃ candidates, (trials config).mapM (outcome e) = .ok candidates ∧
        report.testedCount = candidates.length ∧ candidates.length = 24 ∧
        ∃ ranked : List SearchCandidate, ranked.Perm candidates ∧
          ranked.Pairwise (fun a b => b.key ≤ a.key) ∧
          (∀ a b, [a, b].Sublist candidates → b.key ≤ a.key → [a, b].Sublist ranked) ∧
          report.leaderboard = ranked.take 10 ∧
          ranked.head? = some report.best ∧
          (report.best.passed = true ↔ ∃ c ∈ candidates, c.passed = true)) ∧
      (∀ result, e.run config = .ok result →
        (searchCandidate config result.2).key ≤ report.best.key) ∧
      report.best.holdMinutes = max 3 (config.holdMinutes - 2) := by
  constructor
  · constructor
    · rintro ⟨report, h⟩
      obtain ⟨hle, rows, hrows, -⟩ := gridSearch_eq_ok.mp h
      exact ⟨_, run_eq_report.mpr ⟨hle, rows, hrows, rfl⟩⟩
    · rintro ⟨result, h⟩
      obtain ⟨hle, rows, hrows, -⟩ := run_eq_report.mp h
      obtain ⟨report, hreport⟩ := exists_searchReport e config rows
      exact ⟨report, gridSearch_eq_ok.mpr ⟨hle, rows, hrows, hreport⟩⟩
  · intro report h
    obtain ⟨hle, rows, hrows, hreport⟩ := gridSearch_eq_ok.mp h
    obtain ⟨hcount, hleaders, hhead, hbest, p, hp, hfirst⟩ := report_of_rows hreport
    refine ⟨⟨_, mapM_outcome.mpr ⟨hle, rows, hrows, rfl⟩, ?_, ?_, _,
      List.perm_insertionSort _ _, List.pairwise_insertionSort _ _,
      fun _ _ hsub hkey => List.pair_sublist_insertionSort hkey hsub, hleaders, ?_, ?_⟩, ?_, ?_⟩
    · rw [hcount, List.length_map, length_trials]
    · rw [List.length_map, length_trials]
    · rw [← hhead, hleaders, List.head?_take, if_neg (by norm_num)]
      rfl
    · constructor
      · intro hpassed
        rw [hfirst] at hpassed
        exact ⟨_, List.mem_map_of_mem (fst_mem_trials hp), hpassed⟩
      · rintro ⟨c, hc, hpassed⟩
        obtain ⟨trial, htrial, rfl⟩ := List.mem_map.mp hc
        exact passed_of_key_le (hbest trial htrial) hpassed
    · intro result hrun
      obtain ⟨-, rows', hrows', rfl⟩ := run_eq_report.mp hrun
      obtain rfl : rows = rows' := Except.ok.inj (hrows.symm.trans hrows')
      exact hbest config (self_mem_trials config)
    · rw [hfirst]
      exact holdMinutes_of_mem hp

end Trials

/-! ### Exits -/

section Exits

variable {e : BacktestEngine} {config : BacktestConfig} {threshold stopLoss stopLoss' takeProfit
  takeProfit' : ℚ} {hold hold' : ℤ}

theorem expectedReturn_mono (hstop : stopLoss' ≤ stopLoss) (htake : takeProfit ≤ takeProfit')
    (score : ScoreRowInput) :
    e.expectedReturn (trialConfig config threshold stopLoss takeProfit hold) score ≤
      e.expectedReturn (trialConfig config threshold stopLoss' takeProfit' hold') score :=
  max_le_max (neg_le_neg hstop) (min_le_min_right _ htake)

/-- A tighter stop loss and a wider take profit make no trade worse. -/
theorem netPnl_mono (hsize : 0 ≤ config.tradeSizeUsd) (hstop : stopLoss' ≤ stopLoss)
    (htake : takeProfit ≤ takeProfit') (score : ScoreRowInput) :
    (e.trade (trialConfig config threshold stopLoss takeProfit hold) score).1.netPnlUsd ≤
      (e.trade (trialConfig config threshold stopLoss' takeProfit' hold') score).1.netPnlUsd := by
  have hreturn : e.expectedReturn (trialConfig config threshold stopLoss takeProfit hold) score ≤
      e.expectedReturn (trialConfig config threshold stopLoss' takeProfit' hold') score :=
    expectedReturn_mono hstop htake score
  have hgross : e.grossPnl (trialConfig config threshold stopLoss takeProfit hold) score ≤
      e.grossPnl (trialConfig config threshold stopLoss' takeProfit' hold') score := by
    unfold BacktestEngine.grossPnl
    have hfailed : e.failed (trialConfig config threshold stopLoss takeProfit hold) score =
        e.failed (trialConfig config threshold stopLoss' takeProfit' hold') score := rfl
    rw [hfailed]
    split
    · exact le_rfl
    · exact mul_le_mul_of_nonneg_left hreturn hsize
  exact roundTo_mono 8 (sub_le_sub_right hgross _)

/-- Results that are no worse, trade by trade, have no smaller key, unless they lose nothing where
the quotient was above the value for that. -/
theorem key_mono {before after : List BacktestTradeResult} (trial trial' : BacktestConfig)
    (costs costs' : List TradeCost) (size size' : ℚ)
    (h : List.Forall₂ (fun t t' => t.netPnlUsd ≤ t'.netPnlUsd) before after)
    (hsentinel : ¬BeyondSentinel (netValues before) (netValues after)) :
    (searchCandidate trial (buildMetrics before costs size)).key ≤
      (searchCandidate trial' (buildMetrics after costs' size')).key := by
  have hlen := h.length_eq
  have hnets : List.Forall₂ (· ≤ ·) (netValues before) (netValues after) := by
    rw [netValues, netValues, List.forall₂_map_left_iff, List.forall₂_map_right_iff]
    exact h
  by_cases hne : before = []
  · subst hne
    obtain rfl : after = [] := List.length_eq_zero_iff.mp hlen.symm
    exact le_rfl
  · have hne' : after ≠ [] := fun hnil => hne (List.length_eq_zero_iff.mp (by rw [hlen, hnil]; rfl))
    rw [buildMetrics_eq costs size hne, buildMetrics_eq costs' size' hne']
    have hpf := roundTo_mono 8 ((profitFactor_le_iff hnets).mpr hsentinel)
    have hsum := sum_mono hnets
    have hmean : roundTo 8 ((netValues before).sum / before.length) ≤
        roundTo 8 ((netValues after).sum / after.length) := by
      apply roundTo_mono 8
      rw [hlen]
      exact div_le_div_of_nonneg_right hsum (Nat.cast_nonneg _)
    refine Prod.Lex.toLex_mono ⟨fun hpassed => ?_, Prod.Lex.toLex_mono ⟨hpf,
      Prod.Lex.toLex_mono ⟨hmean, roundTo_mono 8 hsum⟩⟩⟩
    obtain ⟨hover, hpositive⟩ := of_decide_eq_true hpassed
    exact decide_eq_true ⟨hover.trans_le hpf, hpositive.trans_le hmean⟩

theorem BeyondSentinel.lt_profitFactor {before after : List ℚ} (h : BeyondSentinel before after) :
    99 < profitFactor before := by
  rw [profitFactor, if_pos h.2.1]
  exact h.2.2

/-- The tighter of the two stop losses. -/
def tightest (config : BacktestConfig) : ℚ :=
  min (max (2 / 100) (config.stopLossPct - 2 / 100)) config.stopLossPct

/-- The wider of the two take profits. -/
def widest (config : BacktestConfig) : ℚ :=
  max config.takeProfitPct (min (20 / 100) (config.takeProfitPct + 3 / 100))

theorem tightest_mem (config : BacktestConfig) : tightest config ∈ stopLosses config ∧
    ∀ stopLoss ∈ stopLosses config, tightest config ≤ stopLoss := by
  unfold tightest stopLosses
  refine ⟨?_, List.forall_mem_cons.mpr ⟨min_le_left _ _, by simp⟩⟩
  rcases min_choice (max (2 / 100) (config.stopLossPct - 2 / 100)) config.stopLossPct with h | h
  · rw [h]
    exact List.mem_cons_self
  · rw [h]
    exact List.mem_cons_of_mem _ (List.mem_singleton_self _)

theorem widest_mem (config : BacktestConfig) : widest config ∈ takeProfits config ∧
    ∀ takeProfit ∈ takeProfits config, takeProfit ≤ widest config := by
  unfold widest takeProfits
  refine ⟨?_, List.forall_mem_cons.mpr ⟨le_max_left _ _, by simp⟩⟩
  rcases max_choice config.takeProfitPct (min (20 / 100) (config.takeProfitPct + 3 / 100))
    with h | h
  · rw [h]
    exact List.mem_cons_self
  · rw [h]
    exact List.mem_cons_of_mem _ (List.mem_singleton_self _)

/-- The trial that a candidate is of. -/
def trialOf (config : BacktestConfig) (c : SearchCandidate) : BacktestConfig :=
  trialConfig config c.convictionThreshold c.stopLossPct c.takeProfitPct c.holdMinutes

/-- The place of the best candidate is that of a trial with the tighter stop loss and the wider take
profit, whatever the scores, if the best trades do not win more than 99 times what they lose. -/
theorem gridSearch_exits {report : ParameterSearchReport} (hsize : 0 ≤ config.tradeSizeUsd)
    (h : gridSearch e config = .ok report)
    (hpf : ∀ result, e.run (trialOf config report.best) = .ok result →
      profitFactor (netValues result.1) ≤ 99) :
    ∃ trial ∈ trials config, trial.convictionThreshold = report.best.convictionThreshold ∧
      trial.stopLossPct = tightest config ∧ trial.takeProfitPct = widest config ∧
      ∃ result, e.run trial = .ok result ∧
        (searchCandidate trial result.2).key = report.best.key := by
  obtain ⟨hle, rows, hrows, hreport⟩ := gridSearch_eq_ok.mp h
  obtain ⟨-, -, -, hbest, p, hp, hfirst⟩ := report_of_rows hreport
  obtain ⟨threshold, hthreshold, stopLoss, hstop, takeProfit, htake, hold, hhold, htrial⟩ :=
    mem_trials.mp (fst_mem_trials hp)
  rw [← htrial] at hfirst
  have hbestrun : e.run (trialOf config report.best) = .ok (e.report (trialOf config report.best)
      (rows.flatten.filter fun score => threshold ≤ score.conviction)) := by
    rw [hfirst]
    exact run_eq_report.mpr ⟨hle, rows, hrows, rfl⟩
  have hquotient := hpf _ hbestrun
  obtain ⟨htight, htightest⟩ := tightest_mem config
  obtain ⟨hwide, hwidest⟩ := widest_mem config
  have hmem : trialConfig config threshold (tightest config) (widest config) hold ∈ trials config :=
    mem_trials.mpr ⟨_, hthreshold, _, htight, _, hwide, _, hhold, rfl⟩
  refine ⟨_, hmem, by rw [hfirst]; rfl, rfl, rfl, _,
    run_eq_report.mpr ⟨hle, rows, hrows, rfl⟩, ?_⟩
  have hhigh := hbest _ hmem
  refine le_antisymm hhigh ?_
  rw [hfirst] at hquotient ⊢
  refine key_mono _ _ _ _ _ _ ?_ ?_
  · rw [List.forall₂_map_left_iff, List.forall₂_map_right_iff]
    exact List.forall₂_same.mpr fun score _ =>
      netPnl_mono hsize (htightest _ hstop) (hwidest _ htake) score
  · exact fun hbeyond => absurd hbeyond.lt_profitFactor (not_lt.mpr hquotient)

end Exits

theorem profitFactor_singleton_le (net : ℚ) : profitFactor [net] ≤ 99 := by
  unfold profitFactor
  split
  · rename_i hloss
    have hnot : ¬ 0 < net := by
      intro hpos
      simp [grossLoss, losses, not_le.mpr hpos] at hloss
    simp [grossProfit, wins, hnot]
  · exact le_rfl

theorem profitFactor_nil : profitFactor [] = 99 := by
  simp [profitFactor, grossLoss, losses]

/-- A search over the one score of a minute, of which a trial has a trade or none. -/
theorem gridSearch_exits_oneMinute : ∃ report,
    gridSearch oneSymbol (oneMinuteConfig 1000 20) = .ok report ∧
      ∃ trial ∈ trials (oneMinuteConfig 1000 20), trial.stopLossPct = 4 / 100 ∧
        trial.takeProfitPct = 15 / 100 ∧ ∃ result, oneSymbol.run trial = .ok result ∧
          (searchCandidate trial result.2).key = report.best.key := by
  have hminutes : iterMinutes (oneMinuteConfig 1000 20).periodStart
      (oneMinuteConfig 1000 20).periodEnd = [29453780] := minutesFrom_self 29453780
  have hrows : (iterMinutes (oneMinuteConfig 1000 20).periodStart
      (oneMinuteConfig 1000 20).periodEnd).mapM oneSymbol.scoreRows = .ok [[oneScore]] := by
    rw [hminutes]
    exact mapM_eq_ok.mpr (.cons scoreRows_oneSymbol .nil)
  obtain ⟨report, hreport⟩ := exists_searchReport oneSymbol (oneMinuteConfig 1000 20) [[oneScore]]
  have hsearch := gridSearch_eq_ok.mpr ⟨le_rfl, [[oneScore]], hrows, hreport⟩
  have hsize : (0 : ℚ) ≤ (oneMinuteConfig 1000 20).tradeSizeUsd := by norm_num [oneMinuteConfig]
  have hexits := gridSearch_exits hsize hsearch fun result hrun => ?_
  · obtain ⟨trial, htrial, -, hstop, htake, hresult⟩ := hexits
    refine ⟨report, hsearch, trial, htrial, hstop.trans ?_, htake.trans ?_, hresult⟩
    · norm_num [tightest, oneMinuteConfig]
    · norm_num [widest, oneMinuteConfig]
  · obtain ⟨-, rows, hrows', rfl⟩ := run_eq_report.mp hrun
    obtain rfl : [[oneScore]] = rows := Except.ok.inj (hrows.symm.trans hrows')
    simp only [BacktestEngine.report, List.flatten_cons, List.flatten_nil, List.append_nil,
      List.filter_cons, List.filter_nil]
    split
    · exact profitFactor_singleton_le _
    · exact profitFactor_nil.le


end ChainMonitor.Backtest
