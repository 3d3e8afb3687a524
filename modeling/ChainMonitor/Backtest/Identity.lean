import ChainMonitor.Backtest.Ledger
import ChainMonitor.ProofKit.Strings
import Mathlib.Logic.Encodable.Basic

/-! `BacktestService._build_run_id`: the id under which a run is saved, against what the run depends
on and what is saved of it. -/

namespace ChainMonitor.Backtest

open ProofKit PipelineService Scoring Snapshots

/-- What the id takes from the standard library: the text of a time and of a float, each of which
reads back and has no bar, and the hexadecimal digest of a text. -/
structure IdTexts where
  isoformat : DateTime → String
  isoformat_injective : Function.Injective isoformat
  isoformat_bar : ∀ t, '|' ∉ (isoformat t).toList
  str : ℚ → String
  str_injective : Function.Injective str
  str_bar : ∀ q, '|' ∉ (str q).toList
  sha256 : String → String

/-- The text that the id is a digest of. -/
def IdTexts.payload (T : IdTexts) (config : BacktestConfig) : String :=
  config.chainId ++ "|" ++ config.strategyVersion ++ "|" ++
    T.isoformat config.periodStart ++ "|" ++ T.isoformat config.periodEnd ++ "|" ++
    T.str config.convictionThreshold ++ "|" ++ T.str config.tradeSizeUsd

def IdTexts.digest24 (T : IdTexts) (payload : String) : String :=
  .ofList ((T.sha256 payload).toList.take 24)

def buildRunId (T : IdTexts) (config : BacktestConfig) : String :=
  "bt_" ++ T.digest24 (T.payload config)

/-- The digest tells the payloads of two configs apart. -/
def NoCollision (T : IdTexts) (c₁ c₂ : BacktestConfig) : Prop :=
  T.digest24 (T.payload c₁) = T.digest24 (T.payload c₂) → T.payload c₁ = T.payload c₂

variable {T : IdTexts} {e : BacktestEngine} {c₁ c₂ : BacktestConfig}

theorem payload_eq_of_runId (hsha : NoCollision T c₁ c₂) (hid : buildRunId T c₁ = buildRunId T c₂) :
    T.payload c₁ = T.payload c₂ := by
  apply hsha
  have hlist := congrArg String.toList hid
  simp only [buildRunId, String.toList_append, List.append_cancel_left_eq] at hlist
  exact String.toList_injective hlist

/-- The fields that the end of a payload tells. -/
theorem fields_of_payload (h : T.payload c₁ = T.payload c₂) :
    c₁.periodStart = c₂.periodStart ∧ c₁.periodEnd = c₂.periodEnd ∧
      c₁.convictionThreshold = c₂.convictionThreshold ∧ c₁.tradeSizeUsd = c₂.tradeSizeUsd := by
  obtain ⟨h, hsize⟩ := String.joined_inj (T.str_bar _) (T.str_bar _) h
  obtain ⟨h, hthreshold⟩ := String.joined_inj (T.str_bar _) (T.str_bar _) h
  obtain ⟨h, hend⟩ := String.joined_inj (T.isoformat_bar _) (T.isoformat_bar _) h
  obtain ⟨-, hstart⟩ := String.joined_inj (T.isoformat_bar _) (T.isoformat_bar _) h
  exact ⟨T.isoformat_injective hstart, T.isoformat_injective hend, T.str_injective hthreshold,
    T.str_injective hsize⟩

/-- Two configs make the same of a score row: the same failure, and to eight digits the same
expected return, gross result and net result. -/
structure Agree (e : BacktestEngine) (c₁ c₂ : BacktestConfig) (score : ScoreRowInput) : Prop where
  failed : e.failed c₁ score = e.failed c₂ score
  expectedReturn : roundTo 8 (e.expectedReturn c₁ score) = roundTo 8 (e.expectedReturn c₂ score)
  gross : roundTo 8 (e.grossPnl c₁ score) = roundTo 8 (e.grossPnl c₂ score)
  net : roundTo 8 (e.grossPnl c₁ score - (estimate c₁ c₁.tradeSizeUsd).total) =
    roundTo 8 (e.grossPnl c₂ score - (estimate c₂ c₂.tradeSizeUsd).total)

/-- What the trades of a run add up to in one column of costs. -/
theorem roundTo_sum_cost {rows : List ScoreRowInput} {cost : TradeCost} {column : TradeCost → ℚ}
    (hcost : IsDecimal 8 (column cost)) :
    roundTo 8 (((rows.map fun _ => cost).map column).sum) = rows.length * column cost := by
  rw [roundTo_of_isDecimal]
  · simp
  · apply IsDecimal.sum_map
    intro c hc
    obtain ⟨-, -, rfl⟩ := List.mem_map.mp hc
    exact hcost

/-- From the breakdown of a run that has trades, the cost of each of them is read back. -/
theorem estimate_of_summarize {rows : List ScoreRowInput} (hne : rows ≠ []) (size₁ size₂ : ℚ)
    (h : summarize (rows.map fun _ => estimate c₁ size₁) =
      summarize (rows.map fun _ => estimate c₂ size₂)) : estimate c₁ size₁ = estimate c₂ size₂ := by
  have hpos : (rows.length : ℚ) ≠ 0 := by simpa using hne
  have hfee := congrArg CostBreakdown.totalFeeUsd h
  have hslippage := congrArg CostBreakdown.totalSlippageUsd h
  have hlatency := congrArg CostBreakdown.totalLatencyUsd h
  have hgas := congrArg CostBreakdown.totalGasUsd h
  simp only [summarize, roundTo_sum_cost, estimate, isDecimal_roundTo,
    mul_eq_mul_left_iff, hpos, or_false] at hfee hslippage hlatency hgas
  simp only [estimate, hfee, hslippage, hlatency, hgas]

theorem trade_eq_iff {score : ScoreRowInput}
    (hcost : estimate c₁ c₁.tradeSizeUsd = estimate c₂ c₂.tradeSizeUsd) :
    (e.trade c₁ score).1 = (e.trade c₂ score).1 ↔ Agree e c₁ c₂ score := by
  unfold BacktestEngine.trade
  constructor
  · intro h
    injection h with _ _ _ _ hreturn hgross _ hnet hfailed
    exact ⟨hfailed, hreturn, hgross, hnet⟩
  · rintro ⟨hfailed, hreturn, hgross, hnet⟩
    rw [hcost] at hnet
    simp only [hfailed, hreturn, hgross, hcost, hnet]

/-- Two configs report alike on the same score rows. -/
theorem report_eq_iff {rows : List ScoreRowInput} (hsize : c₁.tradeSizeUsd = c₂.tradeSizeUsd)
    (hne : rows ≠ []) : e.report c₁ rows = e.report c₂ rows ↔
      estimate c₁ c₁.tradeSizeUsd = estimate c₂ c₂.tradeSizeUsd ∧
        ∀ score ∈ rows, Agree e c₁ c₂ score := by
  constructor
  · intro h
    obtain ⟨htrades, hmetrics⟩ := Prod.mk.inj h
    have hcosts := congrArg BacktestMetrics.costBreakdown hmetrics
    rw [costBreakdown_buildMetrics, costBreakdown_buildMetrics] at hcosts
    have hcost := estimate_of_summarize hne c₁.tradeSizeUsd c₂.tradeSizeUsd hcosts
    refine ⟨hcost, fun score hscore => ?_⟩
    exact (trade_eq_iff hcost).mp (List.map_inj_left.mp htrades score hscore)
  · rintro ⟨hcost, hagree⟩
    have htrades : (rows.map fun score => (e.trade c₁ score).1) =
        rows.map fun score => (e.trade c₂ score).1 :=
      List.map_congr_left fun score hscore => (trade_eq_iff hcost).mpr (hagree score hscore)
    have hcosts : (rows.map fun score => (e.trade c₁ score).2) =
        rows.map fun score => (e.trade c₂ score).2 :=
      List.map_congr_left fun score _ => hcost
    unfold BacktestEngine.report
    rw [htrades, hcosts, hsize]

section OneId

variable (hsha : NoCollision T c₁ c₂) (hid : buildRunId T c₁ = buildRunId T c₂)
include hsha hid

/-- Under one id, two configs have the same run exactly when no score row of the run tells them
apart. -/
theorem run_eq_run_iff : e.run c₁ = e.run c₂ ↔
      (c₁.periodStart.instant ≤ c₁.periodEnd.instant →
        ∀ rows, e.passing c₁.convictionThreshold (iterMinutes c₁.periodStart c₁.periodEnd) =
            .ok rows → rows ≠ [] →
          estimate c₁ c₁.tradeSizeUsd = estimate c₂ c₂.tradeSizeUsd ∧
            ∀ score ∈ rows, Agree e c₁ c₂ score) := by
  obtain ⟨hstart, hend, hthreshold, hsize⟩ := fields_of_payload (payload_eq_of_runId hsha hid)
  by_cases hle : c₁.periodStart.instant ≤ c₁.periodEnd.instant
  · rw [run_eq e c₁ hle, run_eq e c₂ (by rwa [← hstart, ← hend]), ← hstart, ← hend, ← hthreshold]
    cases e.passing c₁.convictionThreshold (iterMinutes c₁.periodStart c₁.periodEnd) with
    | error err => simp [Except.mapError, Functor.map, Except.map]
    | ok rows =>
      have hrun : ((e.report c₁ <$> (Except.ok rows : Except ScoringError _)).mapError
            RunError.scoring = (e.report c₂ <$> Except.ok rows).mapError .scoring) ↔
          e.report c₁ rows = e.report c₂ rows := by
        simp [Except.mapError, Functor.map, Except.map]
      rw [hrun]
      by_cases hne : rows = []
      · subst hne
        simp [BacktestEngine.report, hsize]
      · rw [report_eq_iff hsize hne]
        constructor
        · intro h _ rows' hrows' _
          cases hrows'
          exact h
        · intro h
          exact h hle rows rfl hne
  · have hlt := not_le.mp hle
    have hlt' : c₂.periodEnd.instant < c₂.periodStart.instant := by rwa [← hstart, ← hend]
    refine ⟨fun _ h => absurd h hle, fun _ => ?_⟩
    unfold BacktestEngine.run
    rw [if_pos hlt, if_pos hlt']
    rfl

end OneId

/-- The run of the config raises: its period ends before it starts, or the scoring of a minute
raises. -/
def Raises (e : BacktestEngine) (config : BacktestConfig) : Prop :=
  config.periodStart.instant ≤ config.periodEnd.instant →
    ∀ rows, e.passing config.convictionThreshold
      (iterMinutes config.periodStart config.periodEnd) ≠ .ok rows

/-- Saved under its id after the run of `c₁`, the run of `c₂` leaves the stored config and metrics
of the first. -/
def Leaves (T : IdTexts) (e : BacktestEngine) (c₁ c₂ : BacktestConfig) : Prop :=
  ∀ column (s₁ s₂ : Save) row trades₁ trades₂, e.run c₁ = .ok (trades₁, s₁.metrics) →
    e.run c₂ = .ok (trades₂, s₂.metrics) → s₁.runId = buildRunId T c₁ → s₁.config = c₁ →
    s₂.runId = buildRunId T c₂ → s₂.config = c₂ →
      (s₂.merged (some (s₁.merged row))).config = (s₁.merged row).config ∧
        metricsRow column s₂.runId s₂.metrics = metricsRow column s₁.runId s₁.metrics

theorem config_merged (s : Save) (row : Option BacktestRun) : (s.merged row).config = s.config := by
  cases row <;> rfl

theorem not_raises_of_run {result : List BacktestTradeResult × BacktestMetrics}
    (h : e.run c₁ = .ok result) : ¬Raises e c₁ := by
  obtain ⟨hle, rows, hrows, -⟩ := run_eq_ok.mp h
  exact fun hraises => hraises hle rows hrows

theorem run_isOk_of_not_raises (h : ¬Raises e c₁) : ∃ result, e.run c₁ = .ok result := by
  unfold Raises at h
  push Not at h
  obtain ⟨hle, rows, hrows⟩ := h
  exact ⟨_, run_eq_ok.mpr ⟨hle, rows, hrows, rfl⟩⟩

/-- A text for a value that the run below does not write. -/
def unary (n : ℕ) : String := .ofList (List.replicate n '1')

theorem unary_injective : Function.Injective unary := by
  intro m n h
  have hlist := congrArg (fun s : String => s.toList.length) h
  simpa [unary] using hlist

theorem mem_unary {n : ℕ} {c : Char} (h : c ∈ (unary n).toList) : c = '1' := by
  simp only [unary, String.toList_ofList] at h
  exact List.eq_of_mem_replicate h

/-- The texts of `known`, and unary codes for the rest. -/
def coded {α : Type} [DecidableEq α] (known : List (α × String)) (code : α → ℕ) (a : α) : String :=
  (known.lookup a).getD (unary (code a))

theorem coded_eq {α : Type} [DecidableEq α] (known : List (α × String)) (code : α → ℕ) (a : α) :
    (a, coded known code a) ∈ known ∨ coded known code a = unary (code a) := by
  unfold coded
  cases h : known.lookup a with
  | none => exact .inr rfl
  | some s =>
    obtain ⟨l₁, l₂, rfl, -⟩ := List.lookup_eq_some_iff.mp h
    exact .inl (by simp)

theorem coded_injective {α : Type} [DecidableEq α] {known : List (α × String)} {code : α → ℕ}
    (hcode : Function.Injective code) (hknown : (known.map Prod.snd).Nodup)
    (hunary : ∀ p ∈ known, p.2.toList.any (· ≠ '1')) : Function.Injective (coded known code) := by
  have hne : ∀ {a : α} {s : String} {n : ℕ}, (a, s) ∈ known → s ≠ unary n := by
    rintro a s n hmem rfl
    obtain ⟨c, hc, hne⟩ := List.any_eq_true.mp (hunary _ hmem)
    exact of_decide_eq_true hne (mem_unary hc)
  intro a b h
  rcases coded_eq known code a with ha | ha
  · rcases coded_eq known code b with hb | hb
    · rw [h] at ha
      exact (Prod.mk.inj (List.inj_on_of_nodup_map hknown ha hb rfl)).1
    · exact absurd (h.trans hb) (hne ha)
  · rcases coded_eq known code b with hb | hb
    · exact absurd (h.symm.trans ha) (hne hb)
    · exact hcode (unary_injective (ha.symm.trans (h.trans hb)))

theorem coded_bar {α : Type} [DecidableEq α] {known : List (α × String)} {code : α → ℕ}
    (hknown : ∀ p ∈ known, '|' ∉ p.2.toList) (a : α) : '|' ∉ (coded known code a).toList := by
  rcases coded_eq known code a with ha | ha
  · exact hknown _ ha
  · rw [ha]
    intro hmem
    exact absurd (mem_unary hmem) (by decide)

def oneTexts : IdTexts where
  isoformat := coded [(oneMinute, "2026-01-01T00:20:00+00:00")] fun t =>
    Encodable.encode (t.instant, t.utcoffset)
  isoformat_injective := by
    apply coded_injective
    · intro s t h
      obtain ⟨hi, ho⟩ := Prod.mk.inj (Encodable.encode_injective h)
      cases s
      cases t
      simp_all
    · decide
    · decide
  isoformat_bar := coded_bar (by decide)
  str := coded [(50, "50.0"), (1000, "1000.0")] fun q => Encodable.encode (q.num, q.den)
  str_injective := by
    apply coded_injective
    · intro q r h
      obtain ⟨hnum, hden⟩ := Prod.mk.inj (Encodable.encode_injective h)
      exact Rat.ext hnum hden
    · decide
    · decide
  str_bar := coded_bar (by decide)
  sha256 payload :=
    if payload =
        "bsc|bsc-mvp-v1|2026-01-01T00:20:00+00:00|2026-01-01T00:20:00+00:00|50.0|1000.0" then
      "8ed32a1916b62f363909f90b9b573ee9530a80a653ea0c2f6234e57d6cbb2bf2"
    else ""

end ChainMonitor.Backtest
