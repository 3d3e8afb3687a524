import ChainMonitor.Backtest.Batch
import ChainMonitor.Backtest.SavedRun
import ChainMonitor.Scanner.ResultRows

/-! The tables `backtest_runs` and `backtest_metrics` under the transactions of
`PipelineRepository.save_backtest_run` and `save_gate2_check_result`, from however many processes,
and what `list_recent_backtest_runs` reads of them. -/

namespace ChainMonitor.Backtest

open ProofKit
open Analyze (IsVarchar)

/-! ### The tables and their transactions -/

/-- A row of `backtest_runs`. The `config_json` is the config, with the check under `gate2_check`.
-/
structure BacktestRun where
  runId : String
  strategyVersion : String
  periodStart : DateTime
  periodEnd : DateTime
  config : BacktestConfig
  gate2Check : Option Gate2CheckResult
  status : RunStatus
  createdAt : ℤ
  finishedAt : ℤ
  deriving DecidableEq

/-- A row of `backtest_metrics`, with the values of its columns in the order of `metricsPayload`. -/
structure BacktestMetricsRow where
  runId : String
  values : List ℚ
  deriving DecidableEq

structure BacktestTables where
  runs : Table BacktestRun.runId
  metrics : Table BacktestMetricsRow.runId

def BacktestTables.empty : BacktestTables := ⟨Table.empty, Table.empty⟩

/-- The arguments of `save_backtest_run`, and the time that it reads. -/
structure Save where
  runId : String
  config : BacktestConfig
  status : RunStatus
  metrics : BacktestMetrics
  now : ℤ
  deriving DecidableEq

/-- The columns take the values. -/
structure Save.Fits (s : Save) : Prop where
  runId : IsVarchar 64 s.runId
  strategyVersion : IsVarchar 64 s.config.strategyVersion
  period : s.config.periodStart.instant ≤ s.config.periodEnd.instant
  metrics : Stores s.metrics

instance (s : Save) : Decidable s.Fits :=
  decidable_of_iff (IsVarchar 64 s.runId ∧ IsVarchar 64 s.config.strategyVersion ∧
      s.config.periodStart.instant ≤ s.config.periodEnd.instant ∧ Stores s.metrics)
    ⟨fun ⟨h1, h2, h3, h4⟩ => ⟨h1, h2, h3, h4⟩, fun h => ⟨h.1, h.2, h.3, h.4⟩⟩

/-- The row of the run after `ON CONFLICT (run_id) DO UPDATE`, which leaves the other columns. -/
def Save.merged (s : Save) : Option BacktestRun → BacktestRun
  | none =>
    { runId := s.runId
      strategyVersion := s.config.strategyVersion
      periodStart := s.config.periodStart
      periodEnd := s.config.periodEnd
      config := s.config
      gate2Check := none
      status := s.status
      createdAt := s.now
      finishedAt := s.now }
  | some row => { row with
      config := s.config, gate2Check := none, status := s.status, finishedAt := s.now }

/-- A transaction on the two tables: the saves of a run and its metrics, or the check of a run. -/
inductive Transaction
  | run (s : Save)
  | check (runId : String) (gate2 : Gate2CheckResult) (now : ℤ)
  deriving DecidableEq

section Tables

variable (column : Numeric → ℚ → ℚ)

/-- The row of the metrics. A column gives back `column` of its type and the value. -/
def metricsRow (runId : String) (metrics : BacktestMetrics) : BacktestMetricsRow :=
  ⟨runId, (metricsPayload metrics).map fun c => column c.1 c.2⟩

def saveBacktestRun (s : Save) (db : BacktestTables) : Option BacktestTables :=
  if s.Fits then some
    { runs := db.runs.upsert (s.merged (db.runs.get? s.runId))
      metrics := db.metrics.upsert (metricsRow column s.runId s.metrics) }
  else none

/-- The `jsonb` that the stored `config_json` is cast to takes no NUL. -/
def saveGate2CheckResult (runId : String) (gate2 : Gate2CheckResult) (now : ℤ)
    (db : BacktestTables) : Option BacktestTables :=
  match db.runs.get? runId with
  | none => some db
  | some row =>
    if '\x00' ∈ row.config.chainId.toList then none
    else some { db with
      runs := db.runs.upsert { row with gate2Check := some gate2, finishedAt := now } }

/-- The tables after a transaction, which raises otherwise. -/
def Transaction.perform : Transaction → BacktestTables → Option BacktestTables
  | .run s, db => saveBacktestRun column s db
  | .check runId gate2 now, db => saveGate2CheckResult runId gate2 now db

/-- The tables, and the transactions that have been committed to them. -/
structure Ledger where
  tables : BacktestTables
  log : List Transaction

def Ledger.init : Ledger := ⟨.empty, []⟩

/-- A transaction commits unless it raises. It may raise as well when the database fails. -/
def Ledger.step (l : Ledger) (t : Transaction × Bool) : Ledger :=
  match if t.2 then t.1.perform column l.tables else none with
  | some tables => ⟨tables, l.log ++ [t.1]⟩
  | none => l

def ledger (ts : List (Transaction × Bool)) : Ledger := ts.foldl (Ledger.step column) .init

end Tables

/-- What `list_recent_backtest_runs` may return: runs of the chain with their metrics, those that
were created last first. It leaves open in which order runs of one time come. -/
def Lists (db : BacktestTables) (chainId : String) (limit : ℕ)
    (listed : List (BacktestRun × Option BacktestMetricsRow)) : Prop :=
  ∃ ordered : List BacktestRun,
    ordered.Perm (db.runs.rows.filter fun row => row.config.chainId = chainId) ∧
    ordered.Pairwise (fun a b => b.createdAt ≤ a.createdAt) ∧
    listed = (ordered.take limit).map fun row => (row, db.metrics.get? row.runId)

/-! ### What a log says of a run -/

def Transaction.save? : Transaction → Option Save
  | .run s => some s
  | .check .. => none

def saves (log : List Transaction) : List Save := log.filterMap Transaction.save?

def firstSave (runId : String) (log : List Transaction) : Option Save :=
  (saves log).find? fun s => s.runId = runId

def lastSave (runId : String) (log : List Transaction) : Option Save :=
  Table.lastOf Save.runId runId (saves log)

/-- The check of the run that the transaction saves, and when. -/
def Transaction.check? (runId : String) : Transaction → Option (Gate2CheckResult × ℤ)
  | .run _ => none
  | .check id gate2 now => if id = runId then some (gate2, now) else none

def Transaction.saves (runId : String) (t : Transaction) : Bool :=
  t.save?.any fun s => s.runId = runId

/-- The last check of the run that has been saved since the run itself has been. -/
def lastCheck (runId : String) (log : List Transaction) : Option (Gate2CheckResult × ℤ) :=
  (log.reverse.takeWhile fun t => !t.saves runId).findSome? (Transaction.check? runId)

/-- The row of a run: what its first save says of its version and its period and when it was made,
what its last save says of its config and its status, and the check since then. -/
def recounted (runId : String) (log : List Transaction) : Option BacktestRun :=
  match firstSave runId log, lastSave runId log with
  | some first, some last => some
    { runId := runId
      strategyVersion := first.config.strategyVersion
      periodStart := first.config.periodStart
      periodEnd := first.config.periodEnd
      config := last.config
      gate2Check := (lastCheck runId log).map Prod.fst
      status := last.status
      createdAt := first.now
      finishedAt := ((lastCheck runId log).map Prod.snd).getD last.now }
  | _, _ => none

section Log

variable {runId : String} {log : List Transaction} {s : Save}

theorem saves_save : saves (log ++ [.run s]) = saves log ++ [s] := by
  simp [saves, Transaction.save?]

theorem saves_check {id : String} {gate2 : Gate2CheckResult} {now : ℤ} :
    saves (log ++ [.check id gate2 now]) = saves log := by
  simp [saves, Transaction.save?]

theorem isSome_firstSave : (firstSave runId log).isSome ↔ (lastSave runId log).isSome := by
  rw [lastSave, Table.isSome_lastOf, firstSave, List.find?_isSome]
  simp

theorem lastSave_run : lastSave runId (log ++ [.run s]) =
    if s.runId = runId then some s else lastSave runId log := by
  rw [lastSave, saves_save, Table.lastOf_append, Table.lastOf_singleton]
  split
  · rfl
  · rfl

theorem lastSave_check {id : String} {gate2 : Gate2CheckResult} {now : ℤ} :
    lastSave runId (log ++ [.check id gate2 now]) = lastSave runId log := by
  rw [lastSave, lastSave, saves_check]

theorem lastCheck_save : lastCheck runId (log ++ [.run s]) =
    if s.runId = runId then none else lastCheck runId log := by
  unfold lastCheck
  rw [List.reverse_append, List.reverse_singleton, List.singleton_append, List.takeWhile_cons]
  by_cases h : s.runId = runId
  · simp [Transaction.saves, Transaction.save?, h]
  · simp [Transaction.saves, Transaction.save?, Transaction.check?, List.findSome?_cons, h]

theorem lastCheck_check {id : String} {gate2 : Gate2CheckResult} {now : ℤ} :
    lastCheck runId (log ++ [.check id gate2 now]) =
      if id = runId then some (gate2, now) else lastCheck runId log := by
  unfold lastCheck
  rw [List.reverse_append, List.reverse_singleton, List.singleton_append, List.takeWhile_cons]
  by_cases h : id = runId
  · simp [Transaction.saves, Transaction.save?, Transaction.check?, h]
  · simp [Transaction.saves, Transaction.save?, Transaction.check?, h]

theorem recounted_save : recounted runId (log ++ [.run s]) =
    if s.runId = runId then some (s.merged (recounted runId log)) else recounted runId log := by
  unfold recounted
  rw [lastCheck_save]
  unfold firstSave lastSave
  rw [saves_save, List.find?_append, Table.lastOf_append, Table.lastOf_singleton]
  by_cases h : s.runId = runId
  · subst h
    have hboth : (firstSave s.runId log).isSome ↔ (lastSave s.runId log).isSome :=
      isSome_firstSave
    unfold firstSave lastSave at hboth
    cases hfirst : (saves log).find? fun other => other.runId = s.runId with
    | none =>
      cases hlast : Table.lastOf Save.runId s.runId (saves log) with
      | none => simp [Save.merged]
      | some last => simp [hfirst, hlast] at hboth
    | some first =>
      cases hlast : Table.lastOf Save.runId s.runId (saves log) with
      | none => simp [hfirst, hlast] at hboth
      | some last => simp [Save.merged]
  · cases hfirst : (saves log).find? fun other => other.runId = runId with
    | none => simp [h]
    | some first => simp [h]

theorem recounted_check {id : String} {gate2 : Gate2CheckResult} {now : ℤ} :
    recounted runId (log ++ [.check id gate2 now]) =
      if id = runId then (recounted runId log).map fun row =>
        { row with gate2Check := some gate2, finishedAt := now }
      else recounted runId log := by
  unfold recounted
  rw [lastCheck_check]
  unfold firstSave lastSave
  rw [saves_check]
  by_cases h : id = runId
  · cases (saves log).find? fun other => other.runId = runId with
    | none => simp
    | some first => cases Table.lastOf Save.runId runId (saves log) <;> simp [h]
  · simp [h]

end Log

/-! ### The tables tell what the log says -/

/-- A transaction commits when the database does not fail: a save whose values fit, and a check that
finds no run of a chain with a NUL. -/
def Transaction.Commits (log : List Transaction) : Transaction → Prop
  | .run s => s.Fits
  | .check runId _ _ => ∀ last ∈ lastSave runId log, '\x00' ∉ last.config.chainId.toList

instance (log : List Transaction) (t : Transaction) : Decidable (t.Commits log) := by
  unfold Transaction.Commits
  split <;> infer_instance

/-- The transactions that are committed, in order. -/
def committed (ts : List (Transaction × Bool)) : List Transaction :=
  ts.foldl (fun log t => if t.2 = true ∧ t.1.Commits log then log ++ [t.1] else log) []

/-- The tables of a ledger are those of its log. -/
structure Recounts (column : Numeric → ℚ → ℚ) (l : Ledger) : Prop where
  runs : ∀ runId, l.tables.runs.get? runId = recounted runId l.log
  metrics : ∀ runId, l.tables.metrics.get? runId =
    (lastSave runId l.log).map fun last => metricsRow column runId last.metrics

section Runs

variable {column : Numeric → ℚ → ℚ} {l : Ledger} {runId : String} {log : List Transaction}

theorem recounted_eq_some {row : BacktestRun} (h : recounted runId log = some row) :
    row.runId = runId ∧ ∃ last, lastSave runId log = some last ∧ last.config = row.config ∧
      last.status = row.status := by
  unfold recounted at h
  split at h
  · rename_i first last hfirst hlast
    obtain rfl := Option.some_inj.mp h
    exact ⟨rfl, last, hlast, rfl, rfl⟩
  · cases h

theorem exists_recounted {last : Save} (h : lastSave runId log = some last) :
    ∃ row, recounted runId log = some row ∧ row.config = last.config := by
  have hfirst : (firstSave runId log).isSome := isSome_firstSave.mpr (by simp [h])
  obtain ⟨first, hfirst⟩ := Option.isSome_iff_exists.mp hfirst
  unfold recounted
  rw [hfirst, h]
  exact ⟨_, rfl, rfl⟩

/-- What a transaction does to the tables when it does not raise. -/
theorem perform_run (h : Recounts column l) (s : Save) :
    (s.Fits → ∃ tables, Transaction.perform column (.run s) l.tables = some tables ∧
      Recounts column ⟨tables, l.log ++ [.run s]⟩) ∧
    (¬s.Fits → Transaction.perform column (.run s) l.tables = none) := by
  refine ⟨fun hfits => ⟨_, if_pos hfits, ?_, ?_⟩, fun hfits => if_neg hfits⟩
  · intro runId
    have hkey : (s.merged (l.tables.runs.get? s.runId)).runId = s.runId := by
      cases hrow : l.tables.runs.get? s.runId with
      | none => rfl
      | some row => exact (Table.get?_eq_some.mp hrow).2
    rw [Table.get?_upsert, hkey, h.runs, h.runs, recounted_save]
    split
    · rename_i hrun
      rw [hrun]
    · rfl
  · intro runId
    rw [Table.get?_upsert, h.metrics, lastSave_run]
    show (if s.runId = runId then _ else _) = _
    split
    · rename_i hrun
      rw [← hrun]
      rfl
    · rfl

theorem perform_check (h : Recounts column l) (id : String) (gate2 : Gate2CheckResult) (now : ℤ) :
    ((∀ last ∈ lastSave id l.log, '\x00' ∉ last.config.chainId.toList) →
      ∃ tables, Transaction.perform column (.check id gate2 now) l.tables = some tables ∧
        Recounts column ⟨tables, l.log ++ [.check id gate2 now]⟩) ∧
    ((¬∀ last ∈ lastSave id l.log, '\x00' ∉ last.config.chainId.toList) →
      Transaction.perform column (.check id gate2 now) l.tables = none) := by
  have hmetrics : ∀ runId, l.tables.metrics.get? runId =
      (lastSave runId (l.log ++ [.check id gate2 now])).map fun last =>
        metricsRow column runId last.metrics := by
    intro runId
    rw [h.metrics, lastSave_check]
  show (_ → ∃ tables, saveGate2CheckResult id gate2 now l.tables = some tables ∧ _) ∧
    (_ → saveGate2CheckResult id gate2 now l.tables = none)
  unfold saveGate2CheckResult
  cases hrow : l.tables.runs.get? id with
  | none =>
    have hnone := h.runs id
    rw [hrow] at hnone
    have hlast : lastSave id l.log = none := by
      cases hlast : lastSave id l.log with
      | none => rfl
      | some last =>
        obtain ⟨row, hrecounted, -⟩ := exists_recounted hlast
        rw [hrecounted] at hnone
        cases hnone
    refine ⟨fun _ => ⟨_, rfl, fun runId => ?_, hmetrics⟩, fun hnul => ?_⟩
    · rw [h.runs, recounted_check]
      split
      · rename_i hid
        rw [← hid, ← hnone]
        rfl
      · rfl
    · exact absurd (by simp [hlast]) hnul
  | some row =>
    have hsome := h.runs id
    rw [hrow] at hsome
    obtain ⟨-, last, hlast, hconfig, -⟩ := recounted_eq_some hsome.symm
    have hchain : (∀ last ∈ lastSave id l.log, '\x00' ∉ last.config.chainId.toList) ↔
        ¬ '\x00' ∈ row.config.chainId.toList := by
      simp [hlast, hconfig]
    rw [hchain]
    refine ⟨fun hclean => ⟨_, if_neg hclean, fun runId => ?_, hmetrics⟩,
      fun hnul => if_pos (not_not.mp hnul)⟩
    rw [Table.get?_upsert, recounted_check, h.runs]
    have hrun : row.runId = id := (Table.get?_eq_some.mp hrow).2
    show (if row.runId = runId then _ else _) = _
    by_cases hid : id = runId
    · rw [if_pos (hrun.trans hid), if_pos hid, ← hid, ← hsome]
      rfl
    · rw [if_neg (hrun ▸ hid), if_neg hid]

theorem Recounts.step (h : Recounts column l) (t : Transaction × Bool) :
    Recounts column (l.step column t) ∧ (l.step column t).log =
      if t.2 = true ∧ t.1.Commits l.log then l.log ++ [t.1] else l.log := by
  obtain ⟨t, reaches⟩ := t
  unfold Ledger.step
  cases reaches with
  | false => exact ⟨h, by simp⟩
  | true =>
    have hperform : (t.Commits l.log → ∃ tables, t.perform column l.tables = some tables ∧
        Recounts column ⟨tables, l.log ++ [t]⟩) ∧
        (¬t.Commits l.log → t.perform column l.tables = none) := by
      cases t with
      | run s => exact perform_run h s
      | check runId gate2 now => exact perform_check h runId gate2 now
    simp only [if_true, true_and]
    by_cases hcommits : t.Commits l.log
    · obtain ⟨tables, hsome, hrecounts⟩ := hperform.1 hcommits
      rw [hsome, if_pos hcommits]
      exact ⟨hrecounts, rfl⟩
    · rw [hperform.2 hcommits, if_neg hcommits]
      exact ⟨h, rfl⟩

theorem ledger_recounts (column : Numeric → ℚ → ℚ) (ts : List (Transaction × Bool)) :
    Recounts column (ledger column ts) ∧ (ledger column ts).log = committed ts := by
  induction ts using List.reverseRecOn with
  | nil => exact ⟨⟨fun _ => rfl, fun _ => rfl⟩, rfl⟩
  | append_singleton ts t ih =>
    obtain ⟨hrecounts, hlog⟩ := ih
    have hstep := hrecounts.step t
    unfold ledger committed
    rw [List.foldl_append, List.foldl_append]
    refine ⟨hstep.1, hstep.2.trans ?_⟩
    rw [hlog]
    rfl

end Runs

/-! ### Listings -/

/-- The listing shows runs whose last save is of the chain, each once, with the row and the metrics
that the log tells; those made last first, and none is left out that was made after one of them. -/
structure ListingOf (column : Numeric → ℚ → ℚ) (log : List Transaction) (chainId : String)
    (limit : ℕ) (listed : List (BacktestRun × Option BacktestMetricsRow)) : Prop where
  entries : ∀ e ∈ listed, ∃ last, lastSave e.1.runId log = some last ∧
    last.config.chainId = chainId ∧ recounted e.1.runId log = some e.1 ∧
    e.2 = some (metricsRow column e.1.runId last.metrics)
  distinct : (listed.map fun e => e.1.runId).Nodup
  ordered : listed.Pairwise fun a b => b.1.createdAt ≤ a.1.createdAt
  newest : ∀ runId row, recounted runId log = some row → row.config.chainId = chainId →
    (∃ e ∈ listed, e.1 = row) ∨
      listed.length = limit ∧ ∀ e ∈ listed, row.createdAt ≤ e.1.createdAt

section Listing

variable {column : Numeric → ℚ → ℚ} {l : Ledger} {chainId : String} {limit : ℕ}
  {listed : List (BacktestRun × Option BacktestMetricsRow)}

theorem Recounts.listing (h : Recounts column l) (hlists : Lists l.tables chainId limit listed) :
    ListingOf column l.log chainId limit listed := by
  obtain ⟨ordered, hperm, hsorted, rfl⟩ := hlists
  have hmem : ∀ row ∈ ordered, row ∈ l.tables.runs.rows ∧ row.config.chainId = chainId := by
    intro row hrow
    simpa using hperm.mem_iff.mp hrow
  have hdistinct : (ordered.map BacktestRun.runId).Nodup := by
    refine ((hperm.map BacktestRun.runId).nodup_iff).mpr ?_
    exact (List.filter_sublist.map _).nodup l.tables.runs.unique
  refine ⟨?_, ?_, ?_, ?_⟩
  · intro e he
    obtain ⟨row, hrow, rfl⟩ := List.mem_map.mp he
    obtain ⟨hin, hchain⟩ := hmem row (List.mem_of_mem_take hrow)
    have hrecounted : recounted row.runId l.log = some row := by
      rw [← h.runs]
      exact Table.get?_eq_some.mpr ⟨hin, rfl⟩
    obtain ⟨-, last, hlast, hconfig, -⟩ := recounted_eq_some hrecounted
    refine ⟨last, hlast, hconfig ▸ hchain, hrecounted, ?_⟩
    rw [h.metrics, hlast]
    rfl
  · rw [List.map_map]
    exact ((List.take_sublist _ _).map _).nodup hdistinct
  · exact List.pairwise_map.mpr (hsorted.sublist (List.take_sublist _ _))
  · intro runId row hrow hchain
    have hin : row ∈ ordered := by
      refine hperm.mem_iff.mpr (List.mem_filter.mpr ⟨?_, by simpa using hchain⟩)
      rw [← h.runs] at hrow
      exact (Table.get?_eq_some.mp hrow).1
    rw [← List.take_append_drop limit ordered] at hin hsorted
    rcases List.mem_append.mp hin with hfirst | hrest
    · exact .inl ⟨_, List.mem_map_of_mem hfirst, rfl⟩
    · refine .inr ⟨?_, ?_⟩
      · have hlength := List.length_pos_of_mem hrest
        rw [List.length_drop] at hlength
        rw [List.length_map, List.length_take]
        omega
      · intro e he
        obtain ⟨other, hother, rfl⟩ := List.mem_map.mp he
        exact (List.pairwise_append.mp hsorted).2.2 other hother row hrest

end Listing

/-- After the transactions of any processes in any order, of which any may fail, each run has the
row and the metrics that its saves and checks tell, and a chain's listing shows the newest of its
runs so. -/
theorem ledger_reads_back (column : Numeric → ℚ → ℚ) (ts : List (Transaction × Bool)) :
    let tables := (ledger column ts).tables
    (∀ runId, tables.runs.get? runId = recounted runId (committed ts) ∧
      tables.metrics.get? runId = (lastSave runId (committed ts)).map fun last =>
        metricsRow column runId last.metrics) ∧
    ∀ chainId limit listed, Lists tables chainId limit listed →
      ListingOf column (committed ts) chainId limit listed := by
  obtain ⟨hrecounts, hlog⟩ := ledger_recounts column ts
  rw [← hlog]
  exact ⟨fun runId => ⟨hrecounts.runs runId, hrecounts.metrics runId⟩,
    fun _ _ _ => hrecounts.listing⟩

/-! ### The calls of one process -/

/-- How a call of a service comes to its saves: a backtest with its metrics, or a Gate2 check with
its result, the time of the second transaction and whether the database fails it. -/
inductive Outcome
  | executed (metrics : BacktestMetrics)
  | checked (gate2 : Gate2CheckResult) (later : ℤ) (reaches : Bool)

/-- A call of `_execute_backtest` or `run_gate2_check` that comes to its saves. -/
structure ServiceCall where
  config : BacktestConfig
  outcome : Outcome
  now : ℤ
  reaches : Bool

namespace ServiceCall

def status (c : ServiceCall) : RunStatus :=
  match c.outcome with
  | .executed _ => .success
  | .checked gate2 _ _ => if gate2.passed then .success else .failed

def metrics (c : ServiceCall) : BacktestMetrics :=
  match c.outcome with
  | .executed metrics => metrics
  | .checked gate2 _ _ => gate2.metrics

section Calls

variable (buildRunId : BacktestConfig → String) (column : Numeric → ℚ → ℚ)

def save (c : ServiceCall) : Save := ⟨buildRunId c.config, c.config, c.status, c.metrics, c.now⟩

/-- The save of the run is committed. -/
def Saved (c : ServiceCall) : Prop := c.reaches = true ∧ (c.save buildRunId).Fits

instance (c : ServiceCall) : Decidable (c.Saved buildRunId) := by
  unfold Saved
  infer_instance

/-- The two saves of a call follow each other in its process, and the first one to raise ends it. -/
def perform (l : Ledger) (c : ServiceCall) : Ledger :=
  if c.Saved buildRunId then
    let l := l.step column (.run (c.save buildRunId), true)
    match c.outcome with
    | .executed _ => l
    | .checked gate2 later reaches =>
      l.step column (.check (buildRunId c.config) gate2 later, reaches)
  else l

/-- The ledger after calls that come one after the other. -/
def performed (cs : List ServiceCall) : Ledger := cs.foldl (perform buildRunId column) .init

end Calls

/-- The check that a listing shows of the call. -/
def shown (c : ServiceCall) : Option Gate2CheckResult :=
  match c.outcome with
  | .executed _ => none
  | .checked gate2 _ reaches =>
    if reaches = true ∧ '\x00' ∉ c.config.chainId.toList then some gate2 else none

/-- The last call that has saved the run. -/
def lastSaved (buildRunId : BacktestConfig → String) (runId : String) (cs : List ServiceCall) :
    Option ServiceCall :=
  Table.lastOf (fun c => buildRunId c.config) runId (cs.filter fun c => c.Saved buildRunId)

/-- The row of a run is that of a call. -/
def Shows (column : Numeric → ℚ → ℚ) (tables : BacktestTables) (runId : String)
    (c : Option ServiceCall) : Prop :=
  (tables.runs.get? runId).map (fun row => (row.config, row.status, row.gate2Check)) =
      c.map (fun c => (c.config, c.status, c.shown)) ∧
    tables.metrics.get? runId = c.map fun c => metricsRow column runId c.metrics

section Shows

variable {column : Numeric → ℚ → ℚ} {buildRunId : BacktestConfig → String} {l : Ledger}
  {c : ServiceCall} {cs : List ServiceCall} {runId : String}

/-- What a listing shows of the row of a run. -/
def view (log : List Transaction) (runId : String) :
    Option (BacktestConfig × RunStatus × Option Gate2CheckResult) :=
  (recounted runId log).map fun row => (row.config, row.status, row.gate2Check)

theorem view_run (s : Save) (log : List Transaction) :
    view (log ++ [.run s]) runId =
      if s.runId = runId then some (s.config, s.status, none) else view log runId := by
  unfold view
  rw [recounted_save]
  split
  · cases recounted runId log <;> rfl
  · rfl

theorem view_check (id : String) (gate2 : Gate2CheckResult) (now : ℤ) (log : List Transaction) :
    view (log ++ [.check id gate2 now]) runId =
      if id = runId then (view log runId).map fun v => (v.1, v.2.1, some gate2)
      else view log runId := by
  unfold view
  rw [recounted_check]
  split
  · cases recounted runId log <;> rfl
  · rfl

/-- A call that saves its run leaves the log with the run as it has come out. -/
theorem log_perform (h : Recounts column l) (hsaved : c.Saved buildRunId) (runId : String) :
    Recounts column (c.perform buildRunId column l) ∧
      view (c.perform buildRunId column l).log runId =
        (if buildRunId c.config = runId then some (c.config, c.status, c.shown)
          else view l.log runId) ∧
      (lastSave runId (c.perform buildRunId column l).log).map Save.metrics =
        if buildRunId c.config = runId then some c.metrics
        else (lastSave runId l.log).map Save.metrics := by
  obtain ⟨hrecounts, hlog⟩ := h.step (.run (c.save buildRunId), true)
  rw [if_pos ⟨rfl, hsaved.2⟩] at hlog
  have hview : view (l.step column (.run (c.save buildRunId), true)).log runId =
      if buildRunId c.config = runId then some (c.config, c.status, none)
      else view l.log runId := by
    rw [hlog, view_run]
    rfl
  have hlast : lastSave runId (l.step column (.run (c.save buildRunId), true)).log =
      if buildRunId c.config = runId then some (c.save buildRunId) else lastSave runId l.log := by
    rw [hlog, lastSave_run]
    rfl
  have hmetrics : (lastSave runId (l.step column (.run (c.save buildRunId), true)).log).map
      Save.metrics = if buildRunId c.config = runId then some c.metrics
        else (lastSave runId l.log).map Save.metrics := by
    rw [hlast]
    split
    · rfl
    · rfl
  rw [perform, if_pos hsaved]
  cases hout : c.outcome with
  | executed metrics =>
    have hshown : c.shown = none := by simp [shown, hout]
    rw [hshown]
    exact ⟨hrecounts, hview, hmetrics⟩
  | checked gate2 later reaches =>
    obtain ⟨hrecounts', hlog'⟩ :=
      hrecounts.step (.check (buildRunId c.config) gate2 later, reaches)
    have hown : lastSave (buildRunId c.config)
        (l.step column (.run (c.save buildRunId), true)).log = some (c.save buildRunId) := by
      rw [hlog, lastSave_run]
      exact if_pos rfl
    have hcommits : reaches = true ∧ Transaction.Commits
        (l.step column (.run (c.save buildRunId), true)).log
        (.check (buildRunId c.config) gate2 later) ↔
        reaches = true ∧ '\x00' ∉ c.config.chainId.toList := by
      refine and_congr_right fun _ => ⟨fun h => h _ hown, fun hclean last hlast => ?_⟩
      rw [hown] at hlast
      cases hlast
      exact hclean
    refine ⟨hrecounts', ?_, ?_⟩
    · rw [hlog']
      by_cases hreaches : reaches = true ∧ '\x00' ∉ c.config.chainId.toList
      · have hshown : c.shown = some gate2 := by simp [shown, hout, hreaches]
        rw [if_pos (hcommits.mpr hreaches), view_check, hview, hshown]
        split
        · rfl
        · rfl
      · have hshown : c.shown = none := by
          simp only [shown, hout]
          exact if_neg hreaches
        rw [if_neg (mt hcommits.mp hreaches), hview, hshown]
    · rw [hlog']
      split
      · rw [lastSave_check, hmetrics]
      · exact hmetrics

theorem lastSaved_concat : lastSaved buildRunId runId (cs ++ [c]) =
    if c.Saved buildRunId ∧ buildRunId c.config = runId then some c
    else lastSaved buildRunId runId cs := by
  unfold lastSaved
  rw [List.filter_append, Table.lastOf_append]
  by_cases hsaved : c.Saved buildRunId
  · rw [List.filter_singleton, decide_eq_true hsaved, cond_true, Table.lastOf_singleton]
    by_cases hid : buildRunId c.config = runId
    · rw [if_pos hid, if_pos ⟨hsaved, hid⟩]
      rfl
    · rw [if_neg hid, if_neg (fun h => hid h.2)]
      rfl
  · rw [List.filter_singleton, decide_eq_false hsaved, cond_false,
      if_neg (fun h => hsaved h.1)]
    rfl

theorem performed_recounts (column : Numeric → ℚ → ℚ) (buildRunId : BacktestConfig → String)
    (cs : List ServiceCall) :
    Recounts column (performed buildRunId column cs) ∧ ∀ runId,
      view (performed buildRunId column cs).log runId =
        (lastSaved buildRunId runId cs).map (fun c => (c.config, c.status, c.shown)) ∧
      (lastSave runId (performed buildRunId column cs).log).map Save.metrics =
        (lastSaved buildRunId runId cs).map metrics := by
  induction cs using List.reverseRecOn with
  | nil => exact ⟨⟨fun _ => rfl, fun _ => rfl⟩, fun _ => ⟨rfl, rfl⟩⟩
  | append_singleton cs c ih =>
    obtain ⟨hrecounts, hshown⟩ := ih
    have hstep : performed buildRunId column (cs ++ [c]) =
        c.perform buildRunId column (performed buildRunId column cs) := by
      simp [performed]
    rw [hstep]
    by_cases hsaved : c.Saved buildRunId
    · refine ⟨(log_perform hrecounts hsaved "").1, fun runId => ?_⟩
      obtain ⟨-, hview, hmetrics⟩ := log_perform hrecounts hsaved runId
      rw [hview, hmetrics, lastSaved_concat, (hshown runId).1, (hshown runId).2]
      by_cases hid : buildRunId c.config = runId
      · simp [hid, hsaved]
      · simp [hid]
    · have hsame : c.perform buildRunId column (performed buildRunId column cs) =
          performed buildRunId column cs := if_neg hsaved
      rw [hsame]
      refine ⟨hrecounts, fun runId => ?_⟩
      rw [lastSaved_concat, if_neg (fun h => hsaved h.1)]
      exact hshown runId

end Shows

/-- When the calls come one after the other, the row and the metrics of a run are those of the last
call that has saved it, whole: its config, its status and its metrics, and its Gate2 result just
when it is a check whose second transaction is committed. -/
theorem calls_shown (buildRunId : BacktestConfig → String) (column : Numeric → ℚ → ℚ)
    (cs : List ServiceCall) (runId : String) :
    Shows column (performed buildRunId column cs).tables runId
      (lastSaved buildRunId runId cs) := by
  obtain ⟨hrecounts, hshown⟩ := performed_recounts column buildRunId cs
  refine ⟨?_, ?_⟩
  · rw [hrecounts.runs]
    exact (hshown runId).1
  · rw [hrecounts.metrics]
    have hmetrics := congrArg (Option.map (metricsRow column runId)) (hshown runId).2
    rwa [Option.map_map, Option.map_map] at hmetrics

end ServiceCall

end ChainMonitor.Backtest
