import ChainMonitor.ProofKit.Metric
import ChainMonitor.Scanner.AnalysisLog
import ChainMonitor.Scanner.EventStream

/-! The handlers of `scanner/handlers.py`, subscribed as `main` of `scanner/__main__.py` does it,
and that what they show of a run agrees. -/

namespace ChainMonitor.Observers

open ProofKit EventBus
open Orchestrator (CycleInput Job Output intervalText)

/-! ### The handlers -/

def chainBuckets : List ℚ := [1, 5, 10, 15, 20, 30, 45, 60, 90, 120]
def trendingBuckets : List ℚ := [1 / 2, 1, 2, 3, 5, 8, 10, 15, 20, 30]
def securityBuckets : List ℚ := [1 / 10, 3 / 10, 1 / 2, 1, 2, 3, 5]

/-- `ScannerMetrics`, each metric by its labels. -/
structure ScannerMetrics where
  chainDuration : Metric.Histograms (String × String) chainBuckets
  trendingDuration : Metric.Histograms (String × String) trendingBuckets
  trendingTokens : Metric.Counters String
  securityDuration : Metric.Histograms String securityBuckets
  securityChecks : Metric.Counters (String × String)

def ScannerMetrics.init : ScannerMetrics :=
  ⟨Dict.empty, Dict.empty, Dict.empty, Dict.empty, Dict.empty⟩

/-- What `MetricsHandler` does with an event. -/
def ScannerMetrics.handle (m : ScannerMetrics) : Output → ScannerMetrics
  | .trendingFetched chain interval tokenCount durationMs _ => { m with
      trendingDuration :=
        Metric.observe (chain, intervalText interval) (durationMs / 1000) m.trendingDuration
      trendingTokens := Metric.inc chain tokenCount m.trendingTokens }
  | .tokenSecurityChecked chain _ _ durationMs success => { m with
      securityDuration := Metric.observe chain (durationMs / 1000) m.securityDuration
      securityChecks := Metric.inc (chain, if success then "ok" else "fail") 1 m.securityChecks }
  | .chainScanCompleted chain interval totalDurationMs _ _ => { m with
      chainDuration :=
        Metric.observe (chain, intervalText interval) (totalDurationMs / 1000) m.chainDuration }
  | .tokenProcessed _ => m
  | .alert .. => m

/-- What the handlers read of the world: how texts are written, whether the database takes the n-th
insert that it is sent, and the day on which the n-th line is written. -/
structure Env where
  reasonText : Detector.FilterReason → String
  isoformat : ℚ → String
  str : ℚ → String
  repr : Float → List Char
  connects : ℕ → Bool
  today : ℕ → String

/-- What the handlers leave: the metrics, the records of the log, the table, which has been sent so
many inserts, and the files, which have been sent so many lines. -/
structure Recorded where
  metrics : ScannerMetrics
  log : List PyValue
  table : List Analyze.ResultRow
  attempts : ℕ
  file : Analyze.FileEventHandler
  writes : ℕ

def Recorded.init : Recorded := ⟨.init, [], [], 0, .init, 0⟩

inductive Failure
  | database
  deriving DecidableEq

def metricsHandler : EventHandler Event Recorded Failure := fun event =>
  modify fun r => { r with metrics := r.metrics.handle event.output }

section Handlers

variable (env : Env)

/-- A handler of `TokenProcessed`. -/
def onRow (handle : Analyze.TokenProcessed → Act Recorded Failure Unit) :
    EventHandler Event Recorded Failure := fun event =>
  match event.output with
  | .tokenProcessed row => handle (Analyze.declared env.reasonText row)
  | _ => pure ()

def structuredLogHandler (e : Analyze.TokenProcessed) : Act Recorded Failure Unit :=
  modify fun r => { r with log := r.log ++ [Analyze.asdict env.isoformat e] }

/-- The row that the n-th insert leaves in the table. -/
def stored (n : ℕ) (e : Analyze.TokenProcessed) : Option Analyze.ResultRow :=
  if env.connects n then Analyze.insert e else none

/-- The transaction commits with the row, or the insert raises. -/
def commit : Option Analyze.ResultRow → Act Recorded Failure Unit
  | some row => modify fun r => { r with table := r.table ++ [row] }
  | none => throw .database

def databaseEventHandler (e : Analyze.TokenProcessed) : Act Recorded Failure Unit := do
  let r ← get
  set { r with attempts := r.attempts + 1 }
  commit (stored env r.attempts e)

def fileEventHandler (e : Analyze.TokenProcessed) : Act Recorded Failure Unit :=
  modify fun r => { r with
    file := r.file.perform env.str env.repr (.event (env.today r.writes) e)
    writes := r.writes + 1 }

def systemEventTypes : List EventType :=
  [.trendingFetched, .tokenSecurityChecked, .chainScanCompleted]

def strategyEventTypes : List EventType := [.tokenProcessed]

/-- The bus of `main`. -/
def main : Bus Recorded Failure :=
  let bus := systemEventTypes.foldl (fun bus et => bus.subscribe et metricsHandler) EventBus.init
  strategyEventTypes.foldl (fun bus et =>
    ((bus.subscribe et (onRow env (structuredLogHandler env))).subscribe et
      (onRow env (databaseEventHandler env))).subscribe et (onRow env (fileEventHandler env))) bus

/-- What the handlers leave after the events. -/
def replay (es : List Event) : Recorded :=
  es.foldl (fun r event => (main env).react Event.type event r) .init

end Handlers

/-! ### What an event changes -/

variable {env : Env}

/-- What the handlers do with one event. -/
def Recorded.after (env : Env) (r : Recorded) (out : Output) : Recorded :=
  match out with
  | .tokenProcessed row =>
    let e := Analyze.declared env.reasonText row
    { metrics := r.metrics
      log := r.log ++ [Analyze.asdict env.isoformat e]
      table := r.table ++ (stored env r.attempts e).toList
      attempts := r.attempts + 1
      file := r.file.perform env.str env.repr (.event (env.today r.writes) e)
      writes := r.writes + 1 }
  | out => { r with metrics := r.metrics.handle out }

theorem handlersOf_main (t : EventType) : (main env).handlersOf t =
    if t = .tokenProcessed then [onRow env (structuredLogHandler env),
      onRow env (databaseEventHandler env), onRow env (fileEventHandler env)]
    else [metricsHandler] := by
  cases t <;> rfl

theorem databaseEventHandler_from (env : Env) (e : Analyze.TokenProcessed) (r : Recorded) :
    ((databaseEventHandler env e).from r).2 = { r with
      attempts := r.attempts + 1
      table := r.table ++ (stored env r.attempts e).toList } := by
  show ((commit (stored env r.attempts e)).from { r with attempts := r.attempts + 1 }).2 = _
  cases stored env r.attempts e with
  | some row => rfl
  | none =>
    show _ = { r with attempts := r.attempts + 1, table := r.table ++ [] }
    rw [List.append_nil]
    rfl

theorem react_main (event : Event) (r : Recorded) :
    (main env).react Event.type event r = r.after env event.output := by
  obtain ⟨out, hout⟩ := event
  rw [react, handlersOf_main]
  cases out with
  | trendingFetched chain interval tokenCount durationMs success => rfl
  | tokenSecurityChecked chain address symbol durationMs success => rfl
  | chainScanCompleted chain interval totalDurationMs tokenCount signalCount => rfl
  | alert sig sentAt => cases hout
  | tokenProcessed row =>
    have hdatabase := databaseEventHandler_from env (Analyze.declared env.reasonText row)
    show ((fileEventHandler env _).from
      ((databaseEventHandler env _).from ((structuredLogHandler env _).from r).2).2).2 = _
    rw [hdatabase]
    rfl

/-! ### What the handlers show of a stream of events -/

/-- The tokens that the event reports as fetched for the chain. -/
def fetchedTokens (chain : String) (event : Event) : ℕ :=
  match event.output with
  | .trendingFetched c _ tokenCount .. => if c = chain then tokenCount else 0
  | _ => 0

/-- One for a row of the chain. -/
def rowCount (chain : String) (event : Event) : ℕ :=
  match event.output with
  | .tokenProcessed row => if row.chain = chain then 1 else 0
  | _ => 0

/-- One for a security check of the chain. -/
def checkCount (chain : String) (event : Event) : ℕ :=
  match event.output with
  | .tokenSecurityChecked c .. => if c = chain then 1 else 0
  | _ => 0

/-- One for a fetch of the chain and the interval. -/
def fetchCount (labels : String × String) (event : Event) : ℕ :=
  match event.output with
  | .trendingFetched c interval .. => if (c, intervalText interval) = labels then 1 else 0
  | _ => 0

/-- One for a scan of the chain and the interval that has completed. -/
def completedCount (labels : String × String) (event : Event) : ℕ :=
  match event.output with
  | .chainScanCompleted c interval .. => if (c, intervalText interval) = labels then 1 else 0
  | _ => 0

/-- The event as `TokenProcessed` declares it. -/
def declared? (env : Env) (event : Event) : Option Analyze.TokenProcessed :=
  match event.output with
  | .tokenProcessed row => some (Analyze.declared env.reasonText row)
  | _ => none

/-- The `TokenProcessed` events. -/
def declaredRows (env : Env) (es : List Event) : List Analyze.TokenProcessed :=
  es.filterMap (declared? env)

theorem replay_eq (es : List Event) :
    replay env es = es.foldl (fun r event => r.after env event.output) .init := by
  simp only [replay, react_main]

/-- What each event adds to a measure of what the handlers leave, the events add in all. -/
theorem measure_replay {g : Recorded → ℕ} {w : Event → ℕ} (hinit : g .init = 0)
    (h : ∀ r (event : Event), g (r.after env event.output) = g r + w event) (es : List Event) :
    g (replay env es) = (es.map w).sum := by
  rw [replay_eq, Metric.foldl_add h, hinit, Nat.zero_add]

theorem value_trendingTokens (chain : String) (es : List Event) :
    Metric.value (replay env es).metrics.trendingTokens chain =
      (es.map (fetchedTokens chain)).sum := by
  apply measure_replay (g := fun r => Metric.value r.metrics.trendingTokens chain) rfl
  rintro r ⟨out, hout⟩
  cases out with
  | trendingFetched c interval tokenCount durationMs success => exact Metric.value_inc
  | tokenSecurityChecked c address symbol durationMs success => rfl
  | chainScanCompleted c interval totalDurationMs tokenCount signalCount => rfl
  | alert sig sentAt => cases hout
  | tokenProcessed row => rfl

theorem count_trendingDuration (labels : String × String) (es : List Event) :
    Metric.count (replay env es).metrics.trendingDuration labels =
      (es.map (fetchCount labels)).sum := by
  apply measure_replay (g := fun r => Metric.count r.metrics.trendingDuration labels)
    Metric.Histogram.count_empty
  rintro r ⟨out, hout⟩
  cases out with
  | trendingFetched c interval tokenCount durationMs success => exact Metric.count_observe
  | tokenSecurityChecked c address symbol durationMs success => rfl
  | chainScanCompleted c interval totalDurationMs tokenCount signalCount => rfl
  | alert sig sentAt => cases hout
  | tokenProcessed row => rfl

theorem count_chainDuration (labels : String × String) (es : List Event) :
    Metric.count (replay env es).metrics.chainDuration labels =
      (es.map (completedCount labels)).sum := by
  apply measure_replay (g := fun r => Metric.count r.metrics.chainDuration labels)
    Metric.Histogram.count_empty
  rintro r ⟨out, hout⟩
  cases out with
  | trendingFetched c interval tokenCount durationMs success => rfl
  | tokenSecurityChecked c address symbol durationMs success => rfl
  | chainScanCompleted c interval totalDurationMs tokenCount signalCount =>
    exact Metric.count_observe
  | alert sig sentAt => cases hout
  | tokenProcessed row => rfl

theorem count_securityDuration (chain : String) (es : List Event) :
    Metric.count (replay env es).metrics.securityDuration chain =
      (es.map (checkCount chain)).sum := by
  apply measure_replay (g := fun r => Metric.count r.metrics.securityDuration chain)
    Metric.Histogram.count_empty
  rintro r ⟨out, hout⟩
  cases out with
  | trendingFetched c interval tokenCount durationMs success => rfl
  | tokenSecurityChecked c address symbol durationMs success => exact Metric.count_observe
  | chainScanCompleted c interval totalDurationMs tokenCount signalCount => rfl
  | alert sig sentAt => cases hout
  | tokenProcessed row => rfl

/-- Each check counts as one that went well or as one that failed. -/
theorem value_securityChecks (chain : String) (es : List Event) :
    Metric.value (replay env es).metrics.securityChecks (chain, "ok") +
        Metric.value (replay env es).metrics.securityChecks (chain, "fail") =
      (es.map (checkCount chain)).sum := by
  apply measure_replay (g := fun r => Metric.value r.metrics.securityChecks (chain, "ok") +
    Metric.value r.metrics.securityChecks (chain, "fail")) rfl
  rintro r ⟨out, hout⟩
  cases out with
  | trendingFetched c interval tokenCount durationMs success => rfl
  | chainScanCompleted c interval totalDurationMs tokenCount signalCount => rfl
  | alert sig sentAt => cases hout
  | tokenProcessed row => rfl
  | tokenSecurityChecked c address symbol durationMs success =>
    show Metric.value (Metric.inc _ 1 _) _ + Metric.value (Metric.inc _ 1 _) _ = _
    rw [Metric.value_inc, Metric.value_inc]
    by_cases hc : c = chain
    · cases success <;> simp [checkCount, hc] <;> omega
    · simp [checkCount, hc]

/-- What the handlers of the rows leave after the events. -/
structure Replayed (env : Env) (rows : List Analyze.TokenProcessed) (r : Recorded) : Prop where
  log : r.log = rows.map (Analyze.asdict env.isoformat)
  table : r.table = rows.zipIdx.filterMap fun row => stored env row.2 row.1
  attempts : r.attempts = rows.length
  file : r.file = Analyze.logged env.str env.repr
    (rows.zipIdx.map fun row => .event (env.today row.2) row.1)
  writes : r.writes = rows.length

theorem Replayed.concat {rows : List Analyze.TokenProcessed} {r : Recorded}
    (h : Replayed env rows r) (row : Orchestrator.TokenProcessed) :
    Replayed env (rows ++ [Analyze.declared env.reasonText row])
      (r.after env (.tokenProcessed row)) := by
  refine ⟨?_, ?_, ?_, ?_, ?_⟩
  · simp [Recorded.after, h.log]
  · simp only [Recorded.after, h.table, h.attempts, List.zipIdx_append, List.filterMap_append,
      Nat.zero_add, List.zipIdx_singleton]
    cases hs : stored env rows.length (Analyze.declared env.reasonText row) <;> simp [hs]
  · simp [Recorded.after, h.attempts]
  · simp only [Recorded.after, h.file, h.writes, List.zipIdx_append, List.map_append,
      Nat.zero_add, List.zipIdx_singleton, List.map_singleton]
    exact (Analyze.logged_concat _ _).symm
  · simp [Recorded.after, h.writes]

theorem Replayed.metrics {rows : List Analyze.TokenProcessed} {r : Recorded}
    (h : Replayed env rows r) (m : ScannerMetrics) :
    Replayed env (rows ++ []) { r with metrics := m } := by
  rw [List.append_nil]
  exact ⟨h.log, h.table, h.attempts, h.file, h.writes⟩

theorem replayed (es : List Event) : Replayed env (declaredRows env es) (replay env es) := by
  induction es using List.reverseRecOn with
  | nil => exact ⟨rfl, rfl, rfl, rfl, rfl⟩
  | append_singleton es event ih =>
    have hstep : replay env (es ++ [event]) = (replay env es).after env event.output := by
      rw [replay_eq, replay_eq, List.foldl_append]
      rfl
    rw [hstep, declaredRows, List.filterMap_append]
    obtain ⟨out, hout⟩ := event
    cases out with
    | trendingFetched c interval tokenCount durationMs success => exact ih.metrics _
    | tokenSecurityChecked c address symbol durationMs success => exact ih.metrics _
    | chainScanCompleted c interval totalDurationMs tokenCount signalCount => exact ih.metrics _
    | alert sig sentAt => cases hout
    | tokenProcessed row => exact ih.concat row

/-! ### What a scan may publish -/

section Scanned

variable {job : Job} {es : List Event}

theorem length_securityTasks_le (seen : List String) (tokens : List Detector.TrendingToken) :
    (Orchestrator.securityTasks seen tokens).length ≤ tokens.length := by
  induction tokens generalizing seen with
  | nil => exact Nat.le_refl _
  | cons t ts ih =>
    have hrest := ih (t.address :: seen)
    have hsame := ih seen
    rw [Orchestrator.securityTasks]
    split
    · rw [List.length_cons]
      omega
    · split
      · rw [List.length_cons, List.length_cons]
        omega
      · rw [List.length_cons]
        omega

theorem length_rows_le {tokens : List Detector.TrendingToken}
    {rows : List Orchestrator.TokenProcessed}
    (h : List.Forall₂ (RowOf job) (tokens.take rows.length) rows) :
    rows.length ≤ tokens.length := by
  have hlength := h.length_eq
  rw [List.length_take] at hlength
  omega

theorem chain_of_rows {tokens : List Detector.TrendingToken}
    {rows : List Orchestrator.TokenProcessed} (h : List.Forall₂ (RowOf job) tokens rows) :
    ∀ row ∈ rows, row.chain = job.chain := by
  intro row hrow
  obtain ⟨token, -, hof⟩ := forall₂_mem_left h.flip hrow
  exact hof.chain

theorem sum_map_le {w : Event → ℕ} {n : ℕ} {es : List Event} (h : ∀ e ∈ es, w e ≤ n) :
    (es.map w).sum ≤ n * es.length := by
  have hsum := List.sum_le_card_nsmul (es.map w) n (by simpa using h)
  rw [List.length_map] at hsum
  exact hsum.trans_eq (Nat.mul_comm es.length n)

/-- What a scan spends after its fetch, when a check spends at most `a`, a row at most `b` and the
end of the scan at most `c`. -/
theorem Scanned.sum_le (h : Scanned job es) {w : Event → ℕ} {a b c : ℕ}
    (hchecks : ∀ task risk, w (checkedEvent job task risk) ≤ a)
    (hrows : ∀ row, row.chain = job.chain → w (rowEvent row) ≤ b)
    (hcompleted : ∀ ms tokens signals, w (completedEvent job ms tokens signals) ≤ c) :
    es = [] ∨ ∃ tokens rest, es = fetchedEvent job tokens :: rest ∧
      (rest.map w).sum ≤ a * tokens.length + b * tokens.length + c := by
  cases h with
  | raised hf | missing hf => exact .inl rfl
  | @fetched tokens checks rows completed hf hchecked hall _ =>
    refine .inr ⟨tokens, checks ++ rows.map rowEvent ++
      (completed.map fun c => completedEvent job c.1 tokens.length c.2).toList, rfl, ?_⟩
    have hfirst : (checks.map w).sum ≤ a * tokens.length := by
      rcases hchecked with ⟨rfl, -⟩ | rfl
      · exact Nat.zero_le _
      · have hevents : ∀ e ∈ (Orchestrator.securityTasks [] tokens).filterMap (checkedEvent? job),
            w e ≤ a := by
          intro e he
          obtain ⟨task, -, he⟩ := List.mem_filterMap.mp he
          unfold checkedEvent? at he
          split at he
          · cases he
          · obtain rfl := Option.some_inj.mp he
            exact hchecks task _
        refine (sum_map_le hevents).trans (Nat.mul_le_mul_left a ?_)
        exact (List.length_filterMap_le _ _).trans (length_securityTasks_le [] tokens)
    have hsecond : ((rows.map rowEvent).map w).sum ≤ b * tokens.length := by
      have hevents : ∀ e ∈ rows.map rowEvent, w e ≤ b := by
        intro e he
        obtain ⟨row, hrow, rfl⟩ := List.mem_map.mp he
        exact hrows row (chain_of_rows hall row hrow)
      refine (sum_map_le hevents).trans (Nat.mul_le_mul_left b ?_)
      rw [List.length_map]
      exact length_rows_le hall
    have hlast : (((completed.map fun c => completedEvent job c.1 tokens.length c.2).toList).map
        w).sum ≤ c := by
      cases completed with
      | none => exact Nat.zero_le _
      | some last => simpa using hcompleted last.1 tokens.length last.2
    simp only [List.map_append, List.sum_append]
    omega

/-- No beginning of a scan has more rows than tokens fetched. -/
theorem Scanned.rows_solvent (h : Scanned job es) (chain : String) :
    Metric.Solvent (fetchedTokens chain) (rowCount chain) es := by
  have hsum := h.sum_le (w := rowCount chain) (a := 0) (c := 0)
    (b := if job.chain = chain then 1 else 0) (fun _ _ => Nat.le_refl 0)
    (fun row hrow => by simp [rowCount, rowEvent, hrow]) fun _ _ _ => Nat.le_refl 0
  rcases hsum with rfl | ⟨tokens, rest, rfl, hrest⟩
  · exact Metric.solvent_nil
  · apply Metric.solvent_cons
    rw [List.map_cons, List.sum_cons]
    by_cases hc : job.chain = chain
    · simp only [fetchedTokens, rowCount, fetchedEvent, hc, if_true] at hrest ⊢
      omega
    · simp only [fetchedTokens, rowCount, fetchedEvent, if_neg hc] at hrest ⊢
      omega

/-- Nor more security checks. -/
theorem Scanned.checks_solvent (h : Scanned job es) (chain : String) :
    Metric.Solvent (fetchedTokens chain) (checkCount chain) es := by
  have hsum := h.sum_le (w := checkCount chain) (b := 0) (c := 0)
    (a := if job.chain = chain then 1 else 0) (fun _ _ => Nat.le_refl _)
    (fun _ _ => Nat.le_refl 0) fun _ _ _ => Nat.le_refl 0
  rcases hsum with rfl | ⟨tokens, rest, rfl, hrest⟩
  · exact Metric.solvent_nil
  · apply Metric.solvent_cons
    rw [List.map_cons, List.sum_cons]
    by_cases hc : job.chain = chain
    · simp only [fetchedTokens, checkCount, fetchedEvent, hc, if_true] at hrest ⊢
      omega
    · simp only [fetchedTokens, checkCount, fetchedEvent, if_neg hc] at hrest ⊢
      omega

/-- A scan completes after its fetch. -/
theorem Scanned.completed_solvent (h : Scanned job es) (labels : String × String) :
    Metric.Solvent (fetchCount labels) (completedCount labels) es := by
  have hsum := h.sum_le (w := completedCount labels) (a := 0) (b := 0)
    (c := if (job.chain, intervalText job.interval) = labels then 1 else 0)
    (fun _ _ => Nat.le_refl 0) (fun _ _ => Nat.le_refl 0) fun _ _ _ => Nat.le_refl _
  rcases hsum with rfl | ⟨tokens, rest, rfl, hrest⟩
  · exact Metric.solvent_nil
  · apply Metric.solvent_cons
    rw [List.map_cons, List.sum_cons]
    by_cases hc : (job.chain, intervalText job.interval) = labels
    · simp only [fetchCount, completedCount, fetchedEvent, hc, if_true] at hrest ⊢
      omega
    · simp only [fetchCount, completedCount, fetchedEvent, if_neg hc] at hrest ⊢
      omega

end Scanned

/-! ### What the handlers show of a run -/

theorem countP_declaredRows (chain : String) (es : List Event) :
    (declaredRows env es).countP (fun e => e.chain = chain) = (es.map (rowCount chain)).sum := by
  induction es with
  | nil => rfl
  | cons event es ih =>
    obtain ⟨out, hout⟩ := event
    rw [List.map_cons, List.sum_cons, ← ih]
    cases out with
    | trendingFetched c interval tokenCount durationMs success => exact (Nat.zero_add _).symm
    | tokenSecurityChecked c address symbol durationMs success => exact (Nat.zero_add _).symm
    | chainScanCompleted c interval totalDurationMs tokenCount signalCount =>
      exact (Nat.zero_add _).symm
    | alert sig sentAt => cases hout
    | tokenProcessed row =>
      have hcons : declaredRows env (⟨.tokenProcessed row, hout⟩ :: es) =
          Analyze.declared env.reasonText row :: declaredRows env es := rfl
      have hchain : (Analyze.declared env.reasonText row).chain = row.chain := rfl
      rw [hcons, List.countP_cons, hchain, rowCount, Nat.add_comm]
      simp

/-- The table has no more rows of a chain than have been processed. -/
theorem countP_stored_le (chain : String) (rows : List Analyze.TokenProcessed) :
    (rows.zipIdx.filterMap fun row => stored env row.2 row.1).countP (fun r => r.chain = chain) ≤
      rows.countP fun e => e.chain = chain := by
  have hfst : rows.countP (fun e => e.chain = chain) =
      rows.zipIdx.countP fun row => row.1.chain = chain := by
    conv_lhs => rw [← List.zipIdx_map_fst 0 rows, List.countP_map]
    rfl
  rw [hfst, List.countP_filterMap]
  apply List.countP_mono_left
  intro row _ hrow
  unfold stored Analyze.insert at hrow
  split at hrow
  · split at hrow
    · simpa using hrow
    · cases hrow
  · cases hrow

/-- The log, the table, the files and the metrics tell the same of the rows: each has its record and
its line, and its table row if the database has taken it; no more rows than tokens have been
fetched; the checks that went well or failed are those that were timed, no more than there are
tokens; and no more scans have completed than have fetched. -/
structure Agree (env : Env) (rows : List Analyze.TokenProcessed) (r : Recorded) : Prop where
  log : r.log = rows.map (Analyze.asdict env.isoformat)
  file : r.file = Analyze.logged env.str env.repr
    (rows.zipIdx.map fun row => .event (env.today row.2) row.1)
  table : r.table = rows.zipIdx.filterMap fun row => stored env row.2 row.1
  inserted : ∀ chain, r.table.countP (fun row => row.chain = chain) ≤
    rows.countP fun e => e.chain = chain
  processed : ∀ chain, rows.countP (fun e => e.chain = chain) ≤
    Metric.value r.metrics.trendingTokens chain
  timed : ∀ chain, Metric.value r.metrics.securityChecks (chain, "ok") +
      Metric.value r.metrics.securityChecks (chain, "fail") =
    Metric.count r.metrics.securityDuration chain
  checked : ∀ chain, Metric.count r.metrics.securityDuration chain ≤
    Metric.value r.metrics.trendingTokens chain
  completed : ∀ labels, Metric.count r.metrics.chainDuration labels ≤
    Metric.count r.metrics.trendingDuration labels

theorem agree_of_scanned {jobs : List Job} {streams : List (List Event)}
    (h : List.Forall₂ Scanned jobs streams) {seen : List Event}
    (hseen : seen <+: streams.flatten) : Agree env (declaredRows env seen) (replay env seen) := by
  have hscanned : ∀ es ∈ streams, ∃ job, Scanned job es := by
    intro es hes
    obtain ⟨job, -, hjob⟩ := forall₂_mem_left h.flip hes
    exact ⟨job, hjob⟩
  have hrows : Replayed env (declaredRows env seen) (replay env seen) := replayed seen
  refine ⟨hrows.log, hrows.file, hrows.table, ?_, ?_, ?_, ?_, ?_⟩
  · intro chain
    rw [hrows.table]
    exact countP_stored_le chain _
  · intro chain
    rw [countP_declaredRows, value_trendingTokens]
    refine Metric.Solvent.flatten (fun es hes => ?_) seen hseen
    obtain ⟨job, hjob⟩ := hscanned es hes
    exact hjob.rows_solvent chain
  · intro chain
    rw [value_securityChecks, count_securityDuration]
  · intro chain
    rw [count_securityDuration, value_trendingTokens]
    refine Metric.Solvent.flatten (fun es hes => ?_) seen hseen
    obtain ⟨job, hjob⟩ := hscanned es hes
    exact hjob.checks_solvent chain
  · intro labels
    rw [count_chainDuration, count_trendingDuration]
    refine Metric.Solvent.flatten (fun es hes => ?_) seen hseen
    obtain ⟨job, hjob⟩ := hscanned es hes
    exact hjob.completed_solvent labels

/-- Whatever fails in the cycles, and whenever the database is away, what the handlers of `main`
show agrees after each event. -/
theorem handlers_agree (env : Env) (o : Orchestrator.ScannerOrchestrator) (last1hRun : ℚ)
    (m : Cooldown.CooldownManager) (cs : List CycleInput) :
    let w := ((runCycles (main env) o cs).from (⟨last1hRun, m, []⟩, ⟨.init, []⟩)).2
    w.2.state = replay env (events w.1.effects) ∧ ∀ seen, seen <+: events w.1.effects →
      Agree env (declaredRows env seen) (replay env seen) := by
  obtain ⟨w, streams, hrun, htold, hall⟩ := runCycles_told (main env) o cs
    (⟨last1hRun, m, []⟩, ⟨.init, []⟩)
  have hevents : events w.1.effects = streams.flatten := htold.events
  rw [hrun]
  refine ⟨?_, ?_⟩
  · rw [hevents]
    exact htold.state
  · intro seen hseen
    rw [hevents] at hseen
    exact agree_of_scanned hall hseen

end ChainMonitor.Observers
