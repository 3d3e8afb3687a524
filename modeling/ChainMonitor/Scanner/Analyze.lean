import ChainMonitor.ProofKit.Decimal
import ChainMonitor.ProofKit.PyFloat
import ChainMonitor.Scanner.ResultRows

/-! `ScannerAnalyzer` of `scanner/analyze.py`: the ten sections of its report. What a query reads is
the rows of the period, `WHERE scanned_at >= :since`. Floats are their exact values. -/

namespace ChainMonitor.Analyze

open ProofKit

/-- A query or the Python code around it raises. -/
inductive AnalyzeError
  | integerOutOfRange
  | python (e : PyError)
  deriving DecidableEq

/-- The analyzer, and two settings of the database session: the offset of its time zone from UTC at
an instant, and its order of texts. -/
structure ScannerAnalyzer where
  since : ℚ
  zone : ℚ → ℚ
  collate : String → String → Bool

/-! ### Values -/

def int (n : ℤ) : Except AnalyzeError ℤ := Sql.toInt .integerOutOfRange n

/-- `float(x)`. -/
def float : Option ℚ → Except AnalyzeError ℚ
  | some x => .ok x
  | none => .error (.python .typeError)

/-- `float(x) if x else 0.0`. -/
def floatOrZero (x : Option ℚ) : ℚ := x.getD 0

/-- `round(part / total * 100, 1)`. -/
def percent (part total : ℤ) : Except AnalyzeError ℚ :=
  if total = 0 then .error (.python .zeroDivisionError) else .ok (roundTo 1 (part / total * 100))

/-- `percent`, where there is something to divide by. -/
def percentOrZero (part total : ℤ) : Except AnalyzeError ℚ :=
  if total = 0 then .ok 0 else percent part total

/-- `COUNT(*) FILTER (WHERE p)::int`. -/
def count (p : ResultRow → Bool) (rows : List ResultRow) : Except AnalyzeError ℤ :=
  int (rows.countP p)

def countAll (rows : List ResultRow) : Except AnalyzeError ℤ := count (fun _ => true) rows

/-- `COUNT(DISTINCT f)::int`. -/
def countDistinct {κ : Type} [DecidableEq κ] (f : ResultRow → κ) (rows : List ResultRow) :
    Except AnalyzeError ℤ :=
  int (rows.map f).dedup.length

/-- `ROUND(COUNT(*) FILTER (WHERE p)::numeric / NULLIF(COUNT(*) FILTER (WHERE q), 0) * 100, 1)`. -/
def rate (p q : ResultRow → Bool) (rows : List ResultRow) : Option ℚ :=
  if rows.countP q = 0 then none else some (Sql.round 1 (rows.countP p / rows.countP q * 100))

def scores (rows : List ResultRow) : List ℤ := rows.filterMap ResultRow.scoreTotal

/-- `ROUND(AVG(score_total)::numeric, 1)`. -/
def avgScore (rows : List ResultRow) : Option ℚ := (Sql.avg (scores rows)).map (Sql.round 1)

/-- `AVG` with `FILTER (WHERE p)`. -/
def avgScoreOf (p : ResultRow → Bool) (rows : List ResultRow) : Option ℚ := avgScore (rows.filter p)

/-- The second since 1970 that the clock of the session shows. -/
def localTime (a : ScannerAnalyzer) (r : ResultRow) : ℚ := r.scannedAt + a.zone r.scannedAt

/-- `scanned_at::date`, as the days since 1970. -/
def day (a : ScannerAnalyzer) (r : ResultRow) : ℤ := ⌊localTime a r / 86400⌋

def hour (a : ScannerAnalyzer) (r : ResultRow) : ℤ := ⌊localTime a r / 3600⌋ % 24

/-- `EXTRACT(DOW ...)`, from Sunday. The first day of 1970 was a Thursday. -/
def dow (a : ScannerAnalyzer) (r : ResultRow) : ℤ := (day a r + 4) % 7

def byKey {κ : Type} (before : κ → κ → Bool) [DecidableEq κ] (key : ResultRow → κ)
    (rows : List ResultRow) : List (κ × List ResultRow) :=
  Sql.orderBy (fun g h => before g.1 h.1) (Sql.groupBy key rows)

def byChain (a : ScannerAnalyzer) (rows : List ResultRow) : List (String × List ResultRow) :=
  byKey a.collate ResultRow.chain rows

def byNumber (key : ResultRow → ℤ) (rows : List ResultRow) : List (ℤ × List ResultRow) :=
  byKey (fun m n => m ≤ n) key rows

/-- `GROUP BY signal_level ORDER BY signal_level`: NULL is last. -/
def byLevel (a : ScannerAnalyzer) (rows : List ResultRow) :
    List (Option String × List ResultRow) :=
  byKey (fun l m => m.all fun m => l.any fun l => a.collate l m) ResultRow.signalLevel rows

/-! ### 1. Overview -/

structure Overview where
  totalRecords : ℤ
  chainCount : ℤ
  uniqueTokens : ℤ
  daysWithData : ℤ
  passRate : ℚ
  filterRate : ℚ
  signalRate : ℚ
  cooldownRate : ℚ
  avgScorePassed : ℚ
  avgScoreAll : ℚ

def overview (a : ScannerAnalyzer) (rows : List ResultRow) : Except AnalyzeError Overview := do
  let total ← countAll rows
  let chains ← countDistinct ResultRow.chain rows
  let tokens ← countDistinct ResultRow.address rows
  let days ← countDistinct (day a) rows
  let passed ← count ResultRow.filterPassed rows
  let filtered ← count (fun r => !r.filterPassed) rows
  let signals ← count ResultRow.signalEmitted rows
  let cooldowns ← count ResultRow.cooldownSkipped rows
  return {
    totalRecords := total
    chainCount := chains
    uniqueTokens := tokens
    daysWithData := days
    passRate := ← percentOrZero passed total
    filterRate := ← percentOrZero filtered total
    signalRate := ← percentOrZero signals total
    cooldownRate := ← percentOrZero cooldowns total
    avgScorePassed := floatOrZero (avgScoreOf ResultRow.filterPassed rows)
    avgScoreAll := floatOrZero (avgScore rows) }

/-! ### 2. Filter analysis -/

structure RejectionReason where
  reason : String
  count : ℤ
  pct : ℚ

structure ChainPassRate where
  chain : String
  total : ℤ
  passed : ℤ
  passRate : ℚ

structure DailyRejectRate where
  day : ℤ
  total : ℤ
  rejectRate : ℚ

structure FilterAnalysis where
  rejectionReasons : List RejectionReason
  byChain : List ChainPassRate
  dailyTrend : List DailyRejectRate

/-- `GROUP BY reason ORDER BY count DESC`. -/
def reasonCounts (rows : List ResultRow) : Except AnalyzeError (List (String × ℤ)) :=
  (Sql.orderBy (fun g h => decide (h.2.length ≤ g.2.length))
    (Sql.groupBy (fun r => r.filterReason.getD "(passed)") rows)).mapM fun g => do
      return (g.1, ← countAll g.2)

/-- `sum(...) or 1`. -/
def orOne (n : ℤ) : ℤ := if n = 0 then 1 else n

def filterAnalysis (a : ScannerAnalyzer) (rows : List ResultRow) :
    Except AnalyzeError FilterAnalysis := do
  let rows1 ← reasonCounts rows
  let total := orOne (rows1.map Prod.snd).sum
  let reasons ← rows1.mapM fun r => do return ⟨r.1, r.2, ← percent r.2 total⟩
  let chains ← (byChain a rows).mapM fun g => do
    return {
      chain := g.1
      total := ← countAll g.2
      passed := ← count ResultRow.filterPassed g.2
      passRate := floatOrZero (rate ResultRow.filterPassed (fun _ => true) g.2) }
  let daily ← (byNumber (day a) rows).mapM fun g => do
    return {
      day := g.1
      total := ← countAll g.2
      rejectRate := ← float (rate (fun r => !r.filterPassed) (fun _ => true) g.2) }
  return ⟨reasons, chains, daily⟩

/-! ### 3. Score distribution -/

structure ScoreBucket where
  rangeStart : ℤ
  rangeEnd : ℤ
  count : ℤ

structure ChainScores where
  chain : String
  count : ℤ
  avgScore : ℚ
  median : ℚ
  stddev : ℚ

structure ScoreDistribution where
  histogram : List ScoreBucket
  perChain : List ChainScores

def scored (rows : List ResultRow) : List ResultRow := rows.filter fun r => r.scoreTotal.isSome

def rangeStart (r : ResultRow) : ℤ := (Sql.widthBucket (r.scoreTotal.getD 0) 0 100 10 - 1) * 10

def scoreDistribution (a : ScannerAnalyzer) (rows : List ResultRow) :
    Except AnalyzeError ScoreDistribution := do
  let histogram ← (byNumber rangeStart (scored rows)).mapM fun g => do
    return ⟨g.1, g.1 + 10, ← countAll g.2⟩
  let chains ← (byChain a (scored rows)).mapM fun g => do
    return {
      chain := g.1
      count := ← countAll g.2
      avgScore := floatOrZero (avgScore g.2)
      median := floatOrZero ((Sql.median (scores g.2)).map (Sql.round 1))
      stddev := floatOrZero (Sql.roundStddev 1 (scores g.2)) }
  return ⟨histogram, chains⟩

/-! ### 4. Signal analysis -/

structure LevelSignals where
  level : Option String
  count : ℤ
  avgScore : ℚ

structure ChainSignals where
  chain : String
  total : ℤ
  signals : ℤ
  signalRate : ℚ

structure SignalAnalysis where
  byLevel : List LevelSignals
  byChain : List ChainSignals

def signalAnalysis (a : ScannerAnalyzer) (rows : List ResultRow) :
    Except AnalyzeError SignalAnalysis := do
  let levels ← (byLevel a (rows.filter ResultRow.signalEmitted)).mapM fun g => do
    return ⟨g.1, ← countAll g.2, floatOrZero (avgScore g.2)⟩
  let chains ← (byChain a rows).mapM fun g => do
    return {
      chain := g.1
      total := ← countAll g.2
      signals := ← count ResultRow.signalEmitted g.2
      signalRate := floatOrZero (rate ResultRow.signalEmitted (fun _ => true) g.2) }
  return ⟨levels, chains⟩

/-! ### 5. Factor breakdown -/

def factorKeys : List String :=
  ["smart_money", "rank_momentum", "volume_quality", "structure", "volume_acceleration",
    "timeframe", "risk_penalty"]

structure LevelFactors where
  level : Option String
  avgFactors : List (String × ℚ)
  sampleCount : ℤ
  deriving DecidableEq

/-- The items of its dicts stand in the order of `factor_keys`. -/
structure FactorBreakdown where
  overallAverages : List (String × ℚ)
  overallRatios : List (String × ℚ)
  sampleCount : ℤ
  bySignalLevel : List LevelFactors
  deriving DecidableEq

/-- `WHERE filter_passed AND score_breakdown IS NOT NULL`. The handler writes no JSON `null`. -/
def broken (rows : List ResultRow) : List ResultRow :=
  rows.filter fun r => r.filterPassed && r.scoreBreakdown.isSome

/-- `score_breakdown->>'k'`. -/
def factorOf (k : String) (r : ResultRow) : Option ℤ := r.scoreBreakdown.bind fun b => b.get? k

/-- `(score_breakdown->>'k')::int`. -/
def factor (k : String) (r : ResultRow) : Except AnalyzeError (Option ℤ) :=
  match factorOf k r with
  | none => .ok none
  | some n => some <$> int n

/-- `ROUND(AVG(x)::numeric, places)` of a value that each row has. -/
def roundAvg (places : ℕ) (x : ResultRow → Except AnalyzeError (Option ℤ))
    (rows : List ResultRow) : Except AnalyzeError (Option ℚ) := do
  let values ← rows.mapM x
  return (Sql.avg values.reduceOption).map (Sql.round places)

def factorAverages (rows : List ResultRow) : Except AnalyzeError (List (String × ℚ)) :=
  factorKeys.mapM fun k => do return (k, floatOrZero (← roundAvg 1 (factor k) rows))

/-- `(score_breakdown->>'k')::int / NULLIF(score_total, 0)`. -/
def share (k : String) (r : ResultRow) : Except AnalyzeError (Option ℤ) := do
  return Sql.quotient (← factor k r) r.scoreTotal

/-- The rows that the ratios are taken over. -/
def shareRows (rows : List ResultRow) : List ResultRow :=
  (broken rows).filter fun r => r.scoreTotal.any fun n => 0 < n

/-- The result of the query without `GROUP BY`: one row, whatever the table holds. -/
def ratioRows (rows : List ResultRow) : Except AnalyzeError (List (List (Option ℚ))) := do
  return [← factorKeys.mapM fun k => roundAvg 3 (share k) (shareRows rows)]

def overallRatios (rows : List ResultRow) : Except AnalyzeError (List (String × ℚ)) := do
  match ← ratioRows rows with
  | first :: _ => (factorKeys.zip first).mapM fun kx => do return (kx.1, ← float kx.2)
  | [] => return factorKeys.map fun k => (k, 0)

def factorBreakdown (a : ScannerAnalyzer) (rows : List ResultRow) :
    Except AnalyzeError FactorBreakdown := do
  let averages ← factorAverages (broken rows)
  let samples ← countAll (broken rows)
  let ratios ← overallRatios rows
  let levels ← (byLevel a ((broken rows).filter ResultRow.signalEmitted)).mapM fun g => do
    return ⟨g.1, ← factorAverages g.2, ← countAll g.2⟩
  return ⟨averages, ratios, samples, levels⟩

/-! ### 6. Chain comparison -/

structure ChainComparison where
  chain : String
  totalScans : ℤ
  uniqueTokens : ℤ
  passed : ℤ
  passRate : ℚ
  avgScore : ℚ
  signals : ℤ
  signalRateOfPassed : ℚ
  cooldowns : ℤ

def chainComparison (a : ScannerAnalyzer) (rows : List ResultRow) :
    Except AnalyzeError (List ChainComparison) :=
  (byChain a rows).mapM fun g => do
    return {
      chain := g.1
      totalScans := ← countAll g.2
      uniqueTokens := ← countDistinct ResultRow.address g.2
      passed := ← count ResultRow.filterPassed g.2
      passRate := floatOrZero (rate ResultRow.filterPassed (fun _ => true) g.2)
      avgScore := floatOrZero (avgScoreOf ResultRow.filterPassed g.2)
      signals := ← count ResultRow.signalEmitted g.2
      signalRateOfPassed := floatOrZero (rate ResultRow.signalEmitted ResultRow.filterPassed g.2)
      cooldowns := ← count ResultRow.cooldownSkipped g.2 }

/-! ### 7. Temporal patterns -/

def dowNames : List String := ["Sun", "Mon", "Tue", "Wed", "Thu", "Fri", "Sat"]

/-- `DOW_NAMES[n]`, for an `n` that is not negative. -/
def dowName (n : ℤ) : Except AnalyzeError String :=
  match dowNames[n.toNat]? with
  | some name => .ok name
  | none => .error (.python .indexError)

/-- What stands for an hour, a day of the week or a date. -/
structure Pattern where
  key : ℤ
  count : ℤ
  signals : ℤ
  avgScore : ℚ

structure TemporalPatterns where
  byHour : List Pattern
  byDow : List (String × Pattern)
  dailyTrend : List Pattern

def pattern (g : ℤ × List ResultRow) : Except AnalyzeError Pattern := do
  return ⟨g.1, ← countAll g.2, ← count ResultRow.signalEmitted g.2, ← float (avgScore g.2)⟩

def temporalPatterns (a : ScannerAnalyzer) (rows : List ResultRow) :
    Except AnalyzeError TemporalPatterns := do
  let hours ← (byNumber (hour a) rows).mapM pattern
  let dows ← (byNumber (dow a) rows).mapM fun g => do return (← dowName g.1, ← pattern g)
  let daily ← (byNumber (day a) rows).mapM pattern
  return ⟨hours, dows, daily⟩

/-! ### 8. Token spotlight -/

structure TokenKey where
  symbol : Option String
  address : String
  chain : String
  deriving DecidableEq

structure TokenSpotlight where
  mostScanned : List (TokenKey × ℤ)
  mostSignals : List (TokenKey × ℤ × ℤ)
  topAvgScore : List (TokenKey × ℤ × ℚ)

def byToken (rows : List ResultRow) : List (TokenKey × List ResultRow) :=
  Sql.groupBy (fun r => ⟨r.symbol, r.address, r.chain⟩) rows

def signalsIn (rows : List ResultRow) : ℕ := rows.countP ResultRow.signalEmitted

/-- `x DESC`: NULL is first. -/
def descending : Option ℚ → Option ℚ → Bool
  | none, _ => true
  | some _, none => false
  | some x, some y => y ≤ x

def tokenSpotlight (rows : List ResultRow) : Except AnalyzeError TokenSpotlight := do
  let scanned ← ((Sql.orderBy (fun g h => decide (h.2.length ≤ g.2.length))
    (byToken rows)).take 20).mapM fun g => do return (g.1, ← countAll g.2)
  let signals ← ((Sql.orderBy (fun g h => decide (signalsIn h.2 ≤ signalsIn g.2))
    ((byToken rows).filter fun g => 0 < signalsIn g.2)).take 20).mapM fun g => do
      return (g.1, ← countAll g.2, ← count ResultRow.signalEmitted g.2)
  let top ← ((Sql.orderBy (fun g h => descending (avgScore g.2) (avgScore h.2))
    ((byToken rows).filter fun g => 3 ≤ g.2.length)).take 20).mapM fun g => do
      return (g.1, ← countAll g.2, floatOrZero (avgScore g.2))
  return ⟨scanned, signals, top⟩

/-! ### 9. Cooldown analysis -/

structure ChainCooldowns where
  chain : String
  skipped : ℤ
  skipRate : ℚ
  avgScoreSkipped : ℚ

structure CooldownAnalysis where
  totalSkipped : ℤ
  skipRate : ℚ
  avgScoreSkipped : ℚ
  byChain : List ChainCooldowns

def cooldownAnalysis (a : ScannerAnalyzer) (rows : List ResultRow) :
    Except AnalyzeError CooldownAnalysis := do
  let skipped ← count ResultRow.cooldownSkipped rows
  let total := orOne (← countAll rows)
  let chains ← (byChain a rows).mapM fun g => do
    let skipped ← count ResultRow.cooldownSkipped g.2
    return {
      chain := g.1
      skipped := skipped
      skipRate := ← percentOrZero skipped (← countAll g.2)
      avgScoreSkipped := floatOrZero (avgScoreOf ResultRow.cooldownSkipped g.2) }
  return {
    totalSkipped := skipped
    skipRate := ← percent skipped total
    avgScoreSkipped := floatOrZero (avgScoreOf ResultRow.cooldownSkipped rows)
    byChain := chains }

/-! ### 10. Threshold sensitivity -/

structure Sensitivity where
  current : ℤ
  minus : ℤ
  plus : ℤ

structure ThresholdSensitivity where
  currentBands : List (String × ℤ × ℤ)
  high : Sensitivity
  medium : Sensitivity
  observe : Sensitivity

/-- `score_total >= n`, which is not true of NULL. -/
def reaches (n : ℤ) (r : ResultRow) : Bool := r.scoreTotal.any fun s => n ≤ s

def band (r : ResultRow) : String :=
  if reaches 75 r then "75-100"
  else if reaches 65 r then "65-74"
  else if reaches 55 r then "55-64"
  else "0-54"

def sensitivity (current minus plus : ℤ) (rows : List ResultRow) :
    Except AnalyzeError Sensitivity := do
  return ⟨← count (reaches current) rows, ← count (reaches minus) rows, ← count (reaches plus) rows⟩

def thresholdSensitivity (a : ScannerAnalyzer) (rows : List ResultRow) :
    Except AnalyzeError ThresholdSensitivity := do
  let passed := rows.filter ResultRow.filterPassed
  let bands ← (byKey a.collate band passed).mapM fun g => do
    return (g.1, ← countAll g.2, ← count ResultRow.signalEmitted g.2)
  return {
    currentBands := bands
    high := ← sensitivity 75 70 80 passed
    medium := ← sensitivity 65 60 70 passed
    observe := ← sensitivity 55 50 60 passed }

/-! ### The report -/

structure Report where
  overview : Overview
  filterAnalysis : FilterAnalysis
  scoreDistribution : ScoreDistribution
  signalAnalysis : SignalAnalysis
  factorBreakdown : FactorBreakdown
  chainComparison : List ChainComparison
  temporalPatterns : TemporalPatterns
  tokenSpotlight : TokenSpotlight
  cooldownAnalysis : CooldownAnalysis
  thresholdSensitivity : ThresholdSensitivity

/-- The rows that each query reads. -/
def period (a : ScannerAnalyzer) (table : List ResultRow) : List ResultRow :=
  table.filter fun r => a.since ≤ r.scannedAt

def analyze (a : ScannerAnalyzer) (table : List ResultRow) : Except AnalyzeError Report := do
  let rows := period a table
  return {
    overview := ← overview a rows
    filterAnalysis := ← filterAnalysis a rows
    scoreDistribution := ← scoreDistribution a rows
    signalAnalysis := ← signalAnalysis a rows
    factorBreakdown := ← factorBreakdown a rows
    chainComparison := ← chainComparison a rows
    temporalPatterns := ← temporalPatterns a rows
    tokenSpotlight := ← tokenSpotlight rows
    cooldownAnalysis := ← cooldownAnalysis a rows
    thresholdSensitivity := ← thresholdSensitivity a rows }

end ChainMonitor.Analyze
