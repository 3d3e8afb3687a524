import ChainMonitor.Scoring.ScoringEngine

/-! `BacktestEngine` of `backtest/engine.py` with its cost model and its synthetic source, in exact
arithmetic. What a run draws at random it draws from digests of texts. -/

namespace ChainMonitor.Backtest

open ProofKit PipelineService Scoring Snapshots

/-- An aware `datetime` of a zone with one offset: an instant in microseconds of UTC, and the
offset. Zones whose offset changes, and the ends of the calendar, are in `AwarePeriod`. -/
structure DateTime where
  instant : ℤ
  utcoffset : ℤ
  deriving DecidableEq

structure BacktestConfig where
  chainId : String
  strategyVersion : String
  periodStart : DateTime
  periodEnd : DateTime
  convictionThreshold : ℚ
  holdMinutes : ℤ
  stopLossPct : ℚ
  takeProfitPct : ℚ
  tradeSizeUsd : ℚ
  feeBps : ℚ
  slippageBps : ℚ
  gasUsdPerTrade : ℚ
  latencyBps : ℚ
  failProbability : ℚ
  deriving DecidableEq

structure BacktestTradeResult where
  chainId : String
  tokenId : String
  tsMinute : ℤ
  conviction : ℚ
  expectedReturnPct : ℚ
  grossPnlUsd : ℚ
  costUsd : ℚ
  netPnlUsd : ℚ
  failed : Bool
  deriving DecidableEq

structure CostBreakdown where
  totalFeeUsd : ℚ
  totalSlippageUsd : ℚ
  totalLatencyUsd : ℚ
  totalGasUsd : ℚ
  totalCostUsd : ℚ
  deriving DecidableEq

structure BacktestMetrics where
  tradeCount : ℕ
  winCount : ℕ
  loseCount : ℕ
  winRate : ℚ
  netPnlUsd : ℚ
  grossProfitUsd : ℚ
  grossLossUsd : ℚ
  pf : ℚ
  expectancy : ℚ
  maxDdPct : ℚ
  costBreakdown : CostBreakdown
  deriving DecidableEq

/-! ### Costs -/

structure TradeCost where
  feeUsd : ℚ
  slippageUsd : ℚ
  latencyUsd : ℚ
  gasUsd : ℚ
  deriving DecidableEq

def TradeCost.total (c : TradeCost) : ℚ := c.feeUsd + c.slippageUsd + c.latencyUsd + c.gasUsd

/-- `TradeCostModel.estimate`. -/
def estimate (config : BacktestConfig) (notionalUsd : ℚ) : TradeCost where
  feeUsd := roundTo 8 (notionalUsd * (config.feeBps / 10000))
  slippageUsd := roundTo 8 (notionalUsd * (config.slippageBps / 10000))
  latencyUsd := roundTo 8 (notionalUsd * (config.latencyBps / 10000))
  gasUsd := roundTo 8 config.gasUsdPerTrade

/-- `TradeCostModel.summarize`. -/
def summarize (costs : List TradeCost) : CostBreakdown :=
  let totalFee := (costs.map TradeCost.feeUsd).sum
  let totalSlippage := (costs.map TradeCost.slippageUsd).sum
  let totalLatency := (costs.map TradeCost.latencyUsd).sum
  let totalGas := (costs.map TradeCost.gasUsd).sum
  let totalCost := totalFee + totalSlippage + totalLatency + totalGas
  { totalFeeUsd := roundTo 8 totalFee
    totalSlippageUsd := roundTo 8 totalSlippage
    totalLatencyUsd := roundTo 8 totalLatency
    totalGasUsd := roundTo 8 totalGas
    totalCostUsd := roundTo 8 totalCost }

/-! ### Metrics -/

/-- The state of the loop of `_max_drawdown_pct`. -/
structure Drawdown where
  equity : ℚ
  peak : ℚ
  maxDd : ℚ

def Drawdown.step (s : Drawdown) (pnl : ℚ) : Drawdown :=
  let equity := s.equity + pnl
  let peak := if s.peak < equity then equity else s.peak
  if peak ≤ 0 then { s with equity, peak }
  else
    let dd := (peak - equity) / peak
    { equity, peak, maxDd := if s.maxDd < dd then dd else s.maxDd }

def maxDrawdownPct (netValues : List ℚ) (tradeSizeUsd : ℚ) : ℚ :=
  (netValues.foldl Drawdown.step ⟨tradeSizeUsd * 10, tradeSizeUsd * 10, 0⟩).maxDd

def buildMetrics (trades : List BacktestTradeResult) (costs : List TradeCost) (tradeSizeUsd : ℚ) :
    BacktestMetrics :=
  if trades = [] then ⟨0, 0, 0, 0, 0, 0, 0, 0, 0, 0, summarize costs⟩
  else
    let netValues := trades.map BacktestTradeResult.netPnlUsd
    let wins := netValues.filter fun v => 0 < v
    let losses := netValues.filter fun v => v ≤ 0
    let grossProfit := wins.sum
    let grossLossAbs := |losses.sum|
    let pf := if 0 < grossLossAbs then grossProfit / grossLossAbs else 99
    let winRate : ℚ := wins.length / trades.length
    let avgWin := if wins = [] then 0 else grossProfit / wins.length
    let avgLoss := if losses = [] then 0 else grossLossAbs / losses.length
    let loseRate := 1 - winRate
    let expectancy := winRate * avgWin - loseRate * avgLoss
    { tradeCount := trades.length
      winCount := wins.length
      loseCount := losses.length
      winRate := roundTo 8 winRate
      netPnlUsd := roundTo 8 netValues.sum
      grossProfitUsd := roundTo 8 grossProfit
      grossLossUsd := roundTo 8 grossLossAbs
      pf := roundTo 8 pf
      expectancy := roundTo 8 expectancy
      maxDdPct := roundTo 8 (maxDrawdownPct netValues tradeSizeUsd)
      costBreakdown := summarize costs }

/-! ### The synthetic source -/

/-- What the engine takes from the standard library: `int(sha256(payload).hexdigest()[:12], 16)`,
the text of a UTC minute, and lower case. -/
structure Texts where
  digest : String → ℕ
  digest_lt : ∀ payload, digest payload < 16 ^ 12
  isoformat : ℤ → String
  lower : String → String

structure BacktestEngine where
  texts : Texts
  pipelineSettings : PipelineService.Settings
  chainId : String
  symbols : List String
  scoringEngine : ScoringEngine

namespace BacktestEngine

/-- The tick of a symbol in a minute. -/
def tick (e : BacktestEngine) (tsMinute : ℤ) (symbol : String) : MarketTickInput :=
  let seed := e.texts.digest (symbol ++ ":" ++ e.texts.isoformat tsMinute)
  let price : ℚ := 1 + (seed % 50000 : ℕ) / 1000
  let volume1m := 5000 + seed % 80000
  let volume5m : ℚ := volume1m * (11 / 10 + (seed % 30 : ℕ) / 100)
  let liquidity := 100000 + seed % 900000
  let buys := 20 + seed % 80
  let sells := 10 + seed % 60
  { chainId := e.chainId
    tokenId := e.chainId ++ "_" ++ e.texts.lower symbol
    tsMinute
    priceUsd := roundTo 6 price
    volume1m := volume1m
    volume5m
    liquidityUsd := liquidity
    buys1m := buys
    sells1m := sells
    txCount1m := buys + sells + seed % 20 }

def fetchMarketTicks (e : BacktestEngine) (tsMinute : ℤ) : List MarketTickInput :=
  e.symbols.map (e.tick tsMinute)

/-- `_stable_unit_value`. -/
def stableUnitValue (e : BacktestEngine) (payload : String) : ℚ :=
  e.texts.digest payload / (16 ^ 12 - 1)

def expectedReturnPct (e : BacktestEngine) (tokenId : String) (tsMinute : ℤ)
    (strategyVersion : String) (stopLossPct takeProfitPct : ℚ) : ℚ :=
  let seed := e.stableUnitValue
    (strategyVersion ++ ":" ++ tokenId ++ ":" ++ e.texts.isoformat tsMinute)
  let raw := seed * (20 / 100) - 8 / 100
  max (-stopLossPct) (min takeProfitPct raw)

def isFailedTrade (e : BacktestEngine) (tokenId : String) (tsMinute : ℤ) (failProbability : ℚ) :
    Bool :=
  if failProbability ≤ 0 then false
  else e.stableUnitValue ("fail:" ++ tokenId ++ ":" ++ e.texts.isoformat tsMinute) < failProbability

/-! ### Runs -/

/-- The score rows of a minute. -/
def scoreRows (e : BacktestEngine) (tsMinute : ℤ) : Except ScoringError (List ScoreRowInput) :=
  let ticks := applyGate e.pipelineSettings (e.fetchMarketTicks tsMinute)
  if ticks = [] then .ok []
  else e.scoringEngine.score ticks (buildFeatures ticks) none

/-- The expected return of the trade that a score row opens. -/
def expectedReturn (e : BacktestEngine) (config : BacktestConfig) (score : ScoreRowInput) : ℚ :=
  e.expectedReturnPct score.tokenId score.tsMinute config.strategyVersion config.stopLossPct
    config.takeProfitPct

def failed (e : BacktestEngine) (config : BacktestConfig) (score : ScoreRowInput) : Bool :=
  e.isFailedTrade score.tokenId score.tsMinute config.failProbability

def grossPnl (e : BacktestEngine) (config : BacktestConfig) (score : ScoreRowInput) : ℚ :=
  if e.failed config score then 0 else config.tradeSizeUsd * e.expectedReturn config score

/-- The trade that a score row opens, and its cost. -/
def trade (e : BacktestEngine) (config : BacktestConfig) (score : ScoreRowInput) :
    BacktestTradeResult × TradeCost :=
  let cost := estimate config config.tradeSizeUsd
  let netPnl := e.grossPnl config score - cost.total
  ({ chainId := e.chainId
     tokenId := score.tokenId
     tsMinute := score.tsMinute
     conviction := score.conviction
     expectedReturnPct := roundTo 8 (e.expectedReturn config score)
     grossPnlUsd := roundTo 8 (e.grossPnl config score)
     costUsd := roundTo 8 cost.total
     netPnlUsd := roundTo 8 netPnl
     failed := e.failed config score }, cost)

/-- The trades that the scores of a minute open. -/
def minuteTrades (e : BacktestEngine) (config : BacktestConfig) (tsMinute : ℤ) :
    Except ScoringError (List (BacktestTradeResult × TradeCost)) := do
  let rows ← e.scoreRows tsMinute
  return (rows.filter fun score => config.convictionThreshold ≤ score.conviction).map
    (e.trade config)

end BacktestEngine

/-- The minute of UTC in which an instant lies. -/
def DateTime.minute (t : DateTime) : ℤ := t.instant / 60000000

/-- The loop of `_iter_minutes`. -/
def minutesFrom (cursor stop : ℤ) : List ℤ :=
  if cursor ≤ stop then cursor :: minutesFrom (cursor + 1) stop else []
termination_by (stop + 1 - cursor).toNat

def iterMinutes (start stop : DateTime) : List ℤ := minutesFrom start.minute stop.minute

/-- What a run raises. -/
inductive RunError
  | valueError (message : String)
  | scoring (error : ScoringError)
  deriving DecidableEq

/-- The loop of a run over its minutes, and the metrics of the trades. -/
def BacktestEngine.runMinutes (e : BacktestEngine) (config : BacktestConfig) (minutes : List ℤ) :
    Except ScoringError (List BacktestTradeResult × BacktestMetrics) := do
  let ledger ← minutes.mapM (e.minuteTrades config)
  let trades := ledger.flatten.map Prod.fst
  let costs := ledger.flatten.map Prod.snd
  return (trades, buildMetrics trades costs config.tradeSizeUsd)

def BacktestEngine.run (e : BacktestEngine) (config : BacktestConfig) :
    Except RunError (List BacktestTradeResult × BacktestMetrics) := do
  if config.periodEnd.instant < config.periodStart.instant then
    throw (.valueError "period_end must be greater than or equal to period_start")
  (e.runMinutes config (iterMinutes config.periodStart config.periodEnd)).mapError .scoring

theorem minutesFrom_self (m : ℤ) : minutesFrom m m = [m] := by
  rw [minutesFrom, if_pos le_rfl, minutesFrom, if_neg (by omega)]

end ChainMonitor.Backtest
