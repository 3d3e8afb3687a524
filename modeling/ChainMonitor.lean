import ChainMonitor.App.CatchUp
import ChainMonitor.App.Claims
import ChainMonitor.App.LimiterTraffic
import ChainMonitor.App.PipelineCalls
import ChainMonitor.App.PipelineService
import ChainMonitor.App.RateLimit
import ChainMonitor.App.ReplayLimit
import ChainMonitor.App.Replays
import ChainMonitor.App.Scheduler
import ChainMonitor.App.Wiring
import ChainMonitor.Backtest.Attribution
import ChainMonitor.Backtest.AwarePeriod
import ChainMonitor.Backtest.Batch
import ChainMonitor.Backtest.Books
import ChainMonitor.Backtest.Engine
import ChainMonitor.Backtest.GridSearch
import ChainMonitor.Backtest.Identity
import ChainMonitor.Backtest.Ledger
import ChainMonitor.Backtest.MaxDrawdown
import ChainMonitor.Backtest.Metrics
import ChainMonitor.Backtest.ProfitFactor
import ChainMonitor.Backtest.SavedRun
import ChainMonitor.Backtest.WalkForward
import ChainMonitor.Backtest.WalkForwardVerdict
import ChainMonitor.Db.CandidatesCache
import ChainMonitor.Db.LatestListing
import ChainMonitor.Db.PipelineTables
import ChainMonitor.Db.ScoreRows
import ChainMonitor.Db.Snapshots
import ChainMonitor.Ingestion.Adapters
import ChainMonitor.Ingestion.Attribution
import ChainMonitor.Ingestion.CacheLru
import ChainMonitor.Ingestion.CacheStore
import ChainMonitor.Ingestion.FallbackChain
import ChainMonitor.Ingestion.FreshFetch
import ChainMonitor.Ingestion.HttpClient
import ChainMonitor.Ingestion.LiveChain
import ChainMonitor.Ingestion.LiveSource
import ChainMonitor.Ingestion.LiveTasks
import ChainMonitor.Ingestion.MalformedEntries
import ChainMonitor.Ingestion.RateLimitOverrides
import ChainMonitor.Ingestion.RequiredSymbols
import ChainMonitor.Ingestion.RetryPolicy
import ChainMonitor.Ingestion.SharedAddresses
import ChainMonitor.Ingestion.SingleFlight
import ChainMonitor.ProofKit.Attempt
import ChainMonitor.ProofKit.Binary64
import ChainMonitor.ProofKit.CharSet
import ChainMonitor.ProofKit.Clock
import ChainMonitor.ProofKit.Decimal
import ChainMonitor.ProofKit.Dict
import ChainMonitor.ProofKit.Drawdown
import ChainMonitor.ProofKit.Grouping
import ChainMonitor.ProofKit.Html
import ChainMonitor.ProofKit.IntRatio
import ChainMonitor.ProofKit.Json
import ChainMonitor.ProofKit.JsonChars
import ChainMonitor.ProofKit.Jsonb
import ChainMonitor.ProofKit.Metric
import ChainMonitor.ProofKit.Oldest
import ChainMonitor.ProofKit.OrderedDict
import ChainMonitor.ProofKit.Pool
import ChainMonitor.ProofKit.PyFloat
import ChainMonitor.ProofKit.Ranking
import ChainMonitor.ProofKit.Registry
import ChainMonitor.ProofKit.Relational
import ChainMonitor.ProofKit.Rounding
import ChainMonitor.ProofKit.Run
import ChainMonitor.ProofKit.SlidingLog
import ChainMonitor.ProofKit.Sql
import ChainMonitor.ProofKit.Strings
import ChainMonitor.ProofKit.Table
import ChainMonitor.ProofKit.Tally
import ChainMonitor.ProofKit.UniqueRows
import ChainMonitor.ProofKit.Utf16
import ChainMonitor.ProofKit.Window
import ChainMonitor.Resilience.Admissions
import ChainMonitor.Resilience.Backoff
import ChainMonitor.Resilience.BackoffSchedule
import ChainMonitor.Resilience.CircuitBreaker
import ChainMonitor.Resilience.CircuitBreakerRuns
import ChainMonitor.Resilience.ExecuteSpec
import ChainMonitor.Resilience.Executor
import ChainMonitor.Resilience.HalfOpenProbes
import ChainMonitor.Resilience.RateLimiter
import ChainMonitor.Resilience.Registries
import ChainMonitor.Resilience.Retry
import ChainMonitor.Scanner.AlertRows
import ChainMonitor.Scanner.AnalysisLog
import ChainMonitor.Scanner.Analyze
import ChainMonitor.Scanner.AnalyzeReturns
import ChainMonitor.Scanner.Cooldown
import ChainMonitor.Scanner.Decay
import ChainMonitor.Scanner.Detector
import ChainMonitor.Scanner.EventBus
import ChainMonitor.Scanner.EventStream
import ChainMonitor.Scanner.FactorRatios
import ChainMonitor.Scanner.FetchFailure
import ChainMonitor.Scanner.Handlers
import ChainMonitor.Scanner.Histogram
import ChainMonitor.Scanner.Markup
import ChainMonitor.Scanner.Notifier
import ChainMonitor.Scanner.Observers
import ChainMonitor.Scanner.Orchestrator
import ChainMonitor.Scanner.ResultRows
import ChainMonitor.Scanner.Runs
import ChainMonitor.Scanner.SmartMoney
import ChainMonitor.Scanner.SnapshotRuns
import ChainMonitor.Scanner.SnapshotStore
import ChainMonitor.Scanner.SnapshotViews
import ChainMonitor.Scanner.Timing
import ChainMonitor.Scanner.TrendingList
import ChainMonitor.Scoring.CandidatePool
import ChainMonitor.Scoring.Ceiling
import ChainMonitor.Scoring.ScoringEngine
import ChainMonitor.Scoring.StoredTier
