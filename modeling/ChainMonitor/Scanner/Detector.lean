import ChainMonitor.ProofKit.Attempt
import ChainMonitor.ProofKit.Dict
import ChainMonitor.ProofKit.PyFloat
import Mathlib.Data.Rat.Defs
import Mathlib.Data.List.Basic

/-! `AlphaScorer` of `scanner/detector.py` and the records of `scanner/models.py`: the hard filter,
the score of a token, and the signals of a snapshot. -/

namespace ChainMonitor.Detector

open ProofKit

structure TrendingToken where
  address : String
  symbol : String
  name : String
  priceUsd : Float
  volume1m : Option Float
  volume1h : Option Float
  marketCap : Option Float
  liquidity : Option Float
  smartDegenCount : Option ℤ
  rank : ℤ
  chain : String
  alsoIn1h : Bool
  deriving DecidableEq

inductive Interval
  | oneMinute
  | oneHour
  deriving DecidableEq

structure Snapshot where
  chain : String
  interval : Interval
  tokens : List TrendingToken
  takenAt : ℚ
  deriving DecidableEq

structure TokenRisk where
  rugRisk : Float
  isHoneypot : Bool
  bundlerRatio : Float
  ratRatio : Float
  sniperCount : ℤ
  top10HolderPct : Float
  deriving DecidableEq

/-- The text of `FilterResult.reason`, by what it shows. It is empty for a token that passes. -/
inductive FilterReason
  | empty
  | liquidity (liquidity minLiquidity : Float)
  | honeypot
  | rugRisk (rugRisk : Float)
  | bundlerRat (sum : Float)
  deriving DecidableEq

structure FilterResult where
  passed : Bool
  reason : FilterReason
  deriving DecidableEq

/-- The items of `breakdown`, in the order of its keys. -/
structure Breakdown where
  smartMoney : ℤ
  rankMomentum : ℤ
  volumeQuality : ℤ
  volumeAcceleration : ℤ
  structural : ℤ
  timeframe : ℤ
  riskPenalty : ℤ
  deriving DecidableEq

structure ScoredToken where
  token : TrendingToken
  score : ℤ
  breakdown : Breakdown
  risk : Option TokenRisk
  deriving DecidableEq

inductive Level
  | high
  | medium
  | observe
  deriving DecidableEq

structure AlphaSignal where
  token : ScoredToken
  level : Level
  chain : String
  interval : Interval
  detectedAt : ℚ
  deriving DecidableEq

/-- The settings of an `AlphaScorer`. -/
structure AlphaScorer where
  minLiquidity : Float
  maxRugRisk : Float
  maxBundlerRatRatio : Float
  scoreHigh : ℤ
  scoreMedium : ℤ
  scoreLow : ℤ

/-- The defaults of `AlphaScorer.__init__`. -/
def AlphaScorer.default : AlphaScorer := ⟨50000, 0.8, 0.7, 75, 65, 55⟩

def hardFilter (cfg : AlphaScorer) (token : TrendingToken) (risk : Option TokenRisk) :
    FilterResult :=
  let byRisk : FilterResult :=
    match risk with
    | none => ⟨true, .empty⟩
    | some r =>
      if r.isHoneypot then ⟨false, .honeypot⟩
      else if r.rugRisk > cfg.maxRugRisk then ⟨false, .rugRisk r.rugRisk⟩
      else if r.bundlerRatio + r.ratRatio > cfg.maxBundlerRatRatio then
        ⟨false, .bundlerRat (r.bundlerRatio + r.ratRatio)⟩
      else ⟨true, .empty⟩
  match token.liquidity with
  | none => byRisk
  | some l => if l < cfg.minLiquidity then ⟨false, .liquidity l cfg.minLiquidity⟩ else byRisk

/-! ### The parts of the score -/

/-- The boost of a positive `delta` on a positive base. -/
def boosted (smartScore delta prevCount : ℤ) : Except PyError ℤ := do
  let ratio ← PyFloat.divInt delta prevCount
  if ratio > 0.5 then
    let boost := min 5 (← PyFloat.toInt (ratio * 10))
    return min 30 (smartScore + boost)
  else return smartScore

def smartMoney (token : TrendingToken) (prev : Option TrendingToken) : Except PyError ℤ :=
  match token.smartDegenCount, prev.bind (·.smartDegenCount) with
  | none, _ => .ok 0
  | some baseCount, some prevCount => do
    let delta := baseCount - prevCount
    let smartScore : ℤ :=
      if 5 ≤ delta then 30
      else if 3 ≤ delta then 25
      else if 1 ≤ delta then 20
      else if 10 ≤ baseCount then 15
      else 0
    let smartScore ←
      if 0 < delta ∧ 0 < prevCount then boosted smartScore delta prevCount else pure smartScore
    let smartScore := if 5 ≤ baseCount ∧ smartScore < 10 then 10 else smartScore
    return min smartScore 30
  | some baseCount, none =>
    .ok (min (if 5 ≤ baseCount then 15 else if 3 ≤ baseCount then 10 else 0) 30)

def rankMomentum (token : TrendingToken) : Option TrendingToken → ℤ
  | none => 10
  | some prev =>
    let change := prev.rank - token.rank
    if prev.rank = token.rank then 0
    else if 40 ≤ change then 25
    else if 20 ≤ change then 20
    else if 10 ≤ change then 15
    else if 5 ≤ change then 10
    else if 0 < change then 5
    else 0

def volumeQuality (token : TrendingToken) : ℤ :=
  match token.volume1m with
  | none => 0
  | some volume =>
    let byRatio : ℤ :=
      match token.liquidity with
      | none => 0
      | some liquidity =>
        if PyFloat.truthy volume ∧ PyFloat.truthy liquidity ∧ liquidity > 0 then
          let ratio := volume / liquidity
          if 0.5 ≤ ratio ∧ ratio ≤ 5.0 then 15
          else if 0.1 ≤ ratio ∧ ratio ≤ 10.0 then 10
          else 5
        else 0
    if byRatio = 0 ∧ PyFloat.truthy volume ∧ volume > 0 then 5 else byRatio

def volumeAcceleration (token : TrendingToken) (prev : Option TrendingToken) : ℤ :=
  match token.volume1m, prev.bind (·.volume1m) with
  | some volume, some prevVolume =>
    if PyFloat.truthy volume ∧ PyFloat.truthy prevVolume ∧ prevVolume > 0 then
      let accel := volume / prevVolume
      if accel > 3 then 15 else if accel > 2 then 10 else if accel > 1.5 then 5 else 0
    else 0
  | _, _ => 0

def structural : Option TokenRisk → ℤ
  | none => 10
  | some risk =>
    min 15 (10 + (if risk.bundlerRatio < 0.2 then 3 else 0) + (if risk.ratRatio < 0.2 then 2 else 0)
      + (if risk.top10HolderPct < 0.5 then 3 else 0) + (if risk.sniperCount < 5 then 2 else 0))

def riskPenalty (token : TrendingToken) (risk : Option TokenRisk) : ℤ :=
  let byRisk : ℤ :=
    match risk with
    | none => 0
    | some r =>
      if r.isHoneypot then -10
      else if r.rugRisk > 0.7 then -10
      else if r.rugRisk > 0.5 then -5
      else 0
  -- `token.volume_1m or 0`
  if token.smartDegenCount = some 0 ∧ token.volume1m.getD 0 > 100000 then min byRisk (-10)
  else byRisk

/-- The sum of the items, between 0 and 100. -/
def Breakdown.total (b : Breakdown) : ℤ :=
  max 0 (min 100 (b.smartMoney + b.rankMomentum + b.volumeQuality + b.volumeAcceleration +
    b.structural + b.timeframe + b.riskPenalty))

def score (token : TrendingToken) (prev : Option TrendingToken) (risk : Option TokenRisk) :
    Except PyError ScoredToken := do
  let smart ← smartMoney token prev
  let breakdown : Breakdown :=
    { smartMoney := smart
      rankMomentum := rankMomentum token prev
      volumeQuality := volumeQuality token
      volumeAcceleration := volumeAcceleration token prev
      structural := structural risk
      timeframe := if token.alsoIn1h then 10 else 0
      riskPenalty := riskPenalty token risk }
  return { token := token, score := breakdown.total, breakdown := breakdown, risk := risk }

/-- The level that a score falls in. -/
def level (cfg : AlphaScorer) (score : ℤ) : Option Level :=
  if cfg.scoreHigh ≤ score then some .high
  else if cfg.scoreMedium ≤ score then some .medium
  else if cfg.scoreLow ≤ score then some .observe
  else none

/-- `{t.address: t for t in tokens}`. -/
def byAddress (tokens : List TrendingToken) : Dict String TrendingToken :=
  Dict.ofPairs (tokens.map fun t => (t.address, t))

/-- The signal of one token of the current snapshot, if it has one. -/
def signal (cfg : AlphaScorer) (prevMap : Dict String TrendingToken) (risks : Dict String TokenRisk)
    (curr : Snapshot) (token : TrendingToken) : Except PyError (Option AlphaSignal) :=
  let risk := risks.get? token.address
  if (hardFilter cfg token risk).passed then do
    let scored ← score token (prevMap.get? token.address) risk
    return (level cfg scored.score).map fun l =>
      { token := scored, level := l, chain := curr.chain, interval := curr.interval
        detectedAt := curr.takenAt }
  else .ok none

/-- `detect`, but for the histogram that it logs. -/
def detect (cfg : AlphaScorer) (prev : Option Snapshot) (curr : Snapshot)
    (risks : Dict String TokenRisk) : Except PyError (List AlphaSignal) :=
  match prev with
  | none => .ok []
  | some p => do
    let found ← curr.tokens.mapM (signal cfg (byAddress p.tokens) risks curr)
    return found.reduceOption

/-! ### What a score is, and when there is one -/

variable {cfg : AlphaScorer} {token : TrendingToken} {prev : Option TrendingToken}
  {risk : Option TokenRisk} {scored : ScoredToken}

theorem Breakdown.total_nonneg (b : Breakdown) : 0 ≤ b.total := by
  unfold total
  omega

theorem Breakdown.total_le (b : Breakdown) : b.total ≤ 100 := by
  unfold total
  omega

theorem score_total (h : score token prev risk = .ok scored) :
    scored.score = scored.breakdown.total := by
  obtain ⟨smart, -, hs⟩ := bind_eq_ok.mp h
  cases hs
  rfl

theorem score_token (h : score token prev risk = .ok scored) : scored.token = token := by
  obtain ⟨smart, -, hs⟩ := bind_eq_ok.mp h
  cases hs
  rfl

/-- Only the ratio to the count of an earlier snapshot can overflow. -/
theorem score_of_no_prev (token : TrendingToken) (risk : Option TokenRisk) :
    ∃ scored, score token none risk = .ok scored := by
  have hsmart : ∃ smart, smartMoney token none = .ok smart := by
    unfold smartMoney
    split
    · exact ⟨_, rfl⟩
    · rename_i h
      cases h
    · exact ⟨_, rfl⟩
  obtain ⟨smart, hsmart⟩ := hsmart
  exact ⟨_, bind_eq_ok.mpr ⟨smart, hsmart, rfl⟩⟩

theorem detect_eq_ok {p curr : Snapshot} {risks : Dict String TokenRisk}
    {signals : List AlphaSignal} :
    detect cfg (some p) curr risks = .ok signals ↔
      ∃ found, List.Forall₂ (fun t sig => signal cfg (byAddress p.tokens) risks curr t = .ok sig)
        curr.tokens found ∧ found.reduceOption = signals := by
  simp only [detect, bind_eq_ok, mapM_eq_ok]
  constructor
  · rintro ⟨found, hf, h⟩
    exact ⟨found, hf, Except.ok.inj h⟩
  · rintro ⟨found, hf, rfl⟩
    exact ⟨found, hf, rfl⟩

end ChainMonitor.Detector
