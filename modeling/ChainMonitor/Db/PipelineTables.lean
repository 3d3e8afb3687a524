import ChainMonitor.ProofKit.Sql
import ChainMonitor.Scoring.CandidatePool
import ChainMonitor.Scoring.Ceiling

/-! The five tables that `_persist_success` writes in one transaction, with any number of
transactions open at a time. A transaction may be rolled back at any of its statements, and readers
see committed rows only. A row lock can make a statement wait, but lets no order of statements
happen that is not looked at here. -/

namespace ChainMonitor.PipelineTables

open ProofKit PipelineService Snapshots Scoring

/-- The columns of `uq_market_ticks_chain_token_ts` and its likes. -/
structure TickKey where
  chainId : String
  tokenId : String
  tsMinute : ℤ
  deriving DecidableEq

def tickKey (tick : MarketTickInput) : TickKey := ⟨tick.chainId, tick.tokenId, tick.tsMinute⟩

/-- A row of `onchain_flow_features`. -/
structure OnchainFlowFeature where
  chainId : String
  tokenId : String
  tsMinute : ℤ
  netflowUsd5m : ℚ
  netflowUsd30m : ℚ
  largeBuyCount30m : ℤ
  newHolder30m : ℤ
  holderChurn24h : ℚ

/-- A row of `risk_features`. -/
structure RiskFeature where
  chainId : String
  tokenId : String
  tsMinute : ℤ
  contractRiskScore : ℚ
  lpConcentration : ℚ
  holderConcentrationTop10 : ℚ
  washTradeScore : ℚ
  honeypotFlag : Bool

def OnchainFlowFeature.key (r : OnchainFlowFeature) : TickKey := ⟨r.chainId, r.tokenId, r.tsMinute⟩

def RiskFeature.key (r : RiskFeature) : TickKey := ⟨r.chainId, r.tokenId, r.tsMinute⟩

/-- The row of `market_ticks` for a tick. Its prices and amounts are `NUMERIC(24, 10)`. -/
def marketTick (tick : MarketTickInput) : MarketTickInput :=
  { tick with
    priceUsd := Sql.round 10 tick.priceUsd
    volume1m := Sql.round 10 tick.volume1m
    volume5m := Sql.round 10 tick.volume5m
    liquidityUsd := Sql.round 10 tick.liquidityUsd }

/-- The net flows are `NUMERIC(24, 10)`. -/
def onchainFlowFeature (feature : FeatureRowInput) : OnchainFlowFeature where
  chainId := feature.chainId
  tokenId := feature.tokenId
  tsMinute := feature.tsMinute
  netflowUsd5m := Sql.round 10 feature.netflowUsd5m
  netflowUsd30m := Sql.round 10 feature.netflowUsd30m
  largeBuyCount30m := feature.largeBuyCount30m
  newHolder30m := feature.newHolder30m
  holderChurn24h := feature.holderChurn24h

def riskFeature (feature : FeatureRowInput) : RiskFeature where
  chainId := feature.chainId
  tokenId := feature.tokenId
  tsMinute := feature.tsMinute
  contractRiskScore := feature.contractRiskScore
  lpConcentration := feature.lpConcentration
  holderConcentrationTop10 := feature.holderConcentrationTop10
  washTradeScore := feature.washTradeScore
  honeypotFlag := feature.honeypotFlag

structure Tables where
  marketTicks : Table tickKey
  onchainFlowFeatures : Table OnchainFlowFeature.key
  riskFeatures : Table RiskFeature.key
  scored : Database

def Tables.empty : Tables := ⟨.empty, .empty, .empty, ⟨.empty, .empty⟩⟩

/-! ### The statements of a transaction -/

abbrev Statement := Tables → Tables

def saveMarketTicks (batchSize : ℕ) (rows : List MarketTickInput) : List Statement :=
  (iterBatches (rows.map marketTick) batchSize).map fun batch db =>
    { db with marketTicks := db.marketTicks.upsertAll batch }

def saveFeatures (batchSize : ℕ) (rows : List FeatureRowInput) : List Statement :=
  (iterBatches rows batchSize).flatMap fun batch =>
    [fun db => { db with
      onchainFlowFeatures := db.onchainFlowFeatures.upsertAll (batch.map onchainFlowFeature) },
     fun db => { db with riskFeatures := db.riskFeatures.upsertAll (batch.map riskFeature) }]

def saveScoresAndCandidates (batchSize : ℕ) (rows : List ScoreRowInput) : List Statement :=
  (iterBatches (rows.map scorePayload) batchSize).map (fun batch db =>
    { db with scored.tokenScores := db.scored.tokenScores.upsertAll batch }) ++
  (iterBatches (candidatePayload rows) batchSize).map fun batch db =>
    { db with scored.candidatePoolSnapshots := db.scored.candidatePoolSnapshots.upsertAll batch }

/-- The last statement updates `pipeline_runs`. -/
def persistSuccess (batchSize : ℕ) (p : Payload FeatureRowInput) : List Statement :=
  saveMarketTicks batchSize p.ticks ++ saveFeatures batchSize p.features ++
    saveScoresAndCandidates batchSize p.scores ++ [id]

def execute (statements : List Statement) (db : Tables) : Tables :=
  statements.foldl (fun db statement => statement db) db

/-! ### Transactions of runs -/

/-- A transaction and the number of its statements that have been executed. -/
structure Transaction where
  payload : Payload FeatureRowInput
  executed : ℕ

/-- The committed rows, the open transactions, and the payloads of those committed, in order. -/
structure System where
  committed : Tables
  transactions : List Transaction
  history : List (Payload FeatureRowInput)

inductive Act
  | run (engine : ScoringEngine) (strategyVersion : String) (ticks : List MarketTickInput)
  | execute (i : ℕ)
  | commit (i : ℕ)
  | rollback (i : ℕ)

def created : System := ⟨.empty, [], []⟩

/-- The stages of `run_claimed` before the transaction, for ticks that have passed the gate. -/
def prepare (engine : ScoringEngine) (strategyVersion : String) (ticks : List MarketTickInput) :
    Option (Payload FeatureRowInput) :=
  let features := buildFeatures ticks
  match engine.score ticks features (some strategyVersion) with
  | .ok scores => some ⟨ticks, features, scores⟩
  | .error _ => none

def step (batchSize : ℕ) (s : System) : Act → Option System
  | .run engine strategyVersion ticks =>
    (prepare engine strategyVersion ticks).map fun payload =>
      { s with transactions := s.transactions ++ [⟨payload, 0⟩] }
  | .execute i =>
    match s.transactions[i]? with
    | some t =>
      if t.executed < (persistSuccess batchSize t.payload).length then
        some { s with transactions := s.transactions.set i { t with executed := t.executed + 1 } }
      else none
    | none => none
  | .commit i =>
    match s.transactions[i]? with
    | some t =>
      if t.executed = (persistSuccess batchSize t.payload).length then
        some {
          committed := execute ((persistSuccess batchSize t.payload).take t.executed) s.committed
          transactions := s.transactions.eraseIdx i
          history := s.history ++ [t.payload] }
      else none
    | none => none
  | .rollback i =>
    if i < s.transactions.length then
      some { s with transactions := s.transactions.eraseIdx i }
    else none

/-! ### What a transaction does -/

theorem execute_append (as bs : List Statement) (db : Tables) :
    execute (as ++ bs) db = execute bs (execute as db) :=
  List.foldl_append

section Statements

variable {batchSize : ℕ} (hb : 1 ≤ batchSize)
include hb

/-- Statements that are executed batch by batch do what they would do with all rows at once, where
the effect of some rows and then of others is that of both. -/
theorem execute_batches {α : Type*} {statements : List α → List Statement}
    (happend : ∀ as bs db,
      execute (statements (as ++ bs)) db = execute (statements bs) (execute (statements as) db))
    (hnil : ∀ db, execute (statements []) db = db) (rows : List α) (db : Tables) :
    execute ((iterBatches rows batchSize).flatMap statements) db =
      execute (statements rows) db := by
  have hfold : ∀ (batches : List (List α)) (db : Tables),
      execute (batches.flatMap statements) db = execute (statements batches.flatten) db := by
    intro batches
    induction batches with
    | nil => exact fun db => (hnil db).symm
    | cons batch batches ih =>
      intro db
      rw [List.flatMap_cons, execute_append, ih, List.flatten_cons, happend]
  rw [hfold, flatten_iterBatches _ hb]

theorem execute_saveMarketTicks (rows : List MarketTickInput) (db : Tables) :
    execute (saveMarketTicks batchSize rows) db =
      { db with marketTicks := db.marketTicks.upsertAll (rows.map marketTick) } := by
  rw [saveMarketTicks, List.map_eq_flatMap, execute_batches hb]
  · rfl
  · intro as bs db
    simp only [execute, List.foldl_cons, List.foldl_nil, Table.upsertAll_append]
  · exact fun _ => rfl

theorem execute_saveFeatures (rows : List FeatureRowInput) (db : Tables) :
    execute (saveFeatures batchSize rows) db =
      { db with
        onchainFlowFeatures := db.onchainFlowFeatures.upsertAll (rows.map onchainFlowFeature)
        riskFeatures := db.riskFeatures.upsertAll (rows.map riskFeature) } := by
  rw [saveFeatures, execute_batches hb]
  · rfl
  · intro as bs db
    simp only [execute, List.foldl_cons, List.foldl_nil, List.map_append, Table.upsertAll_append]
  · exact fun _ => rfl

theorem execute_saveScoresAndCandidates (rows : List ScoreRowInput) (db : Tables) :
    execute (saveScoresAndCandidates batchSize rows) db =
      { db with
        scored.tokenScores := db.scored.tokenScores.upsertAll (rows.map scorePayload)
        scored.candidatePoolSnapshots :=
          db.scored.candidatePoolSnapshots.upsertAll (candidatePayload rows) } := by
  rw [saveScoresAndCandidates, execute_append, List.map_eq_flatMap, List.map_eq_flatMap,
    execute_batches hb, execute_batches hb]
  · rfl
  · intro as bs db
    simp only [execute, List.foldl_cons, List.foldl_nil, Table.upsertAll_append]
  · exact fun _ => rfl
  · intro as bs db
    simp only [execute, List.foldl_cons, List.foldl_nil, Table.upsertAll_append]
  · exact fun _ => rfl

theorem execute_persistSuccess (p : Payload FeatureRowInput) (db : Tables) :
    execute (persistSuccess batchSize p) db =
      { marketTicks := db.marketTicks.upsertAll (p.ticks.map marketTick)
        onchainFlowFeatures :=
          db.onchainFlowFeatures.upsertAll (p.features.map onchainFlowFeature)
        riskFeatures := db.riskFeatures.upsertAll (p.features.map riskFeature)
        scored.tokenScores := db.scored.tokenScores.upsertAll (p.scores.map scorePayload)
        scored.candidatePoolSnapshots :=
          db.scored.candidatePoolSnapshots.upsertAll (candidatePayload p.scores) } := by
  rw [persistSuccess, execute_append, execute_append, execute_append,
    execute_saveMarketTicks hb, execute_saveFeatures hb, execute_saveScoresAndCandidates hb]
  rfl

end Statements

/-! ### Every run of the database -/

/-- A payload as the stages before the transaction make it. -/
def Prepared (p : Payload FeatureRowInput) : Prop :=
  ∃ engine strategyVersion ticks, prepare engine strategyVersion ticks = some p

/-- The committed tables are those of the committed payloads, one after the other. -/
structure Valid (batchSize : ℕ) (s : System) : Prop where
  committed : s.committed =
    s.history.foldl (fun db p => execute (persistSuccess batchSize p) db) .empty
  opened : ∀ t ∈ s.transactions, Prepared t.payload
  history : ∀ p ∈ s.history, Prepared p

section Runs

variable {batchSize : ℕ} {s s' : System} {acts : List Act}

theorem valid_created : Valid batchSize created :=
  ⟨rfl, fun _ h => (nomatch h), fun _ h => (nomatch h)⟩

theorem Valid.step {a : Act} (hv : Valid batchSize s) (h : step batchSize s a = some s') :
    Valid batchSize s' := by
  obtain ⟨hcommitted, hopened, hhistory⟩ := hv
  cases a with
  | run engine strategyVersion ticks =>
    obtain ⟨p, hp, rfl⟩ := Option.map_eq_some_iff.mp h
    refine ⟨hcommitted, fun t ht => ?_, hhistory⟩
    rcases List.mem_append.mp ht with ht | ht
    · exact hopened t ht
    · rw [List.mem_singleton.mp ht]
      exact ⟨engine, strategyVersion, ticks, hp⟩
  | execute i =>
    simp only [PipelineTables.step] at h
    split at h
    · rename_i t hi
      split at h
      · cases h
        refine ⟨hcommitted, fun u hu => ?_, hhistory⟩
        rcases List.mem_or_eq_of_mem_set hu with hu | rfl
        · exact hopened u hu
        · exact hopened t (List.mem_of_getElem? hi)
      · cases h
    · cases h
  | commit i =>
    simp only [PipelineTables.step] at h
    split at h
    · rename_i t hi
      split at h
      · rename_i hall
        cases h
        refine ⟨?_, fun u hu => hopened u (List.mem_of_mem_eraseIdx hu), fun p hp => ?_⟩
        · rw [List.foldl_append, ← hcommitted, hall, List.take_length]
          rfl
        · rcases List.mem_append.mp hp with hp | hp
          · exact hhistory p hp
          · rw [List.mem_singleton.mp hp]
            exact hopened t (List.mem_of_getElem? hi)
      · cases h
    · cases h
  | rollback i =>
    simp only [PipelineTables.step] at h
    split at h
    · cases h
      exact ⟨hcommitted, fun u hu => hopened u (List.mem_of_mem_eraseIdx hu), hhistory⟩
    · cases h

theorem reachable_valid (h : exec (step batchSize) created acts = some s) : Valid batchSize s :=
  exec_invariant (Valid batchSize) valid_created (fun _ _ _ hv hs => hv.step hs) h

/-- What a table holds under a key, if it takes in the rows `rows p` of each payload. -/
theorem get?_committed {α κ : Type*} [DecidableEq κ] {key : α → κ} (hv : Valid batchSize s)
    (part : Tables → Table key) (rows : Payload FeatureRowInput → List α)
    (hempty : part .empty = .empty)
    (hpart : ∀ p db, part (execute (persistSuccess batchSize p) db) = (part db).upsertAll (rows p))
    (k : κ) : (part s.committed).get? k = Table.lastOf key k (s.history.flatMap rows) := by
  have hfold : ∀ (history : List (Payload FeatureRowInput)) (db : Tables),
      part (history.foldl (fun db p => execute (persistSuccess batchSize p) db) db) =
        (part db).upsertAll (history.flatMap rows) := by
    intro history
    induction history with
    | nil => exact fun _ => rfl
    | cons p history ih =>
      intro db
      rw [List.foldl_cons, ih, hpart, List.flatMap_cons, Table.upsertAll_append]
  rw [hv.committed, hfold, hempty, Table.get?_upsertAll, Table.get?_empty, Option.or_none]

/-- The last tick under a key in the committed payloads. -/
def lastTick (history : List (Payload FeatureRowInput)) (k : TickKey) : Option MarketTickInput :=
  Table.lastOf tickKey k (history.flatMap (·.ticks))

theorem prepare_eq_some {engine : ScoringEngine} {strategyVersion : String}
    {ticks : List MarketTickInput} {p : Payload FeatureRowInput} :
    prepare engine strategyVersion ticks = some p ↔ p.ticks = ticks ∧
      p.features = buildFeatures ticks ∧
      engine.score ticks (buildFeatures ticks) (some strategyVersion) = .ok p.scores := by
  unfold prepare
  obtain ⟨ticks', features, scores⟩ := p
  dsimp only
  cases engine.score ticks (buildFeatures ticks) (some strategyVersion) with
  | error e => simp
  | ok rows => simp [eq_comm]

theorem Prepared.features {p : Payload FeatureRowInput} (hp : Prepared p) :
    p.features = buildFeatures p.ticks := by
  obtain ⟨engine, strategyVersion, ticks, hprepare⟩ := hp
  obtain ⟨rfl, hfeatures, -⟩ := prepare_eq_some.mp hprepare
  exact hfeatures

/-- The rows of a tick in the three tables without a strategy version are those of the last tick
under their key. -/
theorem tick_rows (hb : 1 ≤ batchSize) (hv : Valid batchSize s) (k : TickKey) :
    s.committed.marketTicks.get? k = (lastTick s.history k).map marketTick ∧
    s.committed.onchainFlowFeatures.get? k =
      (lastTick s.history k).map (fun tick => onchainFlowFeature (buildFeature tick)) ∧
    s.committed.riskFeatures.get? k =
      (lastTick s.history k).map fun tick => riskFeature (buildFeature tick) := by
  have hfeatures : s.history.flatMap (·.features) =
      (s.history.flatMap (·.ticks)).map buildFeature := by
    rw [List.map_flatMap]
    exact List.flatMap_congr fun p hp => (hv.history p hp).features
  refine ⟨?_, ?_, ?_⟩
  · rw [get?_committed hv (·.marketTicks) (fun p => p.ticks.map marketTick) rfl
      (fun p db => by rw [execute_persistSuccess hb]), ← List.map_flatMap,
      Table.lastOf_map marketTick fun _ => rfl]
    rfl
  · rw [get?_committed hv (·.onchainFlowFeatures) (fun p => p.features.map onchainFlowFeature) rfl
      (fun p db => by rw [execute_persistSuccess hb]), ← List.map_flatMap, hfeatures,
      List.map_map, Table.lastOf_map (onchainFlowFeature ∘ buildFeature) fun _ => rfl]
    rfl
  · rw [get?_committed hv (·.riskFeatures) (fun p => p.features.map riskFeature) rfl
      (fun p db => by rw [execute_persistSuccess hb]), ← List.map_flatMap, hfeatures,
      List.map_map, Table.lastOf_map (riskFeature ∘ buildFeature) fun _ => rfl]
    rfl

/-- A prepared row is that of a tick of its own payload and token. -/
theorem Prepared.scores {p : Payload FeatureRowInput} (hp : Prepared p) :
    ∃ (engine : ScoringEngine) (strategyVersion : String),
      List.Forall₂ (fun tick row => ∃ feature,
        featureOf (buildFeatures p.ticks) tick.tokenId = some feature ∧
          row = engine.scoreRow strategyVersion tick feature) p.ticks p.scores := by
  obtain ⟨engine, strategyVersion, ticks, hprepare⟩ := hp
  obtain ⟨rfl, -, hscore⟩ := prepare_eq_some.mp hprepare
  exact ⟨engine, _, (ScoringEngine.score_eq_ok.mp hscore).2⟩

/-- All scored rows become candidates. -/
theorem Prepared.candidates {p : Payload FeatureRowInput} (hp : Prepared p) :
    candidatePayload p.scores = ((ranking p.scores).zipIdx 1).map candidateRow := by
  obtain ⟨engine, strategyVersion, hscores⟩ := hp.scores
  refine candidatePayload_of_scored (e := engine) fun row hrow => ?_
  obtain ⟨tick, -, feature, -, rfl⟩ := forall₂_mem_left hscores.flip hrow
  exact ⟨strategyVersion, tick, feature, rfl⟩

theorem Prepared.mem_keys {p : Payload FeatureRowInput} (hp : Prepared p)
    {k : SnapshotKey × String} :
    k ∈ (candidatePayload p.scores).map CandidateSnapshot.key ↔
      k ∈ (p.scores.map scorePayload).map TokenScore.key := by
  have hperm : ((candidatePayload p.scores).map CandidateSnapshot.key).Perm
      ((p.scores.map scorePayload).map TokenScore.key) := by
    rw [hp.candidates, List.map_map, List.map_map]
    show (((ranking p.scores).zipIdx 1).map
      ((TokenScore.key ∘ scorePayload) ∘ Prod.fst)).Perm _
    rw [← List.map_map, List.zipIdx_map_fst]
    exact (ranking_perm p.scores).map _
  exact hperm.mem_iff

theorem score_rows (hb : 1 ≤ batchSize) (hv : Valid batchSize s) (k : SnapshotKey × String) :
    s.committed.scored.tokenScores.get? k =
      Table.lastOf TokenScore.key k (s.history.flatMap fun p => p.scores.map scorePayload) :=
  get?_committed hv (·.scored.tokenScores) _ rfl
    (fun p db => by rw [execute_persistSuccess hb]) k

theorem candidate_rows (hb : 1 ≤ batchSize) (hv : Valid batchSize s) (k : SnapshotKey × String) :
    s.committed.scored.candidatePoolSnapshots.get? k = Table.lastOf CandidateSnapshot.key k
      (s.history.flatMap fun p => candidatePayload p.scores) :=
  get?_committed hv (·.scored.candidatePoolSnapshots) _ rfl
    (fun p db => by rw [execute_persistSuccess hb]) k

/-- The candidate `c` and the score `score` come from one row of the payload, whose features are
those of the row's own tick. -/
def FromOneRow (p : Payload FeatureRowInput) (c : CandidateSnapshot) (score : TokenScore) : Prop :=
  ∃ tick ∈ p.ticks, ∃ (engine : ScoringEngine) (strategyVersion : String) (i : ℕ),
    let row := engine.scoreRow strategyVersion tick (buildFeature tick)
    (ranking p.scores)[i]? = some row ∧ c = candidateRow (row, i + 1) ∧ score = scorePayload row

/-- Every token has one tick in the payload. -/
def Distinct (p : Payload FeatureRowInput) : Prop := (p.ticks.map (·.tokenId)).Nodup

theorem featureOf_of_distinct {ticks : List MarketTickInput} {tick : MarketTickInput}
    {feature : FeatureRowInput} (hdistinct : (ticks.map (·.tokenId)).Nodup) (htick : tick ∈ ticks)
    (h : featureOf (buildFeatures ticks) tick.tokenId = some feature) :
    feature = buildFeature tick := by
  obtain ⟨tick', htick', rfl⟩ := featureOf_buildFeatures h
  have htoken : (buildFeature tick').tokenId = tick.tokenId := by simpa using List.find?_some h
  rw [List.inj_on_of_nodup_map hdistinct htick' htick htoken]

theorem Prepared.nodup_keys {p : Payload FeatureRowInput} (hp : Prepared p) (hd : Distinct p) :
    ((p.scores.map scorePayload).map TokenScore.key).Nodup := by
  obtain ⟨engine, strategyVersion, hscores⟩ := hp.scores
  have htokens : p.scores.map (·.tokenId) = p.ticks.map (·.tokenId) := by
    refine (List.forall₂_eq_eq_eq ▸ ?_ : p.ticks.map (·.tokenId) = p.scores.map (·.tokenId)).symm
    rw [List.forall₂_map_left_iff, List.forall₂_map_right_iff]
    refine hscores.imp fun tick row h => ?_
    obtain ⟨feature, -, rfl⟩ := h
    rfl
  refine List.Nodup.of_map Prod.snd ?_
  rw [List.map_map, List.map_map]
  exact (htokens ▸ hd : (p.scores.map (·.tokenId)).Nodup)

theorem Prepared.fromOneRow {p : Payload FeatureRowInput} (hp : Prepared p) (hd : Distinct p)
    {k : SnapshotKey × String} {c : CandidateSnapshot}
    (hc : Table.lastOf CandidateSnapshot.key k (candidatePayload p.scores) = some c) :
    ∃ score, Table.lastOf TokenScore.key k (p.scores.map scorePayload) = some score ∧
      FromOneRow p c score := by
  obtain ⟨hmem, rfl⟩ := Table.mem_of_lastOf hc
  rw [hp.candidates] at hmem
  obtain ⟨⟨row, rank⟩, hrank, rfl⟩ := List.mem_map.mp hmem
  obtain ⟨hle, hrow⟩ := List.mk_mem_zipIdx_iff_le_and_getElem?_sub.mp hrank
  have hin : row ∈ p.scores := (ranking_perm p.scores).mem_iff.mp (List.mem_of_getElem? hrow)
  obtain ⟨engine, strategyVersion, hscores⟩ := hp.scores
  obtain ⟨tick, htick, feature, hfeature, rfl⟩ := forall₂_mem_left hscores.flip hin
  obtain rfl := featureOf_of_distinct hd htick hfeature
  refine ⟨_, (Table.lastOf_eq_some (hp.nodup_keys hd)).mpr ⟨List.mem_map_of_mem hin, rfl⟩,
    tick, htick, engine, strategyVersion, rank - 1, hrow, ?_, rfl⟩
  rw [Nat.sub_add_cancel hle]

/-- The candidate and the score under a key come from the last payload that has the key. -/
theorem fromOneRow_of_history {history : List (Payload FeatureRowInput)}
    (hp : ∀ p ∈ history, Prepared p) (hd : ∀ p ∈ history, Distinct p) {k : SnapshotKey × String}
    {c : CandidateSnapshot}
    (hc : Table.lastOf CandidateSnapshot.key k
      (history.flatMap fun p => candidatePayload p.scores) = some c) :
    ∃ p ∈ history, ∃ score, FromOneRow p c score ∧ Table.lastOf TokenScore.key k
      (history.flatMap fun p => p.scores.map scorePayload) = some score := by
  induction history using List.reverseRecOn with
  | nil => cases hc
  | append_singleton history p ih =>
    simp only [List.flatMap_append, List.flatMap_singleton, Table.lastOf_append] at hc ⊢
    have hlast : Prepared p := hp p (by simp)
    rcases Option.or_eq_some_iff.mp hc with hnew | ⟨hnone, hold⟩
    · obtain ⟨score, hscore, hrow⟩ := hlast.fromOneRow (hd p (by simp)) hnew
      exact ⟨p, by simp, score, hrow, by rw [hscore]; rfl⟩
    · obtain ⟨q, hq, score, hrow, hscore⟩ := ih (fun q hq => hp q (by simp [hq]))
        (fun q hq => hd q (by simp [hq])) hold
      refine ⟨q, by simp [hq], score, hrow, ?_⟩
      have hnot : Table.lastOf TokenScore.key k (p.scores.map scorePayload) = none := by
        rw [← Option.not_isSome_iff_eq_none, Table.isSome_lastOf, ← hlast.mem_keys,
          ← Table.isSome_lastOf, hnone]
        simp
      rw [hnot]
      exact hscore

/-- A scored token has a tick. -/
theorem isSome_lastTick {history : List (Payload FeatureRowInput)}
    (hp : ∀ p ∈ history, Prepared p) {k : SnapshotKey} {token : String}
    (h : (Table.lastOf TokenScore.key (k, token)
      (history.flatMap fun p => p.scores.map scorePayload)).isSome) :
    (lastTick history ⟨k.chainId, token, k.tsMinute⟩).isSome := by
  obtain ⟨score, hscore⟩ := Option.isSome_iff_exists.mp h
  obtain ⟨hmem, hkey⟩ := Table.mem_of_lastOf hscore
  obtain ⟨p, hin, hpayload⟩ := List.mem_flatMap.mp hmem
  obtain ⟨row, hrow, rfl⟩ := List.mem_map.mp hpayload
  obtain ⟨engine, strategyVersion, hscores⟩ := (hp p hin).scores
  obtain ⟨tick, htick, feature, -, rfl⟩ := forall₂_mem_left hscores.flip hrow
  obtain ⟨rfl, rfl⟩ := Prod.mk.inj hkey
  exact Table.isSome_lastOf.mpr
    (List.mem_map_of_mem (f := tickKey) (List.mem_flatMap.mpr ⟨p, hin, htick⟩))

/-- Whatever transactions commit or are rolled back, and at which statement: the rows of a token in
a minute in `market_ticks`, `onchain_flow_features` and `risk_features` are those of one tick, the
last one committed; every row of `token_scores` has such rows and a candidate, and every candidate a
score; and if no committed run had two ticks of one token, a candidate and its score are of one
row of one run, scored with the features of its own tick. -/
theorem tables_agree (hb : 1 ≤ batchSize) (h : exec (step batchSize) created acts = some s) :
    (∀ k, s.committed.marketTicks.get? k = (lastTick s.history k).map marketTick ∧
      s.committed.onchainFlowFeatures.get? k =
        (lastTick s.history k).map (fun tick => onchainFlowFeature (buildFeature tick)) ∧
      s.committed.riskFeatures.get? k =
        (lastTick s.history k).map fun tick => riskFeature (buildFeature tick)) ∧
    (∀ k token, ((s.committed.scored.tokenScores.get? (k, token)).isSome ↔
        (s.committed.scored.candidatePoolSnapshots.get? (k, token)).isSome) ∧
      ((s.committed.scored.tokenScores.get? (k, token)).isSome →
        (lastTick s.history ⟨k.chainId, token, k.tsMinute⟩).isSome)) ∧
    ((∀ p ∈ s.history, Distinct p) → ∀ c ∈ s.committed.scored.candidatePoolSnapshots.rows,
      ∃ p ∈ s.history, ∃ score, FromOneRow p c score ∧
        s.committed.scored.tokenScores.get? c.key = some score) := by
  have hv := reachable_valid h
  refine ⟨tick_rows hb hv, fun k token => ⟨?_, fun hscore => ?_⟩, fun hd c hc => ?_⟩
  · rw [score_rows hb hv, candidate_rows hb hv, Table.isSome_lastOf, Table.isSome_lastOf]
    simp only [List.map_flatMap, List.mem_flatMap]
    exact exists_congr fun p => and_congr_right fun hp => (hv.history p hp).mem_keys.symm
  · rw [score_rows hb hv] at hscore
    exact isSome_lastTick hv.history hscore
  · have hlast : s.committed.scored.candidatePoolSnapshots.get? c.key = some c :=
      Table.get?_eq_some.mpr ⟨hc, rfl⟩
    rw [candidate_rows hb hv] at hlast
    rw [score_rows hb hv]
    exact fromOneRow_of_history hv.history hd hlast

end Runs

/-- Two runs of one minute, of which the second is rolled back after a statement. -/
def rolledBack : List Act :=
  [.run defaultEngine "v1" [quietTick], .run defaultEngine "v1" [quietTick]] ++
    List.replicate 6 (.execute 0) ++ [.commit 0, .execute 0, .rollback 0]

theorem tables_agree_rolledBack : ∃ s, exec (step 100) created rolledBack = some s ∧
    ∀ c ∈ s.committed.scored.candidatePoolSnapshots.rows, ∃ p ∈ s.history, ∃ score,
      FromOneRow p c score ∧ s.committed.scored.tokenScores.get? c.key = some score := by
  have hone : (exec (step 100) created rolledBack).map
      (fun s => s.history.map fun p => p.ticks.map (·.tokenId)) = some [["a"]] := by decide +kernel
  obtain ⟨s, hs, htokens⟩ := Option.map_eq_some_iff.mp hone
  have hdistinct : ∀ p ∈ s.history, Distinct p := by
    intro p hp
    have hmem := List.mem_map_of_mem (f := fun p : Payload FeatureRowInput =>
      p.ticks.map (·.tokenId)) hp
    rw [htokens, List.mem_singleton] at hmem
    rw [Distinct, hmem]
    exact List.nodup_singleton "a"
  exact ⟨s, hs, (tables_agree (by decide) hs).2.2 hdistinct⟩

end ChainMonitor.PipelineTables
