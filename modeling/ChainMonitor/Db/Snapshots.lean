import ChainMonitor.ProofKit.Ranking
import ChainMonitor.ProofKit.Table
import Mathlib.Algebra.Order.Ring.Rat
import Mathlib.Data.List.Induction

/-! `PipelineRepository.save_scores_and_candidates` of `shared/db/repository.py`, and the tables
`token_scores` and `candidate_pool_snapshots` that it writes. Timestamps are minutes, and scores are
rational numbers. -/

namespace ChainMonitor.Snapshots

open ProofKit

/-- What the runs and replays of one minute share. -/
structure SnapshotKey where
  strategyVersion : String
  chainId : String
  tsMinute : ℤ
  deriving DecidableEq

structure ScoreRowInput where
  strategyVersion : String
  chainId : String
  tokenId : String
  tsMinute : ℤ
  alphaScore : ℚ
  momentumScore : ℚ
  smartMoneyScore : ℚ
  narrativeScore : ℚ
  riskPenalty : ℚ
  finalScore : ℚ
  conviction : ℚ
  confidence : ℚ
  tier : String
  reasonCodes : List String
  deriving DecidableEq

/-- A row of `token_scores`. -/
structure TokenScore where
  strategyVersion : String
  chainId : String
  tokenId : String
  tsMinute : ℤ
  alphaScore : ℚ
  momentumScore : ℚ
  smartMoneyScore : ℚ
  narrativeScore : ℚ
  riskPenalty : ℚ
  finalScore : ℚ
  conviction : ℚ
  confidence : ℚ
  deriving DecidableEq

/-- A row of `candidate_pool_snapshots`. -/
structure CandidateSnapshot where
  tsMinute : ℤ
  strategyVersion : String
  chainId : String
  tokenId : String
  tier : String
  rank : ℕ
  reasonCodes : List String
  deriving DecidableEq

def ScoreRowInput.snapshot (row : ScoreRowInput) : SnapshotKey :=
  ⟨row.strategyVersion, row.chainId, row.tsMinute⟩

def CandidateSnapshot.snapshot (r : CandidateSnapshot) : SnapshotKey :=
  ⟨r.strategyVersion, r.chainId, r.tsMinute⟩

/-- The columns of `uq_token_scores_strategy_chain_token_ts`. -/
def TokenScore.key (r : TokenScore) : SnapshotKey × String :=
  (⟨r.strategyVersion, r.chainId, r.tsMinute⟩, r.tokenId)

/-- The columns of `uq_candidate_pool_snapshots_strategy_chain_token_ts`. -/
def CandidateSnapshot.key (r : CandidateSnapshot) : SnapshotKey × String := (r.snapshot, r.tokenId)

structure Database where
  tokenScores : Table TokenScore.key
  candidatePoolSnapshots : Table CandidateSnapshot.key

/-- `_iter_batches`. -/
def iterBatches {α : Type*} (rows : List α) (batchSize : ℕ) : List (List α) :=
  (List.range ((rows.length + batchSize - 1) / batchSize)).map fun i =>
    (rows.drop (i * batchSize)).take batchSize

/-- One `execute` of an upsert statement for each batch of rows. -/
def executeBatches {α κ : Type*} [DecidableEq κ] {key : α → κ} (batchSize : ℕ) (rows : List α)
    (t : Table key) : Table key :=
  (iterBatches rows batchSize).foldl (fun t batch => t.upsertAll batch) t

def ranking (rows : List ScoreRowInput) : List ScoreRowInput :=
  rows.insertionSort fun a b => b.conviction ≤ a.conviction

def isCandidate (row : ScoreRowInput) : Bool := row.tier = "A" ∨ row.tier = "B" ∨ row.tier = "C"

/-- A row of `score_payload`. -/
def scorePayload (row : ScoreRowInput) : TokenScore where
  strategyVersion := row.strategyVersion
  chainId := row.chainId
  tokenId := row.tokenId
  tsMinute := row.tsMinute
  alphaScore := row.alphaScore
  momentumScore := row.momentumScore
  smartMoneyScore := row.smartMoneyScore
  narrativeScore := row.narrativeScore
  riskPenalty := row.riskPenalty
  finalScore := row.finalScore
  conviction := row.conviction
  confidence := row.confidence

/-- The row of a token and its rank. The reason codes are stored as the JSON array of the list. -/
def candidateRow (e : ScoreRowInput × ℕ) : CandidateSnapshot where
  tsMinute := e.1.tsMinute
  strategyVersion := e.1.strategyVersion
  chainId := e.1.chainId
  tokenId := e.1.tokenId
  tier := e.1.tier
  rank := e.2
  reasonCodes := e.1.reasonCodes

/-- The ranks count every scored token, and then the candidates are picked out. -/
def candidatePayload (rows : List ScoreRowInput) : List CandidateSnapshot :=
  (placed isCandidate (ranking rows) 1).map candidateRow

def saveScoresAndCandidates (batchSize : ℕ) (rows : List ScoreRowInput) (db : Database) :
    Database :=
  if rows = [] then db
  else {
    tokenScores := executeBatches batchSize (rows.map scorePayload) db.tokenScores
    candidatePoolSnapshots :=
      executeBatches batchSize (candidatePayload rows) db.candidatePoolSnapshots }

/-! ### What one save writes -/

/-- The first `m` batches hold the first `m * n` rows. -/
theorem flatten_batches {α : Type*} (rows : List α) (n m : ℕ) :
    ((List.range m).map fun i => (rows.drop (i * n)).take n).flatten = rows.take (m * n) := by
  induction m with
  | zero => simp
  | succ m ih =>
    rw [List.range_succ, List.map_append, List.flatten_append, ih, Nat.succ_mul, List.take_add]
    simp

theorem flatten_iterBatches {α : Type*} (rows : List α) {n : ℕ} (hn : 1 ≤ n) :
    (iterBatches rows n).flatten = rows := by
  have hlt := Nat.lt_mul_div_succ (rows.length + n - 1) (show 0 < n by omega)
  rw [iterBatches, flatten_batches]
  apply List.take_of_length_le
  rw [Nat.mul_add, Nat.mul_one] at hlt
  rw [Nat.mul_comm]
  omega

theorem executeBatches_eq {α κ : Type*} [DecidableEq κ] {key : α → κ} (rows : List α)
    (t : Table key) {n : ℕ} (hn : 1 ≤ n) : executeBatches n rows t = t.upsertAll rows := by
  have hfold : ∀ (bs : List (List α)) (t : Table key),
      bs.foldl (fun t batch => t.upsertAll batch) t = t.upsertAll bs.flatten := by
    intro bs
    induction bs with
    | nil => exact fun _ => rfl
    | cons b bs ih =>
      intro t
      rw [List.foldl_cons, ih, List.flatten_cons, Table.upsertAll_append]
  rw [executeBatches, hfold, flatten_iterBatches rows hn]

section Save

variable {rows : List ScoreRowInput} {k : SnapshotKey} {db : Database}

theorem ranking_perm (rows : List ScoreRowInput) : (ranking rows).Perm rows :=
  List.perm_insertionSort _ rows

theorem ranking_pairwise (rows : List ScoreRowInput) :
    (ranking rows).Pairwise fun a b => b.conviction ≤ a.conviction :=
  List.pairwise_insertionSort _ rows

/-- The tokens whose rows a save writes. -/
def candidateTokens (rows : List ScoreRowInput) : List String :=
  (rows.filter isCandidate).map (·.tokenId)

theorem exists_of_mem_candidatePayload {r : CandidateSnapshot} (hr : r ∈ candidatePayload rows) :
    ∃ row ∈ rows, ∃ rank, r = candidateRow (row, rank) := by
  obtain ⟨⟨row, rank⟩, he, rfl⟩ := List.mem_map.mp hr
  have hmem : row ∈ (ranking rows).filter isCandidate := by
    rw [← map_fst_placed 1]
    exact List.mem_map_of_mem he
  exact ⟨row, (ranking_perm rows).mem_iff.mp (List.mem_of_mem_filter hmem), rank, rfl⟩

theorem mem_candidatePayload_snapshot (hk : ∀ row ∈ rows, row.snapshot = k) {r : CandidateSnapshot}
    (hr : r ∈ candidatePayload rows) : r.snapshot = k := by
  obtain ⟨row, hrow, rank, rfl⟩ := exists_of_mem_candidatePayload hr
  exact hk row hrow

theorem map_tokenId_candidatePayload (rows : List ScoreRowInput) :
    (candidatePayload rows).map (·.tokenId) =
      ((ranking rows).filter isCandidate).map (·.tokenId) := by
  rw [← map_fst_placed 1, candidatePayload, List.map_map, List.map_map]
  rfl

theorem map_key_candidatePayload (hk : ∀ row ∈ rows, row.snapshot = k) :
    (candidatePayload rows).map CandidateSnapshot.key =
      ((candidatePayload rows).map (·.tokenId)).map fun token => (k, token) := by
  rw [List.map_map]
  refine List.map_congr_left fun r hr => ?_
  rw [CandidateSnapshot.key, mem_candidatePayload_snapshot hk hr]
  rfl

theorem tokens_perm (rows : List ScoreRowInput) :
    ((candidatePayload rows).map (·.tokenId)).Perm (candidateTokens rows) := by
  rw [map_tokenId_candidatePayload]
  exact ((ranking_perm rows).filter _).map _

theorem mem_keys_candidatePayload (hk : ∀ row ∈ rows, row.snapshot = k) {token : String} :
    (k, token) ∈ (candidatePayload rows).map CandidateSnapshot.key ↔
      token ∈ candidateTokens rows := by
  rw [map_key_candidatePayload hk, ← (tokens_perm rows).mem_iff]
  simp

theorem save_candidates {batchSize : ℕ} (hb : 1 ≤ batchSize) (rows : List ScoreRowInput)
    (db : Database) :
    (saveScoresAndCandidates batchSize rows db).candidatePoolSnapshots =
      db.candidatePoolSnapshots.upsertAll (candidatePayload rows) := by
  unfold saveScoresAndCandidates
  split
  · rename_i h
    subst h
    rfl
  · exact executeBatches_eq _ _ hb

/-! ### The snapshot after a sequence of runs -/

/-- The rows of a snapshot are the candidates of `rows`, ranked `1..n` by conviction. -/
def ExactSnapshot (k : SnapshotKey) (rows : List ScoreRowInput) (db : Database) : Prop :=
  ∃ l : List ScoreRowInput, l.Perm (rows.filter isCandidate) ∧
    l.Pairwise (fun a b => b.conviction ≤ a.conviction) ∧
    (db.candidatePoolSnapshots.rows.filter fun r => r.snapshot = k).Perm
      ((l.zipIdx 1).map candidateRow)

/-- The database after the successful runs and replays `runs`. -/
def saveAll (batchSize : ℕ) (runs : List (List ScoreRowInput)) (db : Database) : Database :=
  runs.foldl (fun db rows => saveScoresAndCandidates batchSize rows db) db

theorem saveAll_concat (batchSize : ℕ) (runs : List (List ScoreRowInput))
    (last : List ScoreRowInput) (db : Database) : saveAll batchSize (runs ++ [last]) db =
      saveScoresAndCandidates batchSize last (saveAll batchSize runs db) := by
  rw [saveAll, List.foldl_append]
  rfl

/-- The tokens of a snapshot are those that some run had as a candidate, as nothing deletes them. -/
theorem mem_keys_saveAll {batchSize : ℕ} (hb : 1 ≤ batchSize) {runs : List (List ScoreRowInput)}
    (hk : ∀ rows ∈ runs, ∀ row ∈ rows, row.snapshot = k) {token : String} :
    (k, token) ∈ (saveAll batchSize runs db).candidatePoolSnapshots.keys ↔
      (∃ rows ∈ runs, token ∈ candidateTokens rows) ∨
        (k, token) ∈ db.candidatePoolSnapshots.keys := by
  induction runs using List.reverseRecOn with
  | nil => simp [saveAll]
  | append_singleton runs last ih =>
    have hlast : ∀ row ∈ last, row.snapshot = k := hk last (by simp)
    have hruns := ih fun rows hrows => hk rows (by simp [hrows])
    rw [saveAll_concat, save_candidates hb, Table.mem_keys_upsertAll,
      mem_keys_candidatePayload hlast, hruns]
    simp only [List.mem_append, List.mem_singleton]
    constructor
    · rintro (h | ⟨rows, hrows, h⟩ | h)
      · exact .inl ⟨last, .inr rfl, h⟩
      · exact .inl ⟨rows, .inl hrows, h⟩
      · exact .inr h
    · rintro (⟨rows, hrows | rfl, h⟩ | h)
      · exact .inr (.inl ⟨rows, hrows, h⟩)
      · exact .inl h
      · exact .inr (.inr h)

/-- The candidates are told apart by their tokens, every token of the snapshot before is one of
them, and no other token is ranked before one of them. -/
structure Clean (k : SnapshotKey) (rows : List ScoreRowInput) (db : Database) : Prop where
  distinct : (candidateTokens rows).Nodup
  covers : ∀ token, (k, token) ∈ db.candidatePoolSnapshots.keys → token ∈ candidateTokens rows
  first : SelectedFirst isCandidate (ranking rows)

theorem keys_nodup (hk : ∀ row ∈ rows, row.snapshot = k) (hd : (candidateTokens rows).Nodup) :
    ((candidatePayload rows).map CandidateSnapshot.key).Nodup := by
  rw [map_key_candidatePayload hk]
  exact ((tokens_perm rows).nodup_iff.mpr hd).map fun _ _ h => (Prod.mk.inj h).2

theorem exactSnapshot_of_clean {batchSize : ℕ} (hb : 1 ≤ batchSize)
    (hk : ∀ row ∈ rows, row.snapshot = k) (h : Clean k rows db) :
    ExactSnapshot k rows (saveScoresAndCandidates batchSize rows db) := by
  have hkeys := keys_nodup hk h.distinct
  refine ⟨(ranking rows).filter isCandidate, (ranking_perm rows).filter _,
    (ranking_pairwise rows).filter _, ?_⟩
  rw [← placed_eq h.first, save_candidates hb]
  refine (List.perm_ext_iff_of_nodup ((Table.nodup_rows _).filter _) (hkeys.of_map _)).mpr ?_
  intro r
  rw [List.mem_filter, Table.mem_upsertAll hkeys, decide_eq_true_eq]
  constructor
  · rintro ⟨hr | ⟨hr, hnot⟩, hsnap⟩
    · exact hr
    · have hkey : r.key = (k, r.tokenId) := by rw [CandidateSnapshot.key, hsnap]
      have hold : (k, r.tokenId) ∈ db.candidatePoolSnapshots.keys :=
        hkey ▸ List.mem_map_of_mem hr
      rw [hkey, mem_keys_candidatePayload hk] at hnot
      exact absurd (h.covers _ hold) hnot
  · exact fun hr => ⟨.inl hr, mem_candidatePayload_snapshot hk hr⟩

theorem clean_of_exactSnapshot {batchSize : ℕ} (hb : 1 ≤ batchSize)
    (hk : ∀ row ∈ rows, row.snapshot = k)
    (h : ExactSnapshot k rows (saveScoresAndCandidates batchSize rows db)) : Clean k rows db := by
  obtain ⟨l, hl, -, hrows⟩ := h
  rw [save_candidates hb] at hrows
  have htokens : ((db.candidatePoolSnapshots.upsertAll (candidatePayload rows)).rows.filter
      fun r => r.snapshot = k).map (·.tokenId) |>.Perm (candidateTokens rows) := by
    refine (hrows.map _).trans ?_
    rw [List.map_map]
    show ((l.zipIdx 1).map ((·.tokenId) ∘ Prod.fst)).Perm _
    rw [← List.map_map, List.zipIdx_map_fst]
    exact hl.map _
  have hdistinct : (candidateTokens rows).Nodup := by
    refine htokens.nodup_iff.mp (((Table.nodup_rows _).filter _).map_on fun r hr r' hr' he => ?_)
    rw [List.mem_filter, decide_eq_true_eq] at hr hr'
    refine List.inj_on_of_nodup_map (Table.unique _) hr.1 hr'.1 ?_
    rw [CandidateSnapshot.key, CandidateSnapshot.key, hr.2, hr'.2, he]
  refine ⟨hdistinct, fun token htoken => ?_, selectedFirst_of_index_lt fun i a hi hp => ?_⟩
  · have hkept : (k, token) ∈
        (db.candidatePoolSnapshots.upsertAll (candidatePayload rows)).keys :=
      Table.mem_keys_upsertAll.mpr (.inr htoken)
    obtain ⟨r, hr, hkey⟩ := List.mem_map.mp hkept
    obtain ⟨hsnap, rfl⟩ := Prod.mk.inj hkey
    exact htokens.mem_iff.mp (List.mem_map_of_mem (List.mem_filter.mpr ⟨hr, by simpa using hsnap⟩))
  · have hmem : candidateRow (a, 1 + i) ∈ candidatePayload rows :=
      List.mem_map_of_mem (mem_placed hi hp 1)
    have hstored := (Table.mem_upsertAll (t := db.candidatePoolSnapshots)
      (keys_nodup hk hdistinct)).mpr (.inl hmem)
    have hranked := hrows.mem_iff.mp (List.mem_filter.mpr
      ⟨hstored, by simpa using mem_candidatePayload_snapshot hk hmem⟩)
    obtain ⟨⟨b, j⟩, hj, he⟩ := List.mem_map.mp hranked
    have hrank : j = 1 + i := congrArg CandidateSnapshot.rank he
    have hbound := (List.mem_zipIdx hj).2.1
    have hlen := (hl.trans ((ranking_perm rows).symm.filter _)).length_eq
    omega

/-- After runs and replays of one snapshot, into a database that had none of its rows, the rows are
those of the last run exactly when the last run's candidates have different tokens, every token that
an earlier run had as a candidate is one of them, and the last run ranked no other token before one
of them. -/
theorem snapshot_exact_iff {batchSize : ℕ} (hb : 1 ≤ batchSize)
    (hfresh : ∀ token, (k, token) ∉ db.candidatePoolSnapshots.keys)
    {runs : List (List ScoreRowInput)} {last : List ScoreRowInput}
    (hk : ∀ rows ∈ runs ++ [last], ∀ row ∈ rows, row.snapshot = k) :
    ExactSnapshot k last (saveAll batchSize (runs ++ [last]) db) ↔
      (candidateTokens last).Nodup ∧
      (∀ rows ∈ runs, ∀ token ∈ candidateTokens rows, token ∈ candidateTokens last) ∧
      SelectedFirst isCandidate (ranking last) := by
  have hlast : ∀ row ∈ last, row.snapshot = k := hk last (by simp)
  have hruns : ∀ rows ∈ runs, ∀ row ∈ rows, row.snapshot = k :=
    fun rows hrows => hk rows (by simp [hrows])
  rw [saveAll_concat]
  constructor
  · intro h
    obtain ⟨hdistinct, hcovers, hfirst⟩ := clean_of_exactSnapshot hb hlast h
    refine ⟨hdistinct, fun rows hrows token htoken => hcovers token ?_, hfirst⟩
    exact (mem_keys_saveAll hb hruns).mpr (.inl ⟨rows, hrows, htoken⟩)
  · rintro ⟨hdistinct, hcovers, hfirst⟩
    refine exactSnapshot_of_clean hb hlast ⟨hdistinct, fun token htoken => ?_, hfirst⟩
    rcases (mem_keys_saveAll hb hruns).mp htoken with ⟨rows, hrows, h⟩ | h
    · exact hcovers rows hrows token h
    · exact absurd h (hfresh token)

end Save

/-! ### A replay that drops a token -/

/-- A row of minute 0 that differs from others in its token, its conviction and its tier. -/
def scored (tokenId : String) (conviction : ℚ) (tier : String) : ScoreRowInput :=
  ⟨"v1", "sol", tokenId, 0, 0, 0, 0, 0, 0, 0, conviction, 1, tier, []⟩

def firstRun : List ScoreRowInput := [scored "a" 90 "A", scored "b" 80 "B"]

def replayed : List ScoreRowInput := [scored "b" 85 "A"]

def noRows : Database := ⟨Table.empty, Table.empty⟩

theorem snapshot_exact_replayed :
    ExactSnapshot ⟨"v1", "sol", 0⟩ replayed (saveAll 100 ([firstRun] ++ [replayed]) noRows) ↔
      (candidateTokens replayed).Nodup ∧
      (∀ rows ∈ [firstRun], ∀ token ∈ candidateTokens rows, token ∈ candidateTokens replayed) ∧
      SelectedFirst isCandidate (ranking replayed) :=
  snapshot_exact_iff (by decide) (by simp [noRows, Table.empty, Table.keys]) (by decide +kernel)

/-- The replay has one candidate, and the snapshot keeps the row of the token that it dropped. -/
theorem stale_candidate :
    ¬ ∀ (batchSize : ℕ) (k : SnapshotKey) (db : Database) (runs : List (List ScoreRowInput))
        (last : List ScoreRowInput),
      1 ≤ batchSize → (∀ token, (k, token) ∉ db.candidatePoolSnapshots.keys) →
      (∀ rows ∈ runs ++ [last], ∀ row ∈ rows, row.snapshot = k) →
      ExactSnapshot k last (saveAll batchSize (runs ++ [last]) db) := by
  intro h
  obtain ⟨l, hl, -, hrows⟩ := h 100 ⟨"v1", "sol", 0⟩ noRows [firstRun] replayed (by decide)
    (by simp [noRows, Table.empty, Table.keys]) (by decide +kernel)
  have hlen := hrows.length_eq
  rw [List.length_map, List.length_zipIdx, hl.length_eq] at hlen
  exact absurd hlen (by decide +kernel)

end ChainMonitor.Snapshots
