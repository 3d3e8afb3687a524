import ChainMonitor.Scoring.ScoringEngine

/-! Which scored rows become candidates: the tier that `_tier` gives, the selection by tier and the
ranks of `save_scores_and_candidates`, and the count that `run_claimed` reports. -/

namespace ChainMonitor.Scoring

open ProofKit PipelineService Snapshots

/-- A row that the engine computes for some tick and some features. -/
def ScoringEngine.Scored (e : ScoringEngine) (row : ScoreRowInput) : Prop :=
  ∃ strategyVersion tick feature, row = e.scoreRow strategyVersion tick feature

/-- The rows of the candidate inserts of a save, batch after batch. -/
def writtenCandidates (batchSize : ℕ) (rows : List ScoreRowInput) : List CandidateSnapshot :=
  (iterBatches (candidatePayload rows) batchSize).flatten

variable {φ : Type*} {c : ℚ} {batchSize : ℕ} {e : ScoringEngine} {rows l : List ScoreRowInput}

/-- The candidates of a payload, in the order of their ranks `1..m`, are the rows from the
conviction `c` on. -/
structure IsPool (c : ℚ) (batchSize : ℕ) (p : Payload φ) (l : List ScoreRowInput) : Prop where
  members : l.Perm (p.scores.filter fun row => c ≤ row.conviction)
  falling : l.Pairwise fun a b => b.conviction ≤ a.conviction
  written : writtenCandidates batchSize p.scores = (l.zipIdx 1).map candidateRow
  counted : p.candidateCount = l.length

theorem scored_of_score {ticks : List MarketTickInput} {features : List FeatureRowInput}
    {strategyVersion : Option String} (h : e.score ticks features strategyVersion = .ok rows) :
    ∀ row ∈ rows, e.Scored row := by
  intro row hrow
  obtain ⟨-, hrows⟩ := ScoringEngine.score_eq_ok.mp h
  obtain ⟨tick, -, feature, -, rfl⟩ := forall₂_mem_left hrows.flip hrow
  exact ⟨_, tick, feature, rfl⟩

theorem writtenCandidates_eq (hb : 1 ≤ batchSize) (rows : List ScoreRowInput) :
    writtenCandidates batchSize rows = candidatePayload rows :=
  flatten_iterBatches _ hb

/-- A save puts the written rows over those of the table. -/
theorem save_written (hb : 1 ≤ batchSize) (rows : List ScoreRowInput) (db : Database) :
    (saveScoresAndCandidates batchSize rows db).candidatePoolSnapshots =
      db.candidatePoolSnapshots.upsertAll (writtenCandidates batchSize rows) := by
  rw [writtenCandidates_eq hb, save_candidates hb]

/-! ### The filter passes every scored row -/

theorem tier_cases (e : ScoringEngine) (x : ℚ) :
    e.tier x = "A" ∨ e.tier x = "B" ∨ e.tier x = "C" := by
  unfold ScoringEngine.tier
  split
  · simp
  · split
    · simp
    · split
      · simp
      · simp

theorem isCandidate_of_scored {row : ScoreRowInput} (h : e.Scored row) :
    isCandidate row = true := by
  obtain ⟨strategyVersion, tick, feature, rfl⟩ := h
  rw [isCandidate, decide_eq_true_iff, scoreRow_tier]
  exact tier_cases e _

/-- Every scored row is written, with its place in the ranking. -/
theorem candidatePayload_of_scored (h : ∀ row ∈ rows, e.Scored row) :
    candidatePayload rows = ((ranking rows).zipIdx 1).map candidateRow := by
  have hall : ∀ row ∈ ranking rows, isCandidate row = true := by
    intro row hrow
    exact isCandidate_of_scored (h row ((ranking_perm rows).mem_iff.mp hrow))
  have hfirst : SelectedFirst isCandidate (ranking rows) :=
    List.pairwise_of_forall_mem_list fun row hrow _ _ _ => hall row hrow
  rw [candidatePayload, placed_eq hfirst, List.filter_eq_self.mpr hall]

theorem candidateCount_of_scored {p : Payload φ} (h : ∀ row ∈ p.scores, e.Scored row) :
    p.candidateCount = p.scores.length :=
  List.countP_eq_length.mpr fun row hrow => isCandidate_of_scored (h row hrow)

/-- The candidates are the rows from the threshold of tier C on, ranked by conviction, exactly when
every scored row is one of these. -/
theorem isPool_iff (hb : 1 ≤ batchSize) {p : Payload φ} (hscored : ∀ row ∈ p.scores, e.Scored row) :
    (∃ l, IsPool e.settings.tierCThreshold batchSize p l) ↔
      ∀ row ∈ p.scores, e.settings.tierCThreshold ≤ row.conviction := by
  constructor
  · rintro ⟨l, hl⟩
    have hlen : (p.scores.filter fun row => e.settings.tierCThreshold ≤ row.conviction).length =
        p.scores.length := by
      rw [← hl.members.length_eq, ← hl.counted, candidateCount_of_scored hscored]
    intro row hrow
    exact of_decide_eq_true (List.length_filter_eq_length_iff.mp hlen row hrow)
  · intro hall
    have hmembers : (p.scores.filter fun row => e.settings.tierCThreshold ≤ row.conviction) =
        p.scores := List.filter_eq_self.mpr fun row hrow => decide_eq_true (hall row hrow)
    refine ⟨ranking p.scores, ?_, ranking_pairwise p.scores, ?_, ?_⟩
    · rw [hmembers]
      exact ranking_perm p.scores
    · rw [writtenCandidates_eq hb, candidatePayload_of_scored hscored]
    · rw [candidateCount_of_scored hscored, (ranking_perm p.scores).length_eq]

/-! ### A candidate below every tier -/

/-- A minute without trades. -/
def quietTick : MarketTickInput := ⟨"sol", "a", 0, 1, 0, 0, 0, 0, 0, 0⟩

def quietRow : ScoreRowInput := defaultEngine.scoreRow "v1" quietTick (buildFeature quietTick)

def quietPayload : Payload FeatureRowInput :=
  ⟨[quietTick], buildFeatures [quietTick], [quietRow]⟩

theorem score_quietTick : defaultEngine.score quietPayload.ticks quietPayload.features none =
    .ok quietPayload.scores :=
  ScoringEngine.score_eq_ok.mpr ⟨by decide, .cons ⟨_, rfl, rfl⟩ .nil⟩

theorem isPool_quiet :
    (∃ l, IsPool defaultEngine.settings.tierCThreshold 100 quietPayload l) ↔
      ∀ row ∈ quietPayload.scores, defaultEngine.settings.tierCThreshold ≤ row.conviction :=
  isPool_iff (by decide) (scored_of_score score_quietTick)

/-- The minute without trades scores 15.215, and its token is a candidate of tier C. -/
theorem quiet_candidate : ¬ ∀ (e : ScoringEngine) (batchSize : ℕ) (p : Payload FeatureRowInput)
    (strategyVersion : Option String), 1 ≤ batchSize →
      e.settings.tierBThreshold ≤ e.settings.tierAThreshold →
      e.settings.tierCThreshold ≤ e.settings.tierBThreshold →
      e.score p.ticks p.features strategyVersion = .ok p.scores →
      ∃ l, IsPool e.settings.tierCThreshold batchSize p l := by
  intro h
  obtain ⟨l, hl⟩ := h defaultEngine 100 quietPayload none (by decide) (by decide +kernel)
    (by decide +kernel) score_quietTick
  have hbelow : (quietPayload.scores.filter fun row =>
      defaultEngine.settings.tierCThreshold ≤ row.conviction).length = 0 := by decide +kernel
  have hcount : quietPayload.candidateCount = 1 :=
    candidateCount_of_scored (scored_of_score score_quietTick)
  have hlen := hl.members.length_eq.trans hbelow
  have hcounted := hl.counted
  omega

end ChainMonitor.Scoring
