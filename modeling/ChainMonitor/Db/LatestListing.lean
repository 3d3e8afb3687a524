import ChainMonitor.Db.CandidatesCache
import ChainMonitor.Db.PipelineTables

/-! What `list_latest_candidates` reads after a run of the newest minute of a chain: the ranking of
that run. -/

namespace ChainMonitor.PipelineTables

open ProofKit PipelineService Snapshots Scoring CandidatesCache

/-- The rows of a payload in order of conviction, with their ranks. -/
def ranked (p : Payload FeatureRowInput) : List (ScoreRowInput × ℕ) := (ranking p.scores).zipIdx 1

/-- What the query shows of a ranked row. -/
def listed (e : ScoreRowInput × ℕ) : LatestCandidate :=
  latestCandidate (candidateRow e) (scorePayload e.1)

/-- Payload `p` is the last word on the newest minute of a chain: the other payloads have no row of
the chain from a later minute, and those that the chain has for the minute itself come before `p`
and are scored again in `p`. -/
structure Newest (chain : String) (minute : ℤ) (before : List (Payload FeatureRowInput))
    (p : Payload FeatureRowInput) (after : List (Payload FeatureRowInput)) : Prop where
  nonempty : p.scores ≠ []
  own : ∀ row ∈ p.scores, row.chainId = chain ∧ row.tsMinute = minute
  distinct : Distinct p
  before : ∀ q ∈ before, ∀ row ∈ q.scores, row.chainId = chain → row.tsMinute < minute ∨
    row.tsMinute = minute ∧ (scorePayload row).key ∈ (p.scores.map scorePayload).map TokenScore.key
  after : ∀ q ∈ after, ∀ row ∈ q.scores, row.chainId = chain → row.tsMinute < minute

section Listing

variable {batchSize : ℕ} {s : System} {chain : String} {minute : ℤ}
  {before after : List (Payload FeatureRowInput)} {p : Payload FeatureRowInput}

theorem mem_ranked {e : ScoreRowInput × ℕ} (he : e ∈ ranked p) : e.1 ∈ p.scores := by
  obtain ⟨-, hrow⟩ := List.mk_mem_zipIdx_iff_le_and_getElem?_sub.mp he
  exact (ranking_perm p.scores).mem_iff.mp (List.mem_of_getElem? hrow)

/-- The payloads after `p` have no row of its minute. -/
theorem Newest.lastOf_none (hn : Newest chain minute before p after) {α : Type*}
    (key : α → SnapshotKey × String) (rows : Payload FeatureRowInput → List α)
    (hrows : ∀ q, ∀ r ∈ rows q, ∃ row ∈ q.scores, key r = (scorePayload row).key)
    {k : SnapshotKey × String} (hchain : k.1.chainId = chain) (hminute : k.1.tsMinute = minute) :
    Table.lastOf key k (after.flatMap rows) = none := by
  rw [← Option.not_isSome_iff_eq_none, Table.isSome_lastOf]
  intro hmem
  obtain ⟨r, hr, rfl⟩ := List.mem_map.mp hmem
  obtain ⟨q, hq, hin⟩ := List.mem_flatMap.mp hr
  obtain ⟨row, hrow, hkey⟩ := hrows q r hin
  rw [hkey] at hchain hminute
  exact absurd hminute (hn.after q hq row hrow hchain).ne

theorem key_of_candidate {q : Payload FeatureRowInput} {c : CandidateSnapshot}
    (hc : c ∈ candidatePayload q.scores) : ∃ row ∈ q.scores, c.key = (scorePayload row).key := by
  obtain ⟨row, hrow, rank, rfl⟩ := exists_of_mem_candidatePayload hc
  exact ⟨row, hrow, rfl⟩

theorem key_of_score {q : Payload FeatureRowInput} {score : TokenScore}
    (hscore : score ∈ q.scores.map scorePayload) :
    ∃ row ∈ q.scores, score.key = (scorePayload row).key := by
  obtain ⟨row, hrow, rfl⟩ := List.mem_map.mp hscore
  exact ⟨row, hrow, rfl⟩

theorem Prepared.nodup_candidate_keys (hp : Prepared p) (hd : Distinct p) :
    ((candidatePayload p.scores).map CandidateSnapshot.key).Nodup := by
  have hkeys := hp.nodup_keys hd
  rw [List.map_map] at hkeys
  rw [hp.candidates, List.map_map]
  show (((ranking p.scores).zipIdx 1).map ((TokenScore.key ∘ scorePayload) ∘ Prod.fst)).Nodup
  rw [← List.map_map, List.zipIdx_map_fst]
  exact ((ranking_perm p.scores).map _).nodup_iff.mpr hkeys

variable (hb : 1 ≤ batchSize) (hv : Valid batchSize s) (hsplit : s.history = before ++ p :: after)
  (hn : Newest chain minute before p after)
include hb hv hsplit hn

omit hb hn in
theorem prepared_of_split : Prepared p := hv.history p (by simp [hsplit])

theorem candidate_of_ranked {e : ScoreRowInput × ℕ} (he : e ∈ ranked p) :
    s.committed.scored.candidatePoolSnapshots.get? (candidateRow e).key =
      some (candidateRow e) := by
  have hp := prepared_of_split hv hsplit
  obtain ⟨hchain, hminute⟩ := hn.own _ (mem_ranked he)
  have hmem : candidateRow e ∈ candidatePayload p.scores := by
    rw [hp.candidates]
    exact List.mem_map_of_mem he
  have hown := (Table.lastOf_eq_some (hp.nodup_candidate_keys hn.distinct)).mpr ⟨hmem, rfl⟩
  have hafter : Table.lastOf CandidateSnapshot.key (candidateRow e).key
      (after.flatMap fun q => candidatePayload q.scores) = none :=
    hn.lastOf_none CandidateSnapshot.key (fun q => candidatePayload q.scores)
      (fun _ _ => key_of_candidate) hchain hminute
  rw [candidate_rows hb hv, hsplit, List.flatMap_append, List.flatMap_cons, Table.lastOf_append,
    Table.lastOf_append, hafter, hown]
  rfl

theorem score_of_ranked {e : ScoreRowInput × ℕ} (he : e ∈ ranked p) :
    s.committed.scored.tokenScores.get? (candidateRow e).key = some (scorePayload e.1) := by
  have hp := prepared_of_split hv hsplit
  obtain ⟨hchain, hminute⟩ := hn.own _ (mem_ranked he)
  have hmem : scorePayload e.1 ∈ p.scores.map scorePayload := List.mem_map_of_mem (mem_ranked he)
  have hown : Table.lastOf TokenScore.key (candidateRow e).key (p.scores.map scorePayload) =
      some (scorePayload e.1) := (Table.lastOf_eq_some (hp.nodup_keys hn.distinct)).mpr ⟨hmem, rfl⟩
  have hafter : Table.lastOf TokenScore.key (candidateRow e).key
      (after.flatMap fun q => q.scores.map scorePayload) = none :=
    hn.lastOf_none TokenScore.key (fun q => q.scores.map scorePayload)
      (fun _ _ => key_of_score) hchain hminute
  rw [score_rows hb hv, hsplit, List.flatMap_append, List.flatMap_cons, Table.lastOf_append,
    Table.lastOf_append, hafter, hown]
  rfl

/-- Of the candidates of the chain, those of `p` are the newest. -/
theorem newest_candidates {c : CandidateSnapshot}
    (hc : c ∈ s.committed.scored.candidatePoolSnapshots.rows) (hchain : c.chainId = chain) :
    c.tsMinute < minute ∨ c.tsMinute = minute ∧ c ∈ (ranked p).map candidateRow := by
  have hp := prepared_of_split hv hsplit
  have hlast : s.committed.scored.candidatePoolSnapshots.get? c.key = some c :=
    Table.get?_eq_some.mpr ⟨hc, rfl⟩
  rw [candidate_rows hb hv, hsplit, List.flatMap_append, List.flatMap_cons, Table.lastOf_append,
    Table.lastOf_append] at hlast
  rcases Option.or_eq_some_iff.mp hlast with hrest | ⟨hnone, hbefore⟩
  · rcases Option.or_eq_some_iff.mp hrest with hafter | ⟨-, hown⟩
    · obtain ⟨q, hq, hin⟩ := List.mem_flatMap.mp (Table.mem_of_lastOf hafter).1
      obtain ⟨row, hrow, rank, rfl⟩ := exists_of_mem_candidatePayload hin
      exact .inl (hn.after q hq row hrow hchain)
    · have hmem := (Table.mem_of_lastOf hown).1
      obtain ⟨row, hrow, rank, rfl⟩ := exists_of_mem_candidatePayload hmem
      rw [hp.candidates] at hmem
      exact .inr ⟨(hn.own row hrow).2, hmem⟩
  · obtain ⟨q, hq, hin⟩ := List.mem_flatMap.mp (Table.mem_of_lastOf hbefore).1
    obtain ⟨row, hrow, rank, rfl⟩ := exists_of_mem_candidatePayload hin
    rcases hn.before q hq row hrow hchain with hlt | ⟨-, hkey⟩
    · exact .inl hlt
    · have hscored : (Table.lastOf CandidateSnapshot.key (scorePayload row).key
          (candidatePayload p.scores)).isSome :=
        Table.isSome_lastOf.mpr (hp.mem_keys.mpr hkey)
      obtain ⟨-, hnot⟩ := Option.or_eq_none_iff.mp hnone
      have hkeys : (candidateRow (row, rank)).key = (scorePayload row).key := rfl
      rw [hkeys] at hnot
      rw [hnot] at hscored
      exact absurd hscored (by simp)

/-- The candidates that the query selects. -/
theorem selected_perm (tier : Option String) :
    (((s.committed.scored.candidatePoolSnapshots.rows.filter fun c => c.chainId = chain).filter
      fun c => c.tsMinute = minute ∧ tierMatches tier c)).Perm
      (((ranked p).filter fun e => tierMatches tier (candidateRow e)).map candidateRow) := by
  have hp := prepared_of_split hv hsplit
  have hnodup : ((ranked p).map candidateRow).Nodup := by
    have hkeys := hp.nodup_candidate_keys hn.distinct
    rw [hp.candidates] at hkeys
    exact hkeys.of_map _
  refine (List.perm_ext_iff_of_nodup (((Table.nodup_rows _).filter _).filter _)
    (hnodup.sublist (List.filter_sublist.map _))).mpr fun c => ?_
  simp only [List.mem_filter, List.mem_map, decide_eq_true_eq]
  constructor
  · rintro ⟨⟨hc, hchain⟩, hminute, htier⟩
    rcases newest_candidates hb hv hsplit hn hc hchain with hlt | ⟨-, hmem⟩
    · exact absurd hminute hlt.ne
    · obtain ⟨e, he, rfl⟩ := List.mem_map.mp hmem
      exact ⟨e, ⟨he, htier⟩, rfl⟩
  · rintro ⟨e, ⟨he, htier⟩, rfl⟩
    obtain ⟨hchain, hminute⟩ := hn.own _ (mem_ranked he)
    have hin := (Table.get?_eq_some.mp (candidate_of_ranked hb hv hsplit hn he)).1
    exact ⟨⟨hin, hchain⟩, hminute, htier⟩

theorem newest_minute :
    ((s.committed.scored.candidatePoolSnapshots.rows.filter fun c => c.chainId = chain).map
      (·.tsMinute)).max? = some minute := by
  refine List.max?_eq_some_iff.mpr ⟨?_, ?_⟩
  · have hranked : ranked p ≠ [] := by
      intro hnil
      have hlen := congrArg List.length hnil
      rw [ranked, List.length_zipIdx, (ranking_perm p.scores).length_eq] at hlen
      exact hn.nonempty (List.length_eq_zero_iff.mp hlen)
    obtain ⟨e, he⟩ := List.exists_mem_of_ne_nil _ hranked
    obtain ⟨hchain, hminute⟩ := hn.own _ (mem_ranked he)
    have hin := (Table.get?_eq_some.mp (candidate_of_ranked hb hv hsplit hn he)).1
    exact List.mem_map.mpr ⟨candidateRow e,
      List.mem_filter.mpr ⟨hin, decide_eq_true hchain⟩, hminute⟩
  · intro m hm
    obtain ⟨c, hc, rfl⟩ := List.mem_map.mp hm
    obtain ⟨hc, hchain⟩ := List.mem_filter.mp hc
    rcases newest_candidates hb hv hsplit hn hc (of_decide_eq_true hchain) with hlt | ⟨heq, -⟩
    · exact hlt.le
    · exact heq.le

omit hb hv hsplit hn in
/-- Every candidate joins its own score. -/
theorem joined_eq (db : Database) (es : List (ScoreRowInput × ℕ))
    (hscore : ∀ e ∈ es, db.tokenScores.get? (candidateRow e).key = some (scorePayload e.1)) :
    (es.map candidateRow).flatMap (fun c =>
      (db.tokenScores.rows.filter fun s => s.key = c.key).map (latestCandidate c)) =
      es.map listed := by
  rw [List.flatMap_map, List.map_eq_flatMap]
  refine List.flatMap_congr fun e he => ?_
  rw [Table.filter_key, hscore e he]
  rfl

end Listing

theorem newest_quiet : Newest "sol" 0 [] quietPayload [] where
  nonempty := List.cons_ne_nil _ _
  own := by decide +kernel
  distinct := List.nodup_singleton "a"
  before := nofun
  after := nofun

end ChainMonitor.PipelineTables
