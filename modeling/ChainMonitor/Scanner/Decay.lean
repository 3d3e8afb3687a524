import ChainMonitor.Scanner.AlertRows

/-! The decay of the score of an address that is alerted again, against the table of
`scanner/README.md`: which factor the recorded score has been multiplied with. -/

namespace ChainMonitor.Orchestrator

open ProofKit Detector Cooldown

/-- The factor that the table gives for the `n`-th alert of an address. -/
def tableFactor (n : ℕ) : Float := if 3 ≤ n then 0.3 else if n = 2 then 0.6 else 1.0

/-- `int(score * f(n))`. -/
def tableScore (score : ℤ) (n : ℕ) : Except PyError ℤ := do
  let x ← PyFloat.ofInt score
  PyFloat.toInt (x * tableFactor n)

/-- How many of the alerts are for `a`. -/
def alertCount (log : List (AlphaSignal × Option TokenProcessed)) (a : String) : ℕ :=
  log.countP fun p => address p.1 = a

/-- The alert is recorded with the score of its token, multiplied with the factor of its ordinal
among the alerts of its address. -/
def RecordedByTable (before : List (AlphaSignal × Option TokenProcessed))
    (p : AlphaSignal × Option TokenProcessed) : Prop :=
  ∃ row b total, p.2 = some row ∧ row.address = address p.1 ∧ row.signalEmitted = true ∧
    row.scoreBreakdown = some b ∧ row.scoreTotal = some total ∧
    tableScore b.total (alertCount before (address p.1) + 1) = .ok total

variable {o : ScannerOrchestrator} {s : Scan} {signals : List AlphaSignal} {m : CooldownManager}

/-- An alert of this turn is for a token that passes the filter itself. The score of a second alert
is 0, and that of a third one at most 1. -/
def TableTurn (o : ScannerOrchestrator) (s : Scan) (signals : List AlphaSignal)
    (m : CooldownManager) (turn : TrendingToken × TokenTimes) : Prop :=
  ∀ sig, Alerts signals m turn sig → ∃ x, ownScore o s turn.1 = .ok (some x) ∧
    (hits m turn.1.address = 1 → x.score = 0) ∧ (hits m turn.1.address = 2 → x.score ≤ 1)

theorem unscaled_eq {score : ℤ} (hlow : 0 ≤ score) (hhigh : score ≤ 100) :
    (PyFloat.ofInt score >>= fun x => PyFloat.toInt (x * 1.0)) = .ok score := by
  have htable : ∀ k : Fin 101,
      (PyFloat.ofInt (k : ℕ) >>= fun x => PyFloat.toInt (x * 1.0)).toOption = some (k : ℤ) := by
    decide +kernel
  obtain ⟨k, rfl⟩ : ∃ k : Fin 101, score = (k : ℕ) :=
    ⟨⟨score.toNat, by omega⟩, by simp only; omega⟩
  exact toOption_eq_some.mp (htable k)

theorem tableScore_eq {score : ℤ} (hlow : 0 ≤ score) (hhigh : score ≤ 100) (n : ℕ) :
    tableScore score n =
      .ok (if 3 ≤ n then 3 * score / 10 else if n = 2 then 3 * score / 5 else score) := by
  obtain ⟨hsix, hthree⟩ := scaled_eq hlow hhigh
  unfold tableScore tableFactor
  split
  · exact hthree
  · split
    · exact hsix
    · exact unscaled_eq hlow hhigh

/-- The manager has counted the alerts. -/
def Counts (log : List (AlphaSignal × Option TokenProcessed)) (m : CooldownManager) : Prop :=
  ∀ a, hits m a = alertCount log a

theorem counts_next (o : ScannerOrchestrator) (s : Scan) (signals : List AlphaSignal)
    {log : List (AlphaSignal × Option TokenProcessed)} (turn : TrendingToken × TokenTimes)
    (h : Counts log m) :
    Counts (log ++ turnAlertRow o s signals m turn) ((turnStep o s signals m turn).getD m) := by
  cases hturn : processToken o s signals m turn.1 turn.2 with
  | error e =>
    rw [turnAlertRow, turnStep_of_error hturn, hturn]
    simpa using h
  | ok done =>
    rw [turnAlertRow_of_ok hturn, turnStep_of_ok hturn, Turn.alertRow]
    rcases (processToken_cases hturn).2 with ⟨ha, hm⟩ | ⟨sig, -, haddress, -, ha, hm⟩
    · rw [ha, hm]
      simpa using h
    · rw [ha, hm]
      intro a
      show hits (mark _ _ _ _ m) a = alertCount (log ++ [(sig, some done.row)]) a
      rw [hits_mark, alertCount, List.countP_append, List.countP_singleton, haddress]
      by_cases ha : a = turn.1.address
      · subst ha
        simp [h turn.1.address, alertCount]
      · simp [h a, alertCount, ha, Ne.symm ha]

/-- The code's factor for an address that has been marked `k` times is the table's for `k` alerts,
not for the next one. -/
theorem lowered_eq_iff {n : ℤ} (hn : 0 ≤ n) (k : ℕ) :
    (if 3 ≤ k + 1 then 3 * n / 10 else if k + 1 = 2 then 3 * n / 5 else n) = lowered k n ↔
      (k = 1 → n = 0) ∧ (k = 2 → n ≤ 1) := by
  have hcases : 3 * n / 5 ≤ 0 ∨ 1 ≤ 3 * n / 5 := by omega
  unfold lowered
  rcases hcases with h | h <;> split_ifs <;> omega

theorem lowered_of_lt_two {k : ℕ} (h : k < 2) (n : ℤ) : lowered k n = n := by
  rw [lowered, if_neg (by omega), if_neg (by omega)]

/-- The row of an alert suits the table when the turn does. -/
theorem recordedByTable_iff {log : List (AlphaSignal × Option TokenProcessed)}
    {row : TokenProcessed} {sig : AlphaSignal} {scored : Option ScoredToken} {a : String}
    (hcounts : Counts log m) (htotal : ∀ x, scored = some x → x.score = x.breakdown.total)
    (haddress : address sig = a) (hrow : row.address = address sig)
    (hemitted : row.signalEmitted = true)
    (hbreakdown : row.scoreBreakdown = scored.map (·.breakdown))
    (hscore : row.scoreTotal = if hits m a < 2 then scored.map (·.score)
      else some (lowered (hits m a) ((scored.map (·.score)).getD 0))) :
    RecordedByTable log (sig, some row) ↔
      ∃ x, scored = some x ∧ (hits m a = 1 → x.score = 0) ∧ (hits m a = 2 → x.score ≤ 1) := by
  cases scored with
  | none =>
    constructor
    · rintro ⟨row', b, -, hsome, -, -, hb, -⟩
      cases hsome
      rw [hbreakdown] at hb
      cases hb
    · rintro ⟨x, hx, -⟩
      cases hx
  | some x =>
    have hx := htotal x rfl
    have hlow : 0 ≤ x.score := hx ▸ x.breakdown.total_nonneg
    have hhigh : x.score ≤ 100 := hx ▸ x.breakdown.total_le
    have hcount : alertCount log (address sig) = hits m a := by rw [haddress, hcounts]
    have hscore : row.scoreTotal = some (lowered (hits m a) x.score) := by
      rw [hscore]
      split
      · rename_i hlt
        rw [lowered_of_lt_two hlt]
        rfl
      · rfl
    simp only [Option.some.injEq, exists_eq_left']
    rw [← lowered_eq_iff hlow]
    constructor
    · rintro ⟨row', b, total, hsome, -, -, hb, ht, htable⟩
      cases hsome
      rw [hbreakdown] at hb
      cases hb
      rw [hscore] at ht
      cases ht
      rw [← hx, hcount, tableScore_eq hlow hhigh] at htable
      exact Except.ok.inj htable
    · intro heq
      refine ⟨row, x.breakdown, _, rfl, hrow, hemitted, hbreakdown, hscore, ?_⟩
      rw [← hx, hcount, tableScore_eq hlow hhigh, heq]

/-- In every run that starts without marks, the alerts of each address are recorded as the table
says of their ordinal exactly when every turn suits it. -/
theorem recordedByTable_run_iff (o : ScannerOrchestrator) (last1hRun : ℚ) (cs : List CycleInput) :
    Throughout RecordedByTable (alertRows (runCycles o ⟨last1hRun, Cooldown.init⟩ cs).2) ↔
      Meets (jobStep o) (JobMeets o (TableTurn o)) Cooldown.init (schedule o last1hRun cs) := by
  apply alertRows_iff Counts (fun s signals log m turn h => counts_next o s signals turn h) _
    ⟨last1hRun, Cooldown.init⟩ cs (fun a => rfl)
  intro s signals hd log m turn ht hcounts hlog
  rcases turnAlertRow_cases hd ht m with ⟨hquiet, hnone⟩ |
    ⟨sig, row, scored, hsent, hone, hs, hrow, haddress, hemitted, hbreakdown, hscore⟩
  · rw [hnone, List.append_nil]
    exact ⟨fun _ sig hsent => absurd hsent (hquiet sig), fun _ => hlog⟩
  · have htotal : ∀ x, scored = some x → x.score = x.breakdown.total := by
      rintro x rfl
      exact ownScore_total hs
    rw [hone, throughout_concat, and_iff_right hlog,
      recordedByTable_iff hcounts htotal haddress hrow hemitted hbreakdown hscore]
    unfold TableTurn
    constructor
    · rintro ⟨x, rfl, htable⟩ sig' -
      exact ⟨x, hs, htable⟩
    · intro hturn
      obtain ⟨x, hx, htable⟩ := hturn sig hsent
      rw [hs] at hx
      exact ⟨x, Except.ok.inj hx, htable⟩

/-- The second alert of the address is recorded with the whole score of 65. -/
theorem second_alert_undecayed :
    ¬Throughout RecordedByTable (alertRows (runCycles sampleOrchestrator ⟨60, Cooldown.init⟩
      [repeatedCycle 60, repeatedCycle 2000]).2) := by
  intro hall
  have hlength : (alertRows (runCycles sampleOrchestrator ⟨60, Cooldown.init⟩
      [repeatedCycle 60, repeatedCycle 2000]).2).length = 2 := by
    decide +kernel
  have hrows : ((alertRows (runCycles sampleOrchestrator ⟨60, Cooldown.init⟩
      [repeatedCycle 60, repeatedCycle 2000]).2).map fun p =>
        (address p.1, p.2.bind (·.scoreTotal), p.2.bind fun row =>
          row.scoreBreakdown.map Breakdown.total)) =
      [("A", some 65, some 65), ("A", some 65, some 65)] := by
    decide +kernel
  obtain ⟨p, q, hlog⟩ := List.length_eq_two.mp hlength
  rw [hlog] at hall hrows
  simp only [List.map_cons, List.map_nil, List.cons.injEq, Prod.mk.injEq] at hrows
  obtain ⟨⟨hp, -, -⟩, ⟨hq, htotal, hbreakdown⟩, -⟩ := hrows
  obtain ⟨row, b, total, hrow, -, -, hb, ht, htable⟩ := hall [p] q [] rfl
  rw [hrow, Option.bind_some, ht] at htotal
  rw [hrow, Option.bind_some, hb] at hbreakdown
  have hcount : alertCount [p] (address q.1) = 1 := by simp [alertCount, hp, hq]
  rw [Option.some.inj hbreakdown, hcount, Option.some.inj htotal,
    tableScore_eq (by decide) (by decide)] at htable
  exact absurd (Except.ok.inj htable) (by decide)

end ChainMonitor.Orchestrator
