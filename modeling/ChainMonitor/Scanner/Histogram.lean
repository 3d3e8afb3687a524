import ChainMonitor.ProofKit.Run
import ChainMonitor.ProofKit.Tally
import ChainMonitor.Scanner.Orchestrator
import Mathlib.Data.List.ReduceOption

/-! `AlphaScorer.detect` of `scanner/detector.py` with the histogram of scores that it keeps from
call to call, and what that histogram says of the scanned tokens. -/

namespace ChainMonitor.Detector

open ProofKit

/-- `_score_histogram` and `_score_histogram_scanned`. -/
structure Histogram where
  buckets : Fin 11 → ℕ
  scanned : ℕ

def Histogram.empty : Histogram := ⟨0, 0⟩

/-- `min(score // 10, 10)`, for a score that is not negative. -/
def bucketOf (score : ℤ) : Fin 11 := ⟨(min (score / 10) 10).toNat, by omega⟩

/-- One call of `detect`. -/
structure Call where
  prev : Option Snapshot
  curr : Snapshot
  risks : Dict String TokenRisk

/-- What a call of `detect` returns, the histogram that it leaves, and the one that it logs. -/
structure Detected where
  signals : List AlphaSignal
  histogram : Histogram
  logged : Option Histogram

/-- The histogram after the signals of a snapshot of `n` tokens. -/
def Histogram.count (h : Histogram) (n : ℕ) (signals : List AlphaSignal) : Histogram where
  buckets := signals.foldl (fun buckets sig => bump buckets (bucketOf sig.token.score)) h.buckets
  scanned := h.scanned + n

/-- `detect`. -/
def detectCounting (cfg : AlphaScorer) (h : Histogram) (call : Call) : Except PyError Detected :=
  match call.prev with
  | none => .ok ⟨[], h, none⟩
  | some p => do
    let found ← call.curr.tokens.mapM (signal cfg (byAddress p.tokens) call.risks call.curr)
    let signals := found.reduceOption
    let h := h.count call.curr.tokens.length signals
    return if 100 ≤ h.scanned then ⟨signals, .empty, some h⟩ else ⟨signals, h, none⟩

/-- The histogram after a call. A call that raises leaves it. -/
def Histogram.after (cfg : AlphaScorer) (h : Histogram) (call : Call) : Histogram :=
  match detectCounting cfg h call with
  | .ok d => d.histogram
  | .error _ => h

/-- The line that a call logs. -/
def Histogram.line (cfg : AlphaScorer) (h : Histogram) (call : Call) : Option Histogram :=
  match detectCounting cfg h call with
  | .ok d => d.logged
  | .error _ => none

theorem detectCounting_signals (cfg : AlphaScorer) (h : Histogram) (call : Call) :
    Detected.signals <$> detectCounting cfg h call = detect cfg call.prev call.curr call.risks := by
  unfold detectCounting detect
  cases call.prev with
  | none => rfl
  | some p =>
    dsimp only
    cases call.curr.tokens.mapM (signal cfg (byAddress p.tokens) call.risks call.curr) with
    | error e => rfl
    | ok found =>
      show Except.ok (Detected.signals (if _ then _ else _)) = Except.ok found.reduceOption
      split
      · rfl
      · rfl

/-! ### The scanned tokens -/

/-- The score of a token, if it passes the filter. -/
def ownScan (cfg : AlphaScorer) (prevMap : Dict String TrendingToken)
    (risks : Dict String TokenRisk) (token : TrendingToken) : Except PyError (Option ℤ) :=
  let risk := risks.get? token.address
  if (hardFilter cfg token risk).passed then
    (fun scored => some scored.score) <$> score token (prevMap.get? token.address) risk
  else .ok none

/-- The tokens that a call scans, by their scores. A call that raises, or that has no earlier
snapshot, scans none. -/
def Call.scans (cfg : AlphaScorer) (call : Call) : List (Option ℤ) :=
  match call.prev with
  | none => []
  | some p =>
    ((call.curr.tokens.mapM (ownScan cfg (byAddress p.tokens) call.risks)).toOption).getD []

/-- The histogram accounts for the tokens that were scanned. -/
structure Histogram.Describes (h : Histogram) (scans : List (Option ℤ)) : Prop where
  scanned : h.scanned = scans.length
  total : ∑ b, h.buckets b = scans.reduceOption.length
  buckets : h.buckets = tally bucketOf scans.reduceOption

/-- The histogram, and the tokens scanned since it was reset. -/
structure Watched where
  histogram : Histogram
  scans : List (Option ℤ)

def Watched.start : Watched := ⟨.empty, []⟩

def Watched.next (cfg : AlphaScorer) (w : Watched) (call : Call) : Watched where
  histogram := w.histogram.after cfg call
  scans := if (w.histogram.line cfg call).isSome then [] else w.scans ++ call.scans cfg

def watch (cfg : AlphaScorer) (calls : List Call) : Watched := calls.foldl (Watched.next cfg) .start

/-- After a call the histogram describes the tokens scanned since its reset, and a line that the
call logs describes those since the reset before it. -/
def Accounts (cfg : AlphaScorer) (before : List Call) (call : Call) : Prop :=
  let w := watch cfg before
  (w.next cfg call).histogram.Describes (w.next cfg call).scans ∧
    ∀ line, w.histogram.line cfg call = some line → line.Describes (w.scans ++ call.scans cfg)

/-- Every score of the call reaches a threshold. -/
def Call.Leveled (cfg : AlphaScorer) (call : Call) : Prop :=
  ∀ n ∈ (call.scans cfg).reduceOption, (level cfg n).isSome

/-! ### When the histogram describes them -/

variable {cfg : AlphaScorer} {h : Histogram} {call : Call} {scans : List (Option ℤ)}

/-- The scores that reach a threshold. -/
def leveled (cfg : AlphaScorer) (scores : List ℤ) : List ℤ :=
  scores.filter fun n => (level cfg n).isSome

/-- The score of a token's signal is its own score, if that has a level. -/
theorem signal_score (cfg : AlphaScorer) (prevMap : Dict String TrendingToken)
    (risks : Dict String TokenRisk) (curr : Snapshot) (token : TrendingToken) :
    Option.map (fun sig => sig.token.score) <$> signal cfg prevMap risks curr token =
      Option.filter (fun n => (level cfg n).isSome) <$> ownScan cfg prevMap risks token := by
  unfold signal ownScan
  by_cases hpassed : (hardFilter cfg token (risks.get? token.address)).passed = true
  · simp only [hpassed, if_true]
    cases score token (prevMap.get? token.address) (risks.get? token.address) with
    | error e => rfl
    | ok scored =>
      show Except.ok (Option.map _ (Option.map _ (level cfg scored.score))) =
        Except.ok (Option.filter _ (some scored.score))
      cases hl : level cfg scored.score with
      | none => simp [Option.filter_some, hl]
      | some l => simp [Option.filter_some, hl]
  · simp only [if_neg hpassed]
    rfl

theorem reduceOption_filter {α : Type*} (p : α → Bool) (xs : List (Option α)) :
    (xs.map (Option.filter p)).reduceOption = xs.reduceOption.filter p := by
  induction xs with
  | nil => rfl
  | cons x xs ih =>
    cases x with
    | none => simpa using ih
    | some a =>
      by_cases ha : p a
      · simp [Option.filter_some, ha, ih]
      · simp [Option.filter_some, ha, ih]

/-- The scores of the signals of a snapshot are the scores of its tokens that have a level, and
there are signals when there are scores. -/
theorem signals_scores (cfg : AlphaScorer) (prevMap : Dict String TrendingToken)
    (risks : Dict String TokenRisk) (curr : Snapshot) :
    (fun found => (found.reduceOption.map fun sig => sig.token.score)) <$>
        curr.tokens.mapM (signal cfg prevMap risks curr) =
      (fun scans => leveled cfg scans.reduceOption) <$>
        curr.tokens.mapM (ownScan cfg prevMap risks) := by
  have hmap : List.map (Option.map fun sig => sig.token.score) <$>
      curr.tokens.mapM (signal cfg prevMap risks curr) =
        List.map (Option.filter fun n => (level cfg n).isSome) <$>
          curr.tokens.mapM (ownScan cfg prevMap risks) := by
    rw [← mapM_map_eq, ← mapM_map_eq]
    simp only [signal_score]
  have hreduce := congrArg (List.reduceOption <$> ·) hmap
  simp only [Functor.map_map, List.reduceOption_map, reduceOption_filter] at hreduce
  exact hreduce

/-- The histogram with the scores of a call, but for those below every threshold. -/
def Histogram.counted (cfg : AlphaScorer) (h : Histogram) (call : Call) : Histogram where
  buckets := h.buckets + tally bucketOf (leveled cfg (call.scans cfg).reduceOption)
  scanned := h.scanned + (call.scans cfg).length

/-- A call after an earlier snapshot raises and scans nothing, or it scans every token of the
snapshot, and the scores that have a level are those of the signals. -/
theorem scans_cases (cfg : AlphaScorer) {p : Snapshot} (hp : call.prev = some p) :
    let found := call.curr.tokens.mapM (signal cfg (byAddress p.tokens) call.risks call.curr)
    (∃ e, found = .error e) ∧ call.scans cfg = [] ∨
      ∃ sigs, found = .ok sigs ∧ (call.scans cfg).length = call.curr.tokens.length ∧
        (sigs.reduceOption.map fun sig => sig.token.score) =
          leveled cfg (call.scans cfg).reduceOption := by
  intro found
  have hscores : _ <$> found = _ <$> _ :=
    signals_scores cfg (byAddress p.tokens) call.risks call.curr
  cases hscans : call.curr.tokens.mapM (ownScan cfg (byAddress p.tokens) call.risks) with
  | error e =>
    have hnone : call.scans cfg = [] := by
      rw [Call.scans, hp]
      simp only [hscans]
      rfl
    cases hfound : found with
    | error e' => exact .inl ⟨⟨e', rfl⟩, hnone⟩
    | ok sigs =>
      rw [hfound, hscans] at hscores
      cases hscores
  | ok scans =>
    have hall : call.scans cfg = scans := by
      rw [Call.scans, hp]
      simp only [hscans]
      rfl
    cases hfound : found with
    | error e =>
      rw [hfound, hscans] at hscores
      cases hscores
    | ok sigs =>
      rw [hfound, hscans] at hscores
      rw [hall]
      exact .inr ⟨sigs, rfl, (mapM_eq_ok.mp hscans).length_eq.symm, Except.ok.inj hscores⟩

theorem count_eq_counted {sigs : List AlphaSignal}
    (hlen : (call.scans cfg).length = call.curr.tokens.length)
    (hscores : (sigs.map fun sig => sig.token.score) =
      leveled cfg (call.scans cfg).reduceOption) (h : Histogram) :
    h.count call.curr.tokens.length sigs = h.counted cfg call := by
  unfold Histogram.count Histogram.counted
  rw [hlen, ← hscores, ← foldl_bump, List.foldl_map]

theorem after_of_ok {d : Detected} (hd : detectCounting cfg h call = .ok d) :
    h.after cfg call = d.histogram ∧ h.line cfg call = d.logged := by
  unfold Histogram.after Histogram.line
  rw [hd]
  exact ⟨rfl, rfl⟩

theorem after_of_error {e : PyError} (hd : detectCounting cfg h call = .error e) :
    h.after cfg call = h ∧ h.line cfg call = none := by
  unfold Histogram.after Histogram.line
  rw [hd]
  exact ⟨rfl, rfl⟩

/-- A call scans nothing and leaves the histogram; or it counts, and then either leaves the new
histogram or logs it. -/
theorem after_cases (cfg : AlphaScorer) (h : Histogram) (call : Call) :
    h.after cfg call = h ∧ h.line cfg call = none ∧ call.scans cfg = [] ∨
    h.after cfg call = h.counted cfg call ∧ h.line cfg call = none ∨
    h.after cfg call = .empty ∧ h.line cfg call = some (h.counted cfg call) := by
  cases hp : call.prev with
  | none =>
    have hd : detectCounting cfg h call = .ok ⟨[], h, none⟩ := by
      rw [detectCounting, hp]
    obtain ⟨hafter, hline⟩ := after_of_ok hd
    exact .inl ⟨hafter, hline, by rw [Call.scans, hp]⟩
  | some p =>
    rcases scans_cases cfg hp with ⟨⟨e, hfound⟩, hnone⟩ | ⟨sigs, hfound, hlen, hscores⟩
    · have hd : detectCounting cfg h call = .error e := by
        rw [detectCounting, hp]
        simp only [hfound]
        rfl
      obtain ⟨hafter, hline⟩ := after_of_error hd
      exact .inl ⟨hafter, hline, hnone⟩
    · have hd : detectCounting cfg h call = .ok (if 100 ≤ (h.counted cfg call).scanned then
          ⟨sigs.reduceOption, .empty, some (h.counted cfg call)⟩
          else ⟨sigs.reduceOption, h.counted cfg call, none⟩) := by
        rw [detectCounting, hp, ← count_eq_counted hlen hscores]
        simp only [hfound]
        rfl
      obtain ⟨hafter, hline⟩ := after_of_ok hd
      by_cases hfull : 100 ≤ (h.counted cfg call).scanned
      · rw [if_pos hfull] at hafter hline
        exact .inr (.inr ⟨hafter, hline⟩)
      · rw [if_neg hfull] at hafter hline
        exact .inr (.inl ⟨hafter, hline⟩)

theorem describes_empty : Histogram.empty.Describes [] := ⟨rfl, by simp [Histogram.empty], rfl⟩

/-- A histogram that describes its tokens also describes those of the next call when the scores of
that call have levels. -/
theorem describes_counted_iff (hd : h.Describes scans) :
    (h.counted cfg call).Describes (scans ++ call.scans cfg) ↔ call.Leveled cfg := by
  have hbuckets : (h.counted cfg call).buckets =
      tally bucketOf (scans ++ call.scans cfg).reduceOption ↔ call.Leveled cfg := by
    rw [List.reduceOption_append, tally_append, ← hd.buckets]
    show h.buckets + tally bucketOf (leveled cfg _) = h.buckets + _ ↔ _
    rw [add_right_inj]
    exact tally_filter_eq_iff
  constructor
  · intro hcounted
    exact hbuckets.mp hcounted.buckets
  · intro hleveled
    have hb := hbuckets.mpr hleveled
    exact ⟨by simp [Histogram.counted, hd.scanned], by rw [hb, sum_tally], hb⟩

/-- From a histogram that describes its tokens, a call accounts for its own when they have
levels. -/
theorem accounts_iff {before : List Call}
    (hd : (watch cfg before).histogram.Describes (watch cfg before).scans) :
    Accounts cfg before call ↔ call.Leveled cfg := by
  unfold Accounts Watched.next
  dsimp only
  rcases after_cases cfg (watch cfg before).histogram call with
    ⟨hafter, hline, hscans⟩ | ⟨hafter, hline⟩ | ⟨hafter, hline⟩
  · rw [hafter, hline, hscans]
    simp [hd, Call.Leveled, hscans]
  · rw [hafter, hline]
    simp [describes_counted_iff hd]
  · rw [hafter, hline]
    simp [describes_counted_iff hd, describes_empty]

theorem watch_concat (cfg : AlphaScorer) (calls : List Call) (call : Call) :
    watch cfg (calls ++ [call]) = (watch cfg calls).next cfg call := by
  rw [watch, List.foldl_append]
  rfl

/-- In a run of calls that all account for their tokens, the histogram describes them. -/
theorem describes_of_accounts {calls : List Call} (hall : Throughout (Accounts cfg) calls) :
    (watch cfg calls).histogram.Describes (watch cfg calls).scans := by
  rcases List.eq_nil_or_concat calls with rfl | ⟨before, call, rfl⟩
  · exact describes_empty
  · rw [List.concat_eq_append] at hall ⊢
    rw [watch_concat]
    exact (hall before call [] rfl).1

/-- In a run the histogram describes the scanned tokens in every state and in every line that it
logs exactly when the score of each of them reaches a threshold. -/
theorem histogram_accounts_iff (cfg : AlphaScorer) (calls : List Call) :
    Throughout (Accounts cfg) calls ↔ ∀ call ∈ calls, call.Leveled cfg := by
  induction calls using List.reverseRecOn with
  | nil => simp [throughout_nil]
  | append_singleton calls call ih =>
    rw [throughout_concat]
    constructor
    · rintro ⟨hcalls, hcall⟩ c hc
      rcases List.mem_append.mp hc with hc | hc
      · exact ih.mp hcalls c hc
      · rw [List.mem_singleton.mp hc]
        exact (accounts_iff (describes_of_accounts hcalls)).mp hcall
    · intro hall
      have hcalls := ih.mpr fun c hc => hall c (List.mem_append_left _ hc)
      exact ⟨hcalls, (accounts_iff (describes_of_accounts hcalls)).mpr (hall call (by simp))⟩

/-- A call that scans one token after a snapshot that lists none. -/
def sampleCall (token : TrendingToken) : Call where
  prev := some ⟨"sol", .oneMinute, [], 0⟩
  curr := ⟨"sol", .oneMinute, [token], 60⟩
  risks := Dict.empty

/-- The only token passes the filter and scores 20, below every threshold. -/
theorem low_score_not_counted :
    ¬Throughout (Accounts .default) [sampleCall (Orchestrator.sampleToken "A" 200000 0 1)] := by
  intro hall
  have hstart : (watch .default []).histogram.Describes (watch .default []).scans := describes_empty
  have hleveled := (accounts_iff hstart).mp (hall [] _ [] rfl)
  have hscore :
      (sampleCall (Orchestrator.sampleToken "A" 200000 0 1)).scans .default = [some 20] := by
    decide +kernel
  have hlow := hleveled 20 (by rw [hscore]; exact List.mem_cons_self)
  exact absurd hlow (by decide)

end ChainMonitor.Detector
