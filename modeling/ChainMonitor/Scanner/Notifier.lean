import ChainMonitor.Scanner.AlertRows
import Std.Data.String.ToInt

/-! `TelegramNotifier._format_alpha` of `scanner/notifier.py`: the text of an alert, and the score
that it shows. -/

namespace ChainMonitor.Orchestrator

open ProofKit Detector Cooldown

/-- What the notifier takes from the standard library: a float with a number of decimals, and upper
case. -/
structure TextFormat where
  fixed : ℕ → Float → String
  upper : String → String

def htmlEscape (text : String) : String :=
  ((text.replace "&" "&amp;").replace "<" "&lt;").replace ">" "&gt;"

def fmtUsd (fmt : TextFormat) (val : Float) : String :=
  if val ≥ 1000000 then "$" ++ fmt.fixed 1 (val / 1000000) ++ "M"
  else if val ≥ 1000 then "$" ++ fmt.fixed 1 (val / 1000) ++ "K"
  else "$" ++ fmt.fixed 2 val

/-- The amount, if there is one and it is not zero. -/
def usdOrNa (fmt : TextFormat) (val : Option Float) : String :=
  match val with
  | none => "N/A"
  | some v => if PyFloat.truthy v then htmlEscape (fmtUsd fmt v) else "N/A"

def levelIcon : Level → String
  | .high => "🔴"
  | .medium => "🟡"
  | .observe => "🔵"

def intervalText : Interval → String
  | .oneMinute => "1m"
  | .oneHour => "1h"

/-- The first six characters of an address and its last four. -/
def shortAddress (address : String) : String :=
  let cs := address.toList
  .ofList (cs.take 6) ++ "…" ++ .ofList (cs.drop (cs.length - 4))

/-- The first line of an alert. -/
def headline (fmt : TextFormat) (sig : AlphaSignal) : String :=
  levelIcon sig.level ++ " <b>[" ++ toString sig.token.score ++ "] " ++ fmt.upper sig.chain ++
    " " ++ intervalText sig.interval ++ "</b> — <code>" ++ htmlEscape sig.token.token.symbol ++
    "</code>"

def formatAlpha (fmt : TextFormat) (sig : AlphaSignal) : String :=
  let t := sig.token.token
  let bd := sig.token.breakdown
  let price := htmlEscape
    (if t.priceUsd < 1 then "$" ++ fmt.fixed 4 t.priceUsd else "$" ++ fmt.fixed 2 t.priceUsd)
  "\n".intercalate [
    headline fmt sig,
    "",
    "<b>📊 评分明细</b>",
    "  聪明钱领先: " ++ toString bd.smartMoney ++ "/30",
    "  排名加速:  " ++ toString bd.rankMomentum ++ "/20",
    "  成交量质量: " ++ toString bd.volumeQuality ++ "/15",
    "  结构健康度: " ++ toString bd.structural ++ "/15",
    "  多时间帧:  " ++ toString bd.timeframe ++ "/10",
    "  风险折价:  " ++ toString bd.riskPenalty,
    "",
    "  地址: <code>" ++ htmlEscape (shortAddress t.address) ++ "</code>",
    "  价格: " ++ price,
    "  成交额(" ++ intervalText sig.interval ++ "): " ++ usdOrNa fmt t.volume1m,
    "  市值: " ++ usdOrNa fmt t.marketCap]

/-- What a text shows between its first bracket and the next closing one. -/
def bracketed (text : String) : String :=
  .ofList (((text.toList.dropWhile (· ≠ '[')).drop 1).takeWhile (· ≠ ']'))

/-! ### The score in the text -/

theorem bracketed_eq {text : String} {before inside after : List Char} (hbefore : '[' ∉ before)
    (hinside : ']' ∉ inside) (h : text.toList = before ++ '[' :: (inside ++ ']' :: after)) :
    bracketed text = .ofList inside := by
  have hdrop : text.toList.dropWhile (· ≠ '[') = '[' :: (inside ++ ']' :: after) := by
    rw [h, List.dropWhile_append_of_pos]
    · simp
    · intro c hc
      simpa using fun he : c = '[' => hbefore (he ▸ hc)
  have htake : (inside ++ ']' :: after).takeWhile (· ≠ ']') = inside := by
    rw [List.takeWhile_append_of_pos]
    · simp
    · intro c hc
      simpa using fun he : c = ']' => hinside (he ▸ hc)
  rw [bracketed, hdrop, List.drop_one, List.tail_cons, htake]

/-- The text of an integer has digits and a sign. -/
theorem digit_or_minus_of_mem_repr {n : ℤ} {c : Char} (h : c ∈ n.repr.toList) :
    c.isDigit = true ∨ c = '-' := by
  have hdigits : ∀ k : ℕ, c ∈ k.repr.toList → c.isDigit = true := by
    intro k hk
    rw [Nat.toList_repr] at hk
    exact Nat.isDigit_of_mem_toDigits (by decide) (by decide) hk
  cases n with
  | ofNat k => exact .inl (hdigits k h)
  | negSucc k =>
    replace h : c ∈ ("-" ++ k.succ.repr).toList := h
    rw [String.toList_append, List.mem_append] at h
    rcases h with h | h
    · exact .inr (List.mem_singleton.mp h)
    · exact .inl (hdigits _ h)

theorem bracket_not_mem_repr (n : ℤ) : ']' ∉ n.repr.toList := fun h =>
  absurd (digit_or_minus_of_mem_repr h) (by decide)

theorem toList_intercalate_cons (sep first : String) (rest : List String) :
    ∃ after, (sep.intercalate (first :: rest)).toList = first.toList ++ after := by
  rw [String.toList_intercalate]
  cases rest with
  | nil => exact ⟨[], by simp [List.intercalate]⟩
  | cons second rest =>
    exact ⟨sep.toList ++ sep.toList.intercalate ((second :: rest).map String.toList), by
      simp [List.intercalate]⟩

theorem toList_headline (fmt : TextFormat) (sig : AlphaSignal) :
    ∃ after, (headline fmt sig).toList = ((levelIcon sig.level).toList ++ " <b>".toList) ++
      '[' :: (sig.token.score.repr.toList ++ ']' :: after) := by
  have hopen : " <b>[".toList = " <b>".toList ++ ['['] := by decide
  have hclose : "] ".toList = [']', ' '] := by decide
  simp only [headline, String.toList_append, hopen, hclose, List.append_assoc, List.cons_append,
    List.nil_append]
  exact ⟨_, rfl⟩

/-- The text of an alert shows the score of its signal. -/
theorem bracketed_formatAlpha (fmt : TextFormat) (sig : AlphaSignal) :
    bracketed (formatAlpha fmt sig) = toString sig.token.score := by
  have hicon : '[' ∉ (levelIcon sig.level).toList ++ " <b>".toList := by
    cases sig.level <;> decide
  obtain ⟨rest, hrest⟩ : ∃ rest, (formatAlpha fmt sig).toList =
      (headline fmt sig).toList ++ rest := toList_intercalate_cons _ _ _
  obtain ⟨after, hafter⟩ := toList_headline fmt sig
  have htext : (formatAlpha fmt sig).toList = ((levelIcon sig.level).toList ++ " <b>".toList) ++
      '[' :: (sig.token.score.repr.toList ++ ']' :: (after ++ rest)) := by
    rw [hrest, hafter]
    simp only [List.append_assoc, List.cons_append]
  rw [bracketed_eq hicon (bracket_not_mem_repr _) htext, String.ofList_toList]
  rfl

/-! ### The score in the row -/

variable {o : ScannerOrchestrator} {s : Scan} {signals : List AlphaSignal} {m : CooldownManager}

/-- The message of the alert shows the score that the row of its token records. -/
def ShownAsRecorded (fmt : TextFormat) (p : AlphaSignal × Option TokenProcessed) : Prop :=
  ∃ row total, p.2 = some row ∧ row.address = address p.1 ∧ row.scoreTotal = some total ∧
    bracketed (formatAlpha fmt p.1) = toString total

/-- An alert of this turn has the score of its token: a first or second one the whole score, a third
one three fifths of it, and a later one three tenths. -/
def ShownTurn (o : ScannerOrchestrator) (s : Scan) (signals : List AlphaSignal)
    (m : CooldownManager) (turn : TrendingToken × TokenTimes) : Prop :=
  ∀ sig, Alerts signals m turn sig → ∃ scored, ownScore o s turn.1 = .ok scored ∧
    (hits m turn.1.address < 2 → scored.map (·.score) = some sig.token.score) ∧
    (hits m turn.1.address = 2 → 3 * (scored.map (·.score)).getD 0 / 5 = sig.token.score) ∧
    (3 ≤ hits m turn.1.address → 3 * (scored.map (·.score)).getD 0 / 10 = sig.token.score)

theorem shownAsRecorded_iff {fmt : TextFormat} {sig : AlphaSignal} {row : TokenProcessed}
    (hrow : row.address = address sig) :
    ShownAsRecorded fmt (sig, some row) ↔ row.scoreTotal = some sig.token.score := by
  constructor
  · rintro ⟨row', total, hsome, -, htotal, htext⟩
    cases hsome
    rw [bracketed_formatAlpha] at htext
    rw [htotal, Int.repr_inj.mp htext]
  · intro h
    exact ⟨row, _, rfl, hrow, h, bracketed_formatAlpha fmt sig⟩

theorem total_eq_iff {own : Option ℤ} {k : ℕ} {n : ℤ} :
    (if k < 2 then own else some (lowered k (own.getD 0))) = some n ↔
      (k < 2 → own = some n) ∧ (k = 2 → 3 * own.getD 0 / 5 = n) ∧
        (3 ≤ k → 3 * own.getD 0 / 10 = n) := by
  unfold lowered
  by_cases hfew : k < 2
  · simp [hfew, show k ≠ 2 by omega, show ¬3 ≤ k by omega]
  · by_cases hmany : 3 ≤ k
    · simp [hfew, hmany, show k ≠ 2 by omega]
    · simp [show k = 2 by omega]

/-- In a list that names each address once, a signal is its token's own. -/
theorem ownScore_of_nodup (hnodup : (s.curr.tokens.map (·.address)).Nodup)
    (h : detect o.scorer s.prev s.curr s.risks = .ok signals)
    {turn : TrendingToken × TokenTimes} (ht : turn.1 ∈ s.curr.tokens) {sig : AlphaSignal}
    (hsig : (signalMap signals).get? turn.1.address = some sig) :
    ownScore o s turn.1 = .ok (some sig.token) := by
  rw [signalMap_get? h] at hsig
  exact ownScore_of_ownSignal (ownSignal_of_nodup hnodup ht hsig)

/-- In such a list an alert shows the recorded score when it is the first or the second one of its
address, or its score is 0. -/
theorem shownTurn_of_nodup (hnodup : (s.curr.tokens.map (·.address)).Nodup)
    (h : detect o.scorer s.prev s.curr s.risks = .ok signals) (m : CooldownManager)
    {turn : TrendingToken × TokenTimes} (ht : turn.1 ∈ s.curr.tokens) :
    ShownTurn o s signals m turn ↔
      ∀ sig, Alerts signals m turn sig → hits m turn.1.address < 2 ∨ sig.token.score = 0 := by
  refine forall_congr' fun sig => forall_congr' fun hsent => ?_
  have hown := ownScore_of_nodup hnodup h ht hsent.1
  have hnonneg : 0 ≤ sig.token.score := by
    rw [ownScore_total hown]
    exact sig.token.breakdown.total_nonneg
  rw [hown]
  simp only [Except.ok.injEq, exists_eq_left', Option.map_some, Option.getD_some]
  constructor
  · rintro ⟨-, htwo, hmany⟩
    rcases Nat.lt_trichotomy (hits m turn.1.address) 2 with hlt | heq | hgt
    · exact .inl hlt
    · have := htwo heq
      right
      omega
    · have := hmany hgt
      right
      omega
  · rintro (hlt | hzero)
    · exact ⟨fun _ => trivial, by omega, by omega⟩
    · exact ⟨fun _ => trivial, by omega, by omega⟩

/-- In every run the message of each alert shows the score that is recorded exactly when every turn
suits its signal. -/
theorem shownAsRecorded_run_iff (o : ScannerOrchestrator) (fmt : TextFormat) (last1hRun : ℚ)
    (cs : List CycleInput) :
    (∀ p ∈ alertRows (runCycles o ⟨last1hRun, Cooldown.init⟩ cs).2, ShownAsRecorded fmt p) ↔
      Meets (jobStep o) (JobMeets o (ShownTurn o)) Cooldown.init (schedule o last1hRun cs) := by
  rw [← throughout_const]
  apply alertRows_iff (fun _ _ => True) (fun _ _ _ _ _ _ => trivial) _ ⟨last1hRun, Cooldown.init⟩ cs
    trivial
  intro s signals hd log m turn ht _ hlog
  rcases turnAlertRow_cases hd ht m with ⟨hquiet, hnone⟩ |
    ⟨sig, row, scored, hsent, hone, hs, hrow, -, -, -, hscore⟩
  · rw [hnone, List.append_nil]
    exact ⟨fun _ sig hsent => absurd hsent (hquiet sig), fun _ => hlog⟩
  · rw [hone, throughout_concat, and_iff_right hlog, shownAsRecorded_iff hrow, hscore, total_eq_iff]
    constructor
    · intro hshown sig' hsent'
      cases hsent.1.symm.trans hsent'.1
      exact ⟨scored, hs, hshown⟩
    · intro hturn
      obtain ⟨scored', hs', hshown⟩ := hturn sig hsent
      cases hs.symm.trans hs'
      exact hshown

/-- The formats, as far as the sample token needs them. -/
def sampleFormat : TextFormat where
  fixed _ _ := "1.00"
  upper s := .ofList (s.toList.map Char.toUpper)

/-- The message of the third alert of the address shows 65, and 39 is recorded. -/
theorem third_alert_shows_whole_score :
    ¬∀ p ∈ alertRows (runCycles sampleOrchestrator ⟨60, Cooldown.init⟩
      [repeatedCycle 60, repeatedCycle 2000, repeatedCycle 8000]).2,
      ShownAsRecorded sampleFormat p := by
  intro hall
  have hthird : ((alertRows (runCycles sampleOrchestrator ⟨60, Cooldown.init⟩
      [repeatedCycle 60, repeatedCycle 2000, repeatedCycle 8000]).2)[2]?.map fun p =>
        (p.1.token.score, p.2.bind (·.scoreTotal))) = some (65, some 39) := by
    decide +kernel
  obtain ⟨⟨sig, row?⟩, hp, hscores⟩ := Option.map_eq_some_iff.mp hthird
  obtain ⟨hsig, hrow?⟩ := Prod.mk.inj hscores
  obtain ⟨row, total, rfl, hrow, -, -⟩ := hall _ (List.mem_of_getElem? hp)
  have hshown := (shownAsRecorded_iff hrow).mp (hall _ (List.mem_of_getElem? hp))
  rw [Option.bind_some, hshown] at hrow?
  dsimp only at hsig hrow?
  rw [hsig] at hrow?
  exact absurd hrow? (by decide)

end ChainMonitor.Orchestrator
