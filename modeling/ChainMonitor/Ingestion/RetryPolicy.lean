import ChainMonitor.Ingestion.FallbackChain
import ChainMonitor.Resilience.Retry

/-! `RetryPolicy` of `ingestion/resilience/retry_policy.py`: the sleep after a failed attempt, and
the `Retry-After` header that may stand in for it. -/

namespace ChainMonitor.RetryPolicy

open ProofKit Retry
open Ingestion (strip)

/-- A number of seconds that a header may hold. -/
inductive Seconds
  | finite (q : ℚ)
  | infinite (negative : Bool)
  | notANumber

def Seconds.ofFloat (x : Float) : Seconds :=
  match x.toModel.unpack with
  | .notANumber => .notANumber
  | .infinity .positive => .infinite false
  | .infinity .negative => .infinite true
  | .zero _ => .finite 0
  | .finite .positive mantissa exponent _ => .finite (mantissa * 2 ^ exponent)
  | .finite .negative mantissa exponent _ => .finite (-(mantissa * 2 ^ exponent))

/-- `value <= 0`. -/
def Seconds.nonpositive : Seconds → Bool
  | .finite q => q ≤ 0
  | .infinite negative => negative
  | .notANumber => false

/-- `min(m, value)`, which is `m` where the value is not less. -/
def Seconds.atMost (m : ℚ) : Seconds → ℚ
  | .finite q => min m q
  | .infinite _ | .notANumber => m

structure Response where
  statusCode : ℤ
  retryAfter : Option String

inductive Exc
  | httpStatusError (response : Option Response)
  | other

/-- What reads a header: the characters of a text, and the seconds from now to the date that
`parsedate_to_datetime` reads. -/
structure Reader where
  text : Text
  secondsUntil : String → Except PyError ℚ

variable (R : Reader)

/-- `raw.strip()` of the header, where it is there and not blank. -/
def header (response : Option Response) : Option String := do
  let raw ← (← response).retryAfter
  let raw := strip R.text raw.toList
  if raw = [] then none else some (.ofList raw)

/-- The value of a header, or `None` where it is neither a number nor a date. -/
def headerValue (raw : String) : Except PyError (Option Seconds) :=
  match R.text.float raw with
  | some value => .ok (some (.ofFloat value))
  | none =>
    match R.secondsUntil raw with
    | .ok value => .ok (some (.finite value))
    | .error .typeError | .error .valueError => .ok none
    | .error e => .error e

def retryAfterSeconds (response : Option Response) : Except PyError (Option Seconds) :=
  match header R response with
  | none => .ok none
  | some raw => do
    match ← headerValue R raw with
    | none => return none
    | some value => return if value.nonpositive then none else some value

/-- `retry_after_seconds` of an exception: only a response with status 429 is asked. -/
def askedFor (exc : Exc) : Except PyError (Option Seconds) :=
  match exc with
  | .httpStatusError (some response) =>
    if response.statusCode = 429 then retryAfterSeconds R (some response) else .ok none
  | .httpStatusError none | .other => .ok none

def retrySleepSeconds (exc : Exc) (baseBackoff : ℚ) (attempt : ℕ) (maxSleepSeconds jitter : ℚ) :
    Except PyError ℚ := do
  match ← askedFor R exc with
  | some value => return value.atMost maxSleepSeconds
  | none => return min maxSleepSeconds ((← scaled attempt baseBackoff) + jitter)

/-! ### Where no header applies -/

/-- The exception is a 429 with a header whose value is a positive number of seconds. -/
def Usable (exc : Exc) : Prop := ∃ value, askedFor R exc = .ok (some value)

/-- The exception is a 429 with a header that is no number, and whose date cannot be read for
another reason than its form or type. -/
def Unreadable (exc : Exc) : Prop :=
  ∃ response raw e, exc = .httpStatusError (some response) ∧ response.statusCode = 429 ∧
    header R (some response) = some raw ∧ R.text.float raw = none ∧
    R.secondsUntil raw = .error e ∧ e ≠ .typeError ∧ e ≠ .valueError

variable {R} {exc : Exc} {attempt : ℕ} {base cap jitter jitter' : ℚ}

theorem headerValue_eq_error {raw : String} {e : PyError} :
    headerValue R raw = .error e ↔ R.text.float raw = none ∧ R.secondsUntil raw = .error e ∧
      e ≠ .typeError ∧ e ≠ .valueError := by
  unfold headerValue
  cases R.text.float raw with
  | some value => simp
  | none =>
    cases R.secondsUntil raw with
    | ok value => simp
    | error other => cases other <;> simp <;> rintro rfl <;> simp

theorem retryAfterSeconds_eq_error {response : Option Response} {e : PyError} :
    retryAfterSeconds R response = .error e ↔
      ∃ raw, header R response = some raw ∧ headerValue R raw = .error e := by
  unfold retryAfterSeconds
  cases header R response with
  | none => simp
  | some raw =>
    cases hvalue : headerValue R raw with
    | error other => simp [bind, Except.bind, hvalue]
    | ok value =>
      cases value with
      | none => simp [bind, Except.bind, hvalue, pure, Except.pure]
      | some value => simp [bind, Except.bind, hvalue, pure, Except.pure]

theorem unreadable_iff : Unreadable R exc ↔ ∃ e, askedFor R exc = .error e := by
  constructor
  · rintro ⟨response, raw, e, rfl, hstatus, hheader, hvalue⟩
    refine ⟨e, ?_⟩
    rw [askedFor, if_pos hstatus, retryAfterSeconds_eq_error]
    exact ⟨raw, hheader, headerValue_eq_error.mpr hvalue⟩
  · rintro ⟨e, h⟩
    unfold askedFor at h
    split at h
    · rename_i response
      split at h
      · rename_i hstatus
        obtain ⟨raw, hheader, hvalue⟩ := retryAfterSeconds_eq_error.mp h
        exact ⟨response, raw, e, rfl, hstatus, hheader, headerValue_eq_error.mp hvalue⟩
      · cases h
    · cases h
    · cases h

theorem retrySleepSeconds_of_not_usable (hread : ¬Unreadable R exc) (husable : ¬Usable R exc) :
    retrySleepSeconds R exc base attempt cap jitter =
      Retry.retrySleepSeconds attempt base cap jitter := by
  unfold retrySleepSeconds
  cases hasked : askedFor R exc with
  | error e => exact absurd (unreadable_iff.mpr ⟨e, hasked⟩) hread
  | ok asked =>
    cases asked with
    | some value => exact absurd ⟨value, hasked⟩ husable
    | none => rfl

/-- A header that cannot be read raises before the sleep is computed. -/
theorem retrySleepSeconds_of_unreadable (h : Unreadable R exc) :
    ∃ e, retrySleepSeconds R exc base attempt cap jitter = .error e := by
  obtain ⟨e, hasked⟩ := unreadable_iff.mp h
  refine ⟨e, ?_⟩
  unfold retrySleepSeconds
  rw [hasked]
  rfl

/-- Delays that do not shrink: the two delays and the bounds of the first, and the same delay from
the policy where no header applies. -/
def NeverShrinks (R : Reader) (exc : Exc) (base cap : ℚ) (attempt : ℕ) (jitter jitter' : ℚ) :
    Prop :=
  ∃ sleep next, Retry.retrySleepSeconds attempt base cap jitter = .ok sleep ∧
    Retry.retrySleepSeconds (attempt + 1) base cap jitter' = .ok next ∧
    sleep ≤ next ∧ min cap base ≤ sleep ∧ sleep ≤ cap ∧
    (¬Usable R exc → retrySleepSeconds R exc base attempt cap jitter = .ok sleep)

/-- The delays behave up to the attempt whose power of two is no longer a `float`, unless a date in
the header cannot be read. -/
theorem never_shrinks_iff (hattempt : 1 ≤ attempt) (hdraw : Draw base jitter)
    (hdraw' : Draw base jitter') :
    NeverShrinks R exc base cap attempt jitter jitter' ↔
      attempt + 1 ≤ 1024 ∧ ¬Unreadable R exc := by
  constructor
  · rintro ⟨sleep, next, hsleep, hnext, -, -, -, hpolicy⟩
    constructor
    · by_contra hlarge
      rw [retrySleepSeconds_of_gt (not_le.mp hlarge)] at hnext
      cases hnext
    · intro hunreadable
      obtain ⟨e, hasked⟩ := unreadable_iff.mp hunreadable
      obtain ⟨other, herror⟩ := retrySleepSeconds_of_unreadable hunreadable
      have hnot : ¬Usable R exc := by
        rintro ⟨value, hvalue⟩
        rw [hasked] at hvalue
        cases hvalue
      have hok := hpolicy hnot
      rw [herror] at hok
      cases hok
  · rintro ⟨hsmall, hread⟩
    have hsleep : Retry.retrySleepSeconds attempt base cap jitter =
        .ok (min cap (base * 2 ^ (attempt - 1) + jitter)) := retrySleepSeconds_of_le (by omega)
    refine ⟨_, _, hsleep, retrySleepSeconds_of_le hsmall, ?_, ?_, min_le_left _ _, ?_⟩
    · exact min_le_min_left _ (delay_le_next hattempt hdraw hdraw')
    · exact min_le_min_left _ (base_le_delay hdraw)
    · intro hnot
      rw [retrySleepSeconds_of_not_usable hread hnot, hsleep]

/-- A reader of plain text that reads no dates. -/
def plainReader : Reader := ⟨Text.plain, fun _ => .error .valueError⟩

theorem never_shrinks_first :
    NeverShrinks plainReader .other 1 60 1 (1 / 2) (1 / 4) ↔
      1 + 1 ≤ 1024 ∧ ¬Unreadable plainReader .other :=
  never_shrinks_iff le_rfl ⟨by norm_num, by norm_num⟩ ⟨by norm_num, by norm_num⟩

/-- The delay before attempt 1026 is not capped: it raises. -/
theorem delay_overflows :
    ¬∀ (R : Reader) (exc : Exc) (base cap : ℚ) (attempt : ℕ) (jitter jitter' : ℚ), 0 ≤ base →
      0 ≤ cap → 1 ≤ attempt → Draw base jitter → Draw base jitter' →
      NeverShrinks R exc base cap attempt jitter jitter' := by
  intro h
  obtain ⟨sleep, next, hsleep, -⟩ := h plainReader .other 1 60 1025 0 0 (by norm_num) (by norm_num)
    (by norm_num) ⟨le_rfl, by norm_num⟩ ⟨le_rfl, by norm_num⟩
  rw [retrySleepSeconds_of_gt (by norm_num)] at hsleep
  cases hsleep

end ChainMonitor.RetryPolicy
