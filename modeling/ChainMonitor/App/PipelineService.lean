import ChainMonitor.Db.Snapshots
import ChainMonitor.ProofKit.CharSet
import ChainMonitor.ProofKit.Run

/-! `ChainPipelineService.run_claimed` of `app/services/chain_pipeline_service.py`: one claimed run,
its coroutine, and the threads that write its outcome. The coroutine awaits one stage at a time. A
timeout or a cancellation ends the await, and leaves a thread that has started to run on. -/

namespace ChainMonitor.PipelineService

open ProofKit Snapshots

/-! ### The text of an error -/

/-- `str.isspace` of one character, which is also what `\s` matches. -/
def isSpace (c : Char) : Bool :=
  let n := c.toNat
  (9 ≤ n ∧ n ≤ 13) ∨ (28 ≤ n ∧ n ≤ 32) ∨ n = 0x85 ∨ n = 0xa0 ∨ n = 0x1680 ∨
    (0x2000 ≤ n ∧ n ≤ 0x200a) ∨ n = 0x2028 ∨ n = 0x2029 ∨ n = 0x202f ∨ n = 0x205f ∨ n = 0x3000

/-- `re.sub(r"\s+", " ", text)`. -/
def collapseSpaces : List Char → List Char
  | [] => []
  | c :: cs =>
    if isSpace c then
      match cs with
      | [] => [' ']
      | d :: _ => if isSpace d then collapseSpaces cs else ' ' :: collapseSpaces cs
    else c :: collapseSpaces cs

/-- `text.strip()`. -/
def strip (text : List Char) : List Char :=
  ((text.dropWhile isSpace).reverse.dropWhile isSpace).reverse

/-- The pattern `r"[^a-zA-Z0-9 _:\\-.,=/]"`. -/
def unsafeCharacters : String := "[^a-zA-Z0-9 _:\\\\-.,=/]"

def sanitizeErrorMessage (errorMessage : String) : Except ReError String := do
  let compact := strip (collapseSpaces errorMessage.toList)
  let safe ← CharSet.sub unsafeCharacters '_' compact
  return String.ofList (safe.take 500)

/-- In the pattern, two backslashes are one, and `\-.` is a range that ends before it begins. -/
theorem compile_unsafeCharacters :
    CharSet.compile unsafeCharacters = .error ⟨"bad character range \\\\-."⟩ := by
  decide +kernel

theorem sanitizeErrorMessage_eq (errorMessage : String) :
    sanitizeErrorMessage errorMessage = .error ⟨"bad character range \\\\-."⟩ := by
  simp only [sanitizeErrorMessage, CharSet.sub_eq_error compile_unsafeCharacters]
  rfl

/-! ### What a run works on -/

structure MarketTickInput where
  chainId : String
  tokenId : String
  tsMinute : ℤ
  priceUsd : ℚ
  volume1m : ℚ
  volume5m : ℚ
  liquidityUsd : ℚ
  buys1m : ℤ
  sells1m : ℤ
  txCount1m : ℤ
  deriving DecidableEq

structure Settings where
  minLiquidityUsd : ℚ
  minVolume5mUsd : ℚ
  minTx1m : ℤ

def applyGate (cfg : Settings) (ticks : List MarketTickInput) : List MarketTickInput :=
  ticks.filter fun tick => cfg.minLiquidityUsd ≤ tick.liquidityUsd ∧
    cfg.minVolume5mUsd ≤ tick.volume5m ∧ cfg.minTx1m ≤ tick.txCount1m

/-- The exceptions that `run_claimed` tells apart. -/
inductive PyException
  | cancelledError
  | timeoutError (typeName : String)
  | ingestionFetchError (reason detail traceId : String)
  | exception (typeName text : String)
  deriving DecidableEq

def PyException.typeName : PyException → String
  | .cancelledError => "CancelledError"
  | .timeoutError typeName => typeName
  | .ingestionFetchError .. => "IngestionFetchError"
  | .exception typeName _ => typeName

def PyException.text : PyException → String
  | .cancelledError => ""
  | .timeoutError _ => ""
  | .ingestionFetchError reason detail _ => reason ++ ": " ++ detail
  | .exception _ text => text

/-- The error message of a failure in the fetch, feature or score stage. -/
def prepareErrorMessage : PyException → String
  | .cancelledError => "cancelled"
  | .timeoutError typeName => "timeout:" ++ typeName
  | .ingestionFetchError reason _ traceId => "ingestion:" ++ reason ++ " trace=" ++ traceId
  | e => "prepare:" ++ e.typeName ++ ":" ++ e.text

/-- The error message of a failure in the persist stage. -/
def persistErrorMessage : PyException → String
  | .cancelledError => "cancelled"
  | .timeoutError typeName => "persist_timeout:" ++ typeName
  | e => "persist:" ++ e.typeName ++ ":" ++ e.text

inductive Status
  | running
  | success
  | failed
  deriving DecidableEq

/-- The arguments of `run_claimed` that pick out its row. -/
structure Claim where
  runId : String
  chainId : String
  strategyVersion : String
  runTs : ℤ
  deriving DecidableEq

/-- A row of `pipeline_runs`. -/
structure PipelineRun where
  claim : Claim
  status : Status
  tickCount : ℕ
  candidateCount : ℕ
  errorMessage : Option String
  deriving DecidableEq

/-- The row that a claim inserts. -/
def claimedRow (claim : Claim) : PipelineRun := ⟨claim, .running, 0, 0, none⟩

/-- `mark_pipeline_run_status` on one row: whether the row is selected, and the row after it. The
status that the row has before is not looked at. -/
def markPipelineRunStatus (claim : Claim) (status : Status) (tickCount candidateCount : ℕ)
    (errorMessage : Option String) (row : PipelineRun) : Bool × PipelineRun :=
  if row.claim = claim then (true, { row with status, tickCount, candidateCount, errorMessage })
  else (false, row)

/-- What `_persist_success` writes besides the status. -/
structure Payload (φ : Type*) where
  ticks : List MarketTickInput
  features : List φ
  scores : List ScoreRowInput
  deriving DecidableEq

variable {φ : Type*}

def Payload.candidateCount (p : Payload φ) : ℕ := p.scores.countP isCandidate

/-! ### The coroutine and its threads -/

/-- What `run_claimed` raises: the exception that made it fail, the error of the sanitizer in its
place, or an exception of the await in `_mark_failed`. -/
inductive Raised
  | original (e : PyException)
  | sanitizer (e : ReError)
  | marking (e : PyException)
  deriving DecidableEq

inductive Coroutine (φ : Type*)
  | fetching
  | building (ticks : List MarketTickInput)
  | scoring (ticks : List MarketTickInput) (features : List φ)
  | persisting (p : Payload φ)
  | marking (e : PyException)
  | returned (tickCount candidateCount : ℕ)
  | raised (r : Raised)
  deriving DecidableEq

/-- The thread of `_persist_success`. A thread that has not started can be cancelled. -/
inductive Worker (φ : Type*)
  | idle
  | queued (p : Payload φ)
  | running (p : Payload φ)
  | committed (updated : Bool)
  | rolledBack (e : PyException)
  | cancelled
  deriving DecidableEq

/-- The thread of the status update in `_mark_failed`. -/
inductive Marker
  | idle
  | queued (tickCount : ℕ) (errorMessage : String)
  | applied (updated : Bool)
  | failed (e : PyException)
  deriving DecidableEq

/-- A run, its row, and the payloads that its transactions have committed. -/
structure System (φ : Type*) where
  coroutine : Coroutine φ
  worker : Worker φ
  marker : Marker
  row : PipelineRun
  stored : List (Payload φ)
  deriving DecidableEq

def claimed (claim : Claim) : System φ := ⟨.fetching, .idle, .idle, claimedRow claim, []⟩

/-- What can happen next: a stage of the coroutine ends, a thread does its work, or the coroutine
hears of it. -/
inductive Act (φ : Type*)
  | fetched (ticks : List MarketTickInput)
  | built (features : List φ)
  | scored (scores : List ScoreRowInput)
  | scoredLate (scores : List ScoreRowInput)
  | prepareRaised (e : PyException)
  | start
  | commit
  | rollback (e : PyException)
  | persisted
  | persistRaised
  | abandon (timeout : Bool)
  | mark
  | markRaises (e : PyException)
  | marked
  | markAbandoned

/-- `_mark_failed` up to its await. The sanitizer runs before the thread of the update is made, and
its error takes the place of the exception. -/
def markFailed (tickCount : ℕ) (errorMessage : String) (e : PyException) (s : System φ) :
    System φ :=
  match sanitizeErrorMessage errorMessage with
  | .error re => { s with coroutine := .raised (.sanitizer re) }
  | .ok text => { s with coroutine := .marking e, marker := .queued tickCount text }

/-- The handler of a failure of the persist stage. -/
def persistFailed (p : Payload φ) (e : PyException) (s : System φ) : System φ :=
  markFailed p.ticks.length (persistErrorMessage e) e s

/-- A cancelled await cancels its thread, unless the thread has started. -/
def Worker.cancel : Worker φ → Worker φ
  | .queued _ => .cancelled
  | w => w

/-- The exception of an await that ends before its thread. -/
def abandoned (timeout : Bool) : PyException :=
  if timeout then .timeoutError "TimeoutError" else .cancelledError

def Coroutine.isPreparing : Coroutine φ → Bool
  | .fetching | .building _ | .scoring _ _ => true
  | _ => false

def step (cfg : Settings) (claim : Claim) (s : System φ) : Act φ → Option (System φ)
  | .fetched ticks =>
    match s.coroutine with
    | .fetching => some { s with coroutine := .building (applyGate cfg ticks) }
    | _ => none
  | .built features =>
    match s.coroutine with
    | .building ticks => some { s with coroutine := .scoring ticks features }
    | _ => none
  | .scored scores =>
    match s.coroutine with
    | .scoring ticks features =>
      let p := ⟨ticks, features, scores⟩
      some { s with coroutine := .persisting p, worker := .queued p }
    | _ => none
  | .scoredLate scores =>
    match s.coroutine with
    -- `_bounded_timeout` finds the deadline past, before the thread is made
    | .scoring ticks features => some (persistFailed ⟨ticks, features, scores⟩ (abandoned true) s)
    | _ => none
  | .prepareRaised e =>
    if s.coroutine.isPreparing then some (markFailed 0 (prepareErrorMessage e) e s) else none
  | .start =>
    match s.worker with
    | .queued p => some { s with worker := .running p }
    | _ => none
  | .commit =>
    match s.worker with
    | .running p =>
      let (updated, row) :=
        markPipelineRunStatus claim .success p.ticks.length p.candidateCount none s.row
      some { s with worker := .committed updated, row := row, stored := s.stored ++ [p] }
    | _ => none
  | .rollback e =>
    match s.worker with
    | .running _ => some { s with worker := .rolledBack e }
    | _ => none
  | .persisted =>
    match s.coroutine, s.worker with
    | .persisting p, .committed _ =>
      some { s with coroutine := .returned p.ticks.length p.candidateCount }
    | _, _ => none
  | .persistRaised =>
    match s.coroutine, s.worker with
    | .persisting p, .rolledBack e => some (persistFailed p e s)
    | _, _ => none
  | .abandon timeout =>
    match s.coroutine with
    | .persisting p =>
      some (persistFailed p (abandoned timeout) { s with worker := s.worker.cancel })
    | _ => none
  | .mark =>
    match s.marker with
    | .queued tickCount errorMessage =>
      let (updated, row) :=
        markPipelineRunStatus claim .failed tickCount 0 (some errorMessage) s.row
      some { s with marker := .applied updated, row := row }
    | _ => none
  | .markRaises e =>
    match s.marker with
    | .queued _ _ => some { s with marker := .failed e }
    | _ => none
  | .marked =>
    match s.coroutine, s.marker with
    | .marking e, .applied _ => some { s with coroutine := .raised (.original e) }
    | .marking _, .failed e => some { s with coroutine := .raised (.marking e) }
    | _, _ => none
  | .markAbandoned =>
    match s.coroutine with
    | .marking _ => some { s with coroutine := .raised (.marking .cancelledError) }
    | _ => none

section Steps

variable {cfg : Settings} {claim : Claim} {s s' : System φ} {p : Payload φ}

/-- The row after the transaction of `p`. -/
def successRow (claim : Claim) (p : Payload φ) (row : PipelineRun) : PipelineRun :=
  (markPipelineRunStatus claim .success p.ticks.length p.candidateCount none row).2

/-- What a step does: the coroutine goes on or fails, or a thread works. -/
inductive Fires (claim : Claim) (s : System φ) : Act φ → System φ → Prop
  | prepare {a : Act φ} {c : Coroutine φ} (hs : s.coroutine.isPreparing = true)
      (hc : c.isPreparing = true) : Fires claim s a { s with coroutine := c }
  | scored {scores : List ScoreRowInput} {p : Payload φ} (hs : s.coroutine.isPreparing = true) :
      Fires claim s (.scored scores) { s with coroutine := .persisting p, worker := .queued p }
  | prepareFails {a : Act φ} {tickCount : ℕ} {errorMessage : String} {e : PyException}
      (hs : s.coroutine.isPreparing = true) :
      Fires claim s a (markFailed tickCount errorMessage e s)
  | start {p : Payload φ} (hw : s.worker = .queued p) :
      Fires claim s .start { s with worker := .running p }
  | commit {p : Payload φ} {updated : Bool} (hw : s.worker = .running p) :
      Fires claim s .commit { s with
        worker := .committed updated, row := successRow claim p s.row, stored := s.stored ++ [p] }
  | rollback {p : Payload φ} (hw : s.worker = .running p) (e : PyException) :
      Fires claim s (.rollback e) { s with worker := .rolledBack e }
  | persisted {p : Payload φ} {updated : Bool} (hc : s.coroutine = .persisting p)
      (hw : s.worker = .committed updated) :
      Fires claim s .persisted
        { s with coroutine := .returned p.ticks.length p.candidateCount }
  | persistFails {p : Payload φ} {e : PyException} (hc : s.coroutine = .persisting p)
      (hw : s.worker = .rolledBack e) : Fires claim s .persistRaised (persistFailed p e s)
  | abandon {p : Payload φ} (hc : s.coroutine = .persisting p) (timeout : Bool) :
      Fires claim s (.abandon timeout)
        (persistFailed p (abandoned timeout) { s with worker := s.worker.cancel })
  | mark {tickCount : ℕ} {errorMessage : String} {updated : Bool}
      (hm : s.marker = .queued tickCount errorMessage) :
      Fires claim s .mark { s with
        marker := .applied updated
        row := (markPipelineRunStatus claim .failed tickCount 0 (some errorMessage) s.row).2 }
  | markRaises {tickCount : ℕ} {errorMessage : String}
      (hm : s.marker = .queued tickCount errorMessage) (e : PyException) :
      Fires claim s (.markRaises e) { s with marker := .failed e }
  | marked {a : Act φ} {e : PyException} (hc : s.coroutine = .marking e) (r : Raised) :
      Fires claim s a { s with coroutine := .raised r }

theorem fires_of_step {a : Act φ} (h : step cfg claim s a = some s') : Fires claim s a s' := by
  cases a with
  | fetched ticks | built features =>
    simp only [step] at h
    split at h <;> cases h
    exact .prepare (by simp [Coroutine.isPreparing, *]) rfl
  | scored scores =>
    simp only [step] at h
    split at h <;> cases h
    exact .scored (by simp [Coroutine.isPreparing, *])
  | scoredLate scores =>
    simp only [step] at h
    split at h <;> cases h
    exact .prepareFails (by simp [Coroutine.isPreparing, *])
  | prepareRaised e =>
    simp only [step] at h
    split at h <;> cases h
    exact .prepareFails ‹_›
  | start =>
    simp only [step] at h
    split at h <;> cases h
    exact .start ‹_›
  | commit =>
    simp only [step] at h
    split at h <;> cases h
    exact .commit ‹_›
  | rollback e =>
    simp only [step] at h
    split at h <;> cases h
    exact .rollback ‹_› e
  | persisted =>
    simp only [step] at h
    split at h <;> cases h
    exact .persisted ‹_› ‹_›
  | persistRaised =>
    simp only [step] at h
    split at h <;> cases h
    exact .persistFails ‹_› ‹_›
  | abandon timeout =>
    simp only [step] at h
    split at h <;> cases h
    exact .abandon ‹_› timeout
  | mark =>
    simp only [step] at h
    split at h <;> cases h
    exact .mark ‹_›
  | markRaises e =>
    simp only [step] at h
    split at h <;> cases h
    exact .markRaises ‹_› e
  | marked =>
    simp only [step] at h
    split at h <;> cases h
    · exact .marked ‹_› _
    · exact .marked ‹_› _
  | markAbandoned =>
    simp only [step] at h
    split at h <;> cases h
    exact .marked ‹_› _

/-! ### The status of a failing run -/

theorem markFailed_eq (tickCount : ℕ) (errorMessage : String) (e : PyException) :
    ∃ re, markFailed tickCount errorMessage e s =
      { s with coroutine := .raised (.sanitizer re) } := by
  simp only [markFailed, sanitizeErrorMessage_eq]
  exact ⟨_, rfl⟩

theorem status_markPipelineRunStatus {status : Status} {tickCount candidateCount : ℕ}
    {errorMessage : Option String} {row : PipelineRun} :
    (markPipelineRunStatus claim status tickCount candidateCount errorMessage row).2.status =
      if row.claim = claim then status else row.status := by
  unfold markPipelineRunStatus
  split <;> rfl

/-- No status update is ever made for a failure, and what is raised is the sanitizer's error. -/
structure Unmarked (s : System φ) : Prop where
  marker : s.marker = .idle
  status : s.row.status ≠ .failed
  marking : ∀ e, s.coroutine ≠ .marking e
  raised : ∀ r, s.coroutine = .raised r → ∃ re, r = .sanitizer re

theorem unmarked_claimed (claim : Claim) : Unmarked (claimed claim : System φ) :=
  ⟨rfl, by simp [claimed, claimedRow], nofun, nofun⟩

theorem Unmarked.markFailed (h : Unmarked s) (tickCount : ℕ) (errorMessage : String)
    (e : PyException) : Unmarked (markFailed tickCount errorMessage e s) := by
  obtain ⟨re, he⟩ := markFailed_eq (s := s) tickCount errorMessage e
  rw [he]
  refine ⟨h.marker, h.status, nofun, fun r hr => ?_⟩
  cases hr
  exact ⟨re, rfl⟩

theorem Unmarked.worker (h : Unmarked s) (w : Worker φ) : Unmarked { s with worker := w } :=
  ⟨h.marker, h.status, h.marking, h.raised⟩

theorem Unmarked.step {a : Act φ} (h : Unmarked s)
    (hs : PipelineService.step cfg claim s a = some s') : Unmarked s' := by
  cases fires_of_step hs with
  | prepare _ hc =>
    refine ⟨h.marker, h.status, ?_, ?_⟩ <;> rintro _ rfl <;> simp [Coroutine.isPreparing] at hc
  | scored _ => exact ⟨h.marker, h.status, nofun, nofun⟩
  | prepareFails _ => exact h.markFailed _ _ _
  | start _ => exact h.worker _
  | commit _ =>
    refine ⟨h.marker, ?_, h.marking, h.raised⟩
    have hstatus := h.status
    rw [successRow, status_markPipelineRunStatus]
    split
    · simp
    · exact hstatus
  | rollback _ _ => exact h.worker _
  | persisted _ _ => exact ⟨h.marker, h.status, nofun, nofun⟩
  | persistFails _ _ => exact h.markFailed _ _ _
  | abandon _ _ => exact (h.worker _).markFailed _ _ _
  | mark hm => simp [h.marker] at hm
  | markRaises hm _ => simp [h.marker] at hm
  | marked hc _ => exact absurd hc (h.marking _)

/-- In whatever way a run fails, its row does not become failed, and what it raises is not the
exception that made it fail: the sanitizer's error takes its place, before the status update. -/
theorem failing_run_unmarked {acts : List (Act φ)}
    (h : exec (PipelineService.step cfg claim) (claimed claim) acts = some s) {r : Raised}
    (hr : s.coroutine = .raised r) : s.row.status ≠ .failed ∧ ∀ e, r ≠ .original e := by
  have hu : Unmarked s :=
    exec_invariant Unmarked (unmarked_claimed claim) (fun _ _ _ hi hs => hi.step hs) h
  obtain ⟨re, rfl⟩ := hu.raised r hr
  exact ⟨hu.status, nofun⟩

def anyTicks : Settings := ⟨0, 0, 0⟩

def sampleClaim : Claim := ⟨"a1", "sol", "v1", 0⟩

/-- The fetch is cancelled: the row stays `running`, and the sanitizer's error is raised. -/
def cancelledFetch : List (Act ℕ) := [.prepareRaised .cancelledError]

theorem failing_run_unmarked_cancelledFetch :
    ∃ s r, exec (step anyTicks sampleClaim) (claimed sampleClaim) cancelledFetch = some s ∧
      s.coroutine = .raised r ∧ s.row.status ≠ .failed ∧ ∀ e, r ≠ .original e := by
  obtain ⟨re, he⟩ := markFailed_eq (s := (claimed sampleClaim : System ℕ)) 0
    (prepareErrorMessage .cancelledError) .cancelledError
  have hrun : exec (step anyTicks sampleClaim) (claimed sampleClaim) cancelledFetch =
      some { (claimed sampleClaim : System ℕ) with coroutine := .raised (.sanitizer re) } :=
    congrArg some he
  exact ⟨_, _, hrun, rfl, failing_run_unmarked hrun rfl⟩

/-- No status update raises, and the row does not become failed all the same. -/
theorem cancelledFetch_unmarked :
    ¬ ∀ (cfg : Settings) (claim : Claim) (acts : List (Act ℕ)) (s : System ℕ) (r : Raised),
      (∀ a ∈ acts, a ≠ .markAbandoned ∧ ∀ e, a ≠ .markRaises e) →
      exec (step cfg claim) (claimed claim) acts = some s → s.coroutine = .raised r →
        s.row.status = .failed ∧ ∃ e, r = .original e := by
  intro h
  have hrun : (exec (step anyTicks sampleClaim) (claimed sampleClaim) cancelledFetch).map
      (fun s => (s.coroutine, s.row.status)) =
      some (.raised (.sanitizer ⟨"bad character range \\\\-."⟩), .running) := by
    decide +kernel
  obtain ⟨s, hs, he⟩ := Option.map_eq_some_iff.mp hrun
  obtain ⟨hcoroutine, hstatus⟩ := Prod.mk.inj he
  have hupdates : ∀ a ∈ cancelledFetch, a ≠ .markAbandoned ∧ ∀ e, a ≠ .markRaises e := by
    simp [cancelledFetch]
  have hfailed := (h anyTicks sampleClaim cancelledFetch s _ hupdates hs hcoroutine).1
  rw [hstatus] at hfailed
  cases hfailed

/-! ### The outcome and what is stored -/

/-- The thread has not started, and will not, or has rolled back. -/
def Worker.isStopped : Worker φ → Bool
  | .idle | .cancelled | .rolledBack _ => true
  | _ => false

/-- The states of a run whose thread never outlives the await for it. -/
inductive Consistent (claim : Claim) : System φ → Prop
  | preparing {c : Coroutine φ} (hc : c.isPreparing = true) :
      Consistent claim ⟨c, .idle, .idle, claimedRow claim, []⟩
  | persisting {p : Payload φ} {w : Worker φ}
      (hw : w = .queued p ∨ w = .running p ∨ ∃ e, w = .rolledBack e) :
      Consistent claim ⟨.persisting p, w, .idle, claimedRow claim, []⟩
  | committed {p : Payload φ} {updated : Bool} :
      Consistent claim
        ⟨.persisting p, .committed updated, .idle, successRow claim p (claimedRow claim), [p]⟩
  | returned {p : Payload φ} {updated : Bool} :
      Consistent claim ⟨.returned p.ticks.length p.candidateCount, .committed updated, .idle,
        successRow claim p (claimedRow claim), [p]⟩
  | failed {c : Coroutine φ} {w : Worker φ} {m : Marker} {row : PipelineRun}
      (hc : (∃ e, c = .marking e) ∨ ∃ r, c = .raised r) (hw : w.isStopped = true)
      (hrow : row.status ≠ .success) : Consistent claim ⟨c, w, m, row, []⟩

/-- A failure leaves nothing stored, whatever the sanitizer makes of its text. -/
theorem Consistent.markFailed {c : Coroutine φ} {w : Worker φ} {m : Marker} {row : PipelineRun}
    (hw : w.isStopped = true) (hrow : row.status ≠ .success) (tickCount : ℕ)
    (errorMessage : String) (e : PyException) :
    Consistent claim (markFailed tickCount errorMessage e ⟨c, w, m, row, []⟩) := by
  unfold PipelineService.markFailed
  split
  · exact .failed (.inr ⟨_, rfl⟩) hw hrow
  · exact .failed (.inl ⟨_, rfl⟩) hw hrow

/-- The step of a run that is waiting for its transaction. -/
theorem Consistent.step_persisting {a : Act φ} {w : Worker φ}
    (hw : w = .queued p ∨ w = .running p ∨ ∃ e, w = .rolledBack e)
    (hok : ∀ timeout, a = .abandon timeout → w.cancel.isStopped = true)
    (hf : Fires claim ⟨.persisting p, w, .idle, claimedRow claim, []⟩ a s') :
    Consistent claim s' := by
  have hrow : (claimedRow claim).status ≠ .success := by simp [claimedRow]
  cases hf with
  | prepare hs _ | scored hs | prepareFails hs => cases hs
  | start hq =>
    cases hq
    obtain h | h | ⟨e, h⟩ := hw <;> cases h
    exact .persisting (.inr (.inl rfl))
  | commit hr =>
    cases hr
    obtain h | h | ⟨e, h⟩ := hw <;> cases h
    exact .committed
  | rollback _ e => exact .persisting (.inr (.inr ⟨e, rfl⟩))
  | persisted _ hcom =>
    cases hcom
    obtain h | h | ⟨e, h⟩ := hw <;> cases h
  | persistFails hc hroll =>
    cases hroll
    exact .markFailed rfl hrow _ _ _
  | abandon hc timeout => exact .markFailed (hok timeout rfl) hrow _ _ _
  | mark hm | markRaises hm _ | marked hm _ => cases hm

/-- The step of a run that has failed. -/
theorem Consistent.step_failed {a : Act φ} {c : Coroutine φ} {w : Worker φ} {m : Marker}
    {row : PipelineRun} (hc : (∃ e, c = .marking e) ∨ ∃ r, c = .raised r)
    (hw : w.isStopped = true) (hrow : row.status ≠ .success)
    (hf : Fires claim ⟨c, w, m, row, []⟩ a s') : Consistent claim s' := by
  cases hf with
  | prepare hp _ | scored hp | prepareFails hp | persisted hp _ | persistFails hp _
  | abandon hp _ =>
    obtain ⟨e, rfl⟩ | ⟨r, rfl⟩ := hc <;> cases hp
  | start ht | commit ht | rollback ht _ =>
    cases ht
    cases hw
  | mark _ =>
    refine .failed hc hw ?_
    rw [status_markPipelineRunStatus]
    split
    · simp
    · exact hrow
  | markRaises _ _ => exact .failed hc hw hrow
  | marked _ r => exact .failed (.inr ⟨r, rfl⟩) hw hrow

theorem Consistent.step {a : Act φ} (h : Consistent claim s)
    (hok : ∀ timeout, a = .abandon timeout → s.worker.cancel.isStopped = true)
    (hs : PipelineService.step cfg claim s a = some s') : Consistent claim s' := by
  have hf := fires_of_step hs
  cases h with
  | preparing hc =>
    have hrow : (claimedRow claim).status ≠ .success := by simp [claimedRow]
    cases hf with
    | prepare _ hc' => exact .preparing hc'
    | scored _ => exact .persisting (.inl rfl)
    | prepareFails _ => exact .markFailed rfl hrow _ _ _
    | abandon hp timeout => exact .markFailed (hok timeout rfl) hrow _ _ _
    | start hw | commit hw | rollback hw _ | persisted _ hw | persistFails _ hw => cases hw
    | mark hm | markRaises hm _ => cases hm
    | marked hm r =>
      cases hm
      cases hc
  | persisting hw => exact .step_persisting hw hok hf
  | committed =>
    cases hf with
    | persisted hp _ =>
      cases hp
      exact .returned
    | abandon _ timeout =>
      have hstopped := hok timeout rfl
      simp [Worker.cancel, Worker.isStopped] at hstopped
    | prepare hp _ | scored hp | prepareFails hp => cases hp
    | mark hm | markRaises hm _ | marked hm _ => cases hm
    | start hw | commit hw | rollback hw _ | persistFails _ hw => cases hw
  | returned =>
    cases hf with
    | prepare hp _ | scored hp | prepareFails hp | persisted hp _ | abandon hp _ => cases hp
    | mark hm | markRaises hm _ | marked hm _ => cases hm
    | start hw | commit hw | rollback hw _ | persistFails _ hw => cases hw
  | failed hc hw hrow => exact .step_failed hc hw hrow hf

/-- What the caller of `run_claimed` sees agrees with what is stored: a run that has returned has
stored its payload and its success, and a run that has raised has stored neither. -/
structure Agrees (claim : Claim) (s : System φ) : Prop where
  returned : ∀ t c, s.coroutine = .returned t c → ∃ p, s.stored = [p] ∧
    t = p.ticks.length ∧ c = p.candidateCount ∧ s.row = ⟨claim, .success, t, c, none⟩
  raised : ∀ r, s.coroutine = .raised r → s.stored = [] ∧ s.row.status ≠ .success

theorem successRow_claimedRow (claim : Claim) (p : Payload φ) : successRow claim p
    (claimedRow claim) = ⟨claim, .success, p.ticks.length, p.candidateCount, none⟩ := by
  simp [successRow, markPipelineRunStatus, claimedRow]

theorem Consistent.agrees (h : Consistent claim s) : Agrees claim s := by
  cases h with
  | preparing hc =>
    refine ⟨fun t c he => ?_, fun r he => ?_⟩
    · cases he
      cases hc
    · cases he
      cases hc
  | persisting _ => exact ⟨nofun, nofun⟩
  | committed => exact ⟨nofun, nofun⟩
  | @returned p updated =>
    refine ⟨fun t c hc => ?_, nofun⟩
    cases hc
    exact ⟨p, rfl, rfl, rfl, successRow_claimedRow claim p⟩
  | failed hc _ hrow =>
    refine ⟨fun t c he => ?_, fun r _ => ⟨rfl, hrow⟩⟩
    obtain ⟨e, rfl⟩ | ⟨r, rfl⟩ := hc <;> cases he

/-- The thread has begun its transaction, and has not rolled it back. -/
def Worker.hasStarted : Worker φ → Bool
  | .running _ | .committed _ => true
  | _ => false

theorem Worker.isStopped_cancel {w : Worker φ} (h : w.hasStarted = false) :
    w.cancel.isStopped = true := by
  cases w with
  | running _ | committed _ => cases h
  | idle | queued _ | rolledBack _ | cancelled => rfl

/-- A step that does not end the await for a thread that has started. -/
def Awaited (s : System φ) : Act φ → Prop
  | .abandon _ => s.worker.hasStarted = false
  | _ => True

theorem reachable_consistent {acts : List (Act φ)}
    (h : exec (PipelineService.step cfg claim) (claimed claim) acts = some s)
    (hawaited : Meets (PipelineService.step cfg claim) Awaited (claimed claim) acts) :
    Consistent claim s := by
  refine exec_induction (fun _ s => Consistent claim s) (.preparing rfl) ?_ hawaited h
  intro _ s a s' _ hi ha hs
  refine hi.step (fun timeout he => ?_) hs
  subst he
  exact Worker.isStopped_cancel ha

/-- While no timeout or cancellation ends the await for a thread that has started, what the caller
sees agrees with what is stored. -/
theorem outcome_agrees {acts : List (Act φ)}
    (h : exec (PipelineService.step cfg claim) (claimed claim) acts = some s)
    (hawaited : Meets (PipelineService.step cfg claim) Awaited (claimed claim) acts) :
    Agrees claim s :=
  (reachable_consistent h hawaited).agrees

/-- A run that has raised and has a payload stored does not agree with it. -/
theorem not_agrees {r : Raised} (hr : s.coroutine = .raised r) (hp : p ∈ s.stored) :
    ¬ Agrees claim s := by
  intro h
  have hnone := (h.raised r hr).1
  simp [hnone] at hp

theorem abandon_eq {timeout : Bool}
    (hs : PipelineService.step cfg claim s (.abandon timeout) = some s') :
    ∃ p re, s.coroutine = .persisting p ∧
      s' = { s with worker := s.worker.cancel, coroutine := .raised (.sanitizer re) } := by
  simp only [PipelineService.step] at hs
  split at hs <;> cases hs
  obtain ⟨re, he⟩ := markFailed_eq (s := { s with worker := s.worker.cancel })
    _ (persistErrorMessage (abandoned timeout)) (abandoned timeout)
  exact ⟨_, re, ‹_›, he⟩

/-- The condition is exact: when the await for a thread that has started is ended for the first
time, the run raises, and the thread has stored its payload or can still store it. -/
theorem disagrees_of_not_awaited {acts : List (Act φ)} {a : Act φ}
    (h : exec (PipelineService.step cfg claim) (claimed claim) acts = some s)
    (hawaited : Meets (PipelineService.step cfg claim) Awaited (claimed claim) acts)
    (hnot : ¬ Awaited s a) (hs : PipelineService.step cfg claim s a = some s') :
    ∃ bs t, exec (PipelineService.step cfg claim) s' bs = some t ∧ ¬ Agrees claim t := by
  cases a with
  | abandon timeout =>
    replace hnot : s.worker.hasStarted = true := by simpa [Awaited] using hnot
    obtain ⟨p, re, hc, rfl⟩ := abandon_eq hs
    cases reachable_consistent h hawaited with
    | preparing _ => cases hnot
    | persisting hw =>
      obtain rfl | rfl | ⟨e, rfl⟩ := hw
      · cases hnot
      · exact ⟨[.commit], _, rfl, not_agrees rfl (List.mem_singleton.mpr rfl)⟩
      · cases hnot
    | committed => exact ⟨[], _, rfl, not_agrees rfl (List.mem_singleton.mpr rfl)⟩
    | returned => cases hc
    | failed hfailed _ _ => obtain ⟨e, rfl⟩ | ⟨r, rfl⟩ := hfailed <;> cases hc
  | fetched _ | built _ | scored _ | scoredLate _ | prepareRaised _ | start | commit | rollback _
  | persisted | persistRaised | mark | markRaises _ | marked | markAbandoned =>
    exact absurd trivial hnot

end Steps

/-! ### Two runs without a tick -/

/-- The persist stage times out, and its thread commits afterwards. -/
def lateCommit : List (Act ℕ) :=
  [.fetched [], .built [], .scored [], .start, .abandon true, .commit]

theorem lateCommit_stored :
    ¬ ∀ (cfg : Settings) (claim : Claim) (acts : List (Act ℕ)) (s : System ℕ),
      exec (step cfg claim) (claimed claim) acts = some s → Agrees claim s := by
  intro h
  have hrun : (exec (step anyTicks sampleClaim) (claimed sampleClaim) lateCommit).map
      (fun s => (s.coroutine, s.row.status)) =
      some (.raised (.sanitizer ⟨"bad character range \\\\-."⟩), .success) := by
    decide +kernel
  obtain ⟨s, hs, he⟩ := Option.map_eq_some_iff.mp hrun
  obtain ⟨hcoroutine, hstatus⟩ := Prod.mk.inj he
  exact ((h anyTicks sampleClaim lateCommit s hs).raised _ hcoroutine).2 hstatus

/-- The thread commits while it is awaited. -/
def awaitedCommit : List (Act ℕ) :=
  [.fetched [], .built [], .scored [], .start, .commit, .persisted]

theorem meets_awaitedCommit :
    Meets (step anyTicks sampleClaim) Awaited (claimed sampleClaim) awaitedCommit := by
  refine (meets_cons_of_step rfl).mpr ⟨trivial, (meets_cons_of_step rfl).mpr ⟨trivial, ?_⟩⟩
  refine (meets_cons_of_step rfl).mpr ⟨trivial, (meets_cons_of_step rfl).mpr ⟨trivial, ?_⟩⟩
  exact (meets_cons_of_step rfl).mpr ⟨trivial, (meets_cons_of_step rfl).mpr ⟨trivial, trivial⟩⟩

theorem outcome_agrees_awaitedCommit :
    ∃ s, exec (step anyTicks sampleClaim) (claimed sampleClaim) awaitedCommit = some s ∧
      Agrees sampleClaim s :=
  ⟨_, rfl, outcome_agrees rfl meets_awaitedCommit⟩

end ChainMonitor.PipelineService
