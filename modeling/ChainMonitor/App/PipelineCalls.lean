import ChainMonitor.App.PipelineService
import ChainMonitor.ProofKit.Clock
import ChainMonitor.ProofKit.UniqueRows
import Mathlib.Data.Rat.Floor
import Mathlib.Logic.Function.Basic

/-! The calls of `run_once`, `claim_scheduler_window` and `replay` of
`app/services/chain_pipeline_service.py`, from any number of services on one `pipeline_runs` table.
A statement of the database is one step, so the count and the insert of a replay are two. Times are
microseconds of UTC. -/

namespace ChainMonitor.PipelineCalls

open ProofKit PipelineService

/-! ### The table -/

/-- The triggers that the check constraint of the table admits. -/
inductive Trigger
  | manual
  | scheduler
  | replay
  deriving DecidableEq

/-- A row with the columns that tell a claim from a replay, and its age. -/
structure Row where
  run : PipelineRun
  trigger : Trigger
  startedAt : ℤ
  deriving DecidableEq

/-- The columns of the index `ux_pipeline_runs_chain_strategy_ts_non_replay`. -/
def window (claim : Claim) : String × String × ℤ :=
  (claim.chainId, claim.strategyVersion, claim.runTs)

/-- The run id is unique, and so is the window among the rows that are not replays. -/
def clash (r s : Row) : Prop :=
  r.run.claim.runId = s.run.claim.runId ∨
    (r.trigger ≠ .replay ∧ s.trigger ≠ .replay ∧ window r.run.claim = window s.run.claim)

instance : DecidableRel clash := fun r s => by
  unfold clash
  infer_instance

instance : Std.Symm clash where
  symm _ _ := Or.imp Eq.symm fun ⟨hr, hs, hw⟩ => ⟨hs, hr, hw.symm⟩

abbrev PipelineRuns := UniqueRows clash

def startedRow (claim : Claim) (trigger : Trigger) (now : ℤ) : Row :=
  ⟨claimedRow claim, trigger, now⟩

/-- A `run_id` that `uuid4` draws is that of no row. -/
def Fresh (runId : String) (table : PipelineRuns) : Prop :=
  ∀ r ∈ table.rows, r.run.claim.runId ≠ runId

instance (runId : String) (table : PipelineRuns) : Decidable (Fresh runId table) := by
  unfold Fresh
  infer_instance

/-- What an action of `run_claimed` does to a row of the table. -/
def writes {φ : Type*} (claim : Claim) (s : System φ) (a : PipelineService.Act φ)
    (row : PipelineRun) : PipelineRun :=
  match a with
  | .commit =>
    match s.worker with
    | .running p => successRow claim p row
    | _ => row
  | .mark =>
    match s.marker with
    | .queued tickCount errorMessage =>
      (markPipelineRunStatus claim .failed tickCount 0 (some errorMessage) row).2
    | _ => row
  | _ => row

section Writes

variable {φ : Type*} {claim : Claim} {s s' : System φ} {a : PipelineService.Act φ}
  {row : PipelineRun}

theorem writes_claim : (writes claim s a row).claim = row.claim := by
  unfold writes successRow markPipelineRunStatus
  split
  · split
    · split <;> rfl
    · rfl
  · split
    · split <;> rfl
    · rfl
  · rfl

/-- No write makes a row `running`. -/
theorem running_of_writes (h : (writes claim s a row).status = .running) :
    row.status = .running := by
  unfold writes successRow markPipelineRunStatus at h
  split at h
  · split at h
    · split at h
      · cases h
      · exact h
    · exact h
  · split at h
    · split at h
      · cases h
      · exact h
    · exact h
  · exact h

end Writes

/-- `UPDATE pipeline_runs` of an action of `run_claimed`. -/
def update {φ : Type*} (claim : Claim) (s : System φ) (a : PipelineService.Act φ)
    (table : PipelineRuns) : PipelineRuns :=
  table.update (fun r => { r with run := writes claim s a r.run }) fun r r' h => by
    simpa only [clash, writes_claim] using h

/-! ### Timestamps -/

/-- A `datetime`: what its clock reads, and the offset of its zone, which a naive one lacks. -/
structure DateTime where
  wall : ℤ
  utcoffset : Option ℤ
  deriving DecidableEq

/-- The instant that a `datetime` names on a host with the zone `localOffset`. -/
def DateTime.instant (localOffset : ℤ → ℤ) (t : DateTime) : ℤ :=
  t.wall - t.utcoffset.getD (localOffset t.wall)

/-- `t.astimezone(UTC)`. -/
def DateTime.astimezone (localOffset : ℤ → ℤ) (t : DateTime) : DateTime :=
  ⟨t.instant localOffset, some 0⟩

/-- `datetime.now(tz=UTC)`. -/
def utcNow (now : ℤ) : DateTime := ⟨now, some 0⟩

def microsecondsPerMinute : ℤ := 60 * 1000000

/-- `t.replace(second=0, microsecond=0)`. -/
def DateTime.truncate (t : DateTime) : DateTime :=
  { t with wall := t.wall - t.wall % microsecondsPerMinute }

/-! ### Services -/

structure Settings where
  gate : PipelineService.Settings
  runTimeoutSeconds : ℚ
  replayMaxInFlightPerChain : ℤ
  replayMaxLookbackMinutes : ℤ
  replayMaxFutureSkewSeconds : ℤ

/-- A `ChainPipelineService`, with the zone of the host that it runs on. -/
structure Service where
  chainId : String
  strategyVersion : String
  settings : Settings
  localOffset : ℤ → ℤ

def replayLimit (cfg : Settings) : ℤ := max 1 cfg.replayMaxInFlightPerChain

/-- `int(max(60.0, run_timeout_seconds * 2))`. -/
def staleSeconds (cfg : Settings) : ℤ := ⌊max 60 (cfg.runTimeoutSeconds * 2)⌋

def staleAfter (cfg : Settings) (now : ℤ) : ℤ := now - max 1 (staleSeconds cfg) * 1000000

/-- The rows that `count_active_replay_runs` counts. -/
def Row.isActiveReplay (chainId : String) (staleAfter : ℤ) (r : Row) : Bool :=
  r.run.claim.chainId = chainId ∧ r.trigger = .replay ∧ r.run.status = .running ∧
    staleAfter ≤ r.startedAt

def countActiveReplayRuns (chainId : String) (staleAfter : ℤ) (table : PipelineRuns) : ℕ :=
  table.rows.countP (·.isActiveReplay chainId staleAfter)

def Service.normalizeTs (svc : Service) (tsMinute : Option DateTime) (now : ℤ) : DateTime :=
  ((tsMinute.getD (utcNow now)).astimezone svc.localOffset).truncate

/-- What a call raises before it has a run. -/
inductive CallError
  | valueError (text : String)
  | runtimeError (text : String)
  deriving DecidableEq

def validateReplayWindow (cfg : Settings) (runTs now : ℤ) : Except CallError Unit := do
  let nowTs := now - now % microsecondsPerMinute
  let lookbackMinutes := max 1 cfg.replayMaxLookbackMinutes
  if runTs < nowTs - lookbackMinutes * microsecondsPerMinute then
    throw (.valueError "replay ts_minute is out of allowed lookback window")
  let futureSkewSeconds := max 0 cfg.replayMaxFutureSkewSeconds
  if now < runTs ∧ futureSkewSeconds * 1000000 < runTs - now then
    throw (.valueError "replay ts_minute is too far in the future")

structure PipelineRunSummary where
  runId : String
  chainId : String
  strategyVersion : String
  tsMinute : ℤ
  tickCount : ℕ
  candidateCount : ℕ
  status : String
  trigger : Trigger
  skipped : Bool
  deriving DecidableEq

def Service.buildSkippedSummary (svc : Service) (trigger : Trigger) (runTs : ℤ)
    (runId : String) : PipelineRunSummary where
  runId := runId
  chainId := svc.chainId
  strategyVersion := svc.strategyVersion
  tsMinute := runTs
  tickCount := 0
  candidateCount := 0
  status := "skipped"
  trigger := trigger
  skipped := true

/-! ### Calls -/

/-- The method that is called, with its arguments. -/
inductive Entry
  | runOnce (trigger : Trigger) (force : Bool) (tsMinute : Option DateTime)
  | claimSchedulerWindow (tsMinute : DateTime)
  | replay (tsMinute : DateTime)
  deriving DecidableEq

/-- The trigger of the row that the call asks for. -/
def Entry.trigger : Entry → Trigger
  | .runOnce trigger force _ => if force then .replay else trigger
  | .claimSchedulerWindow _ => .scheduler
  | .replay _ => .replay

def Entry.tsMinute : Entry → Option DateTime
  | .runOnce _ _ tsMinute => tsMinute
  | .claimSchedulerWindow tsMinute => some tsMinute
  | .replay tsMinute => some tsMinute

/-- How a call ends that is given no run: with a summary, with the `None` of
`claim_scheduler_window`, or with an exception. -/
inductive Reply
  | skipped (summary : PipelineRunSummary)
  | none
  | raised (e : CallError)
  deriving DecidableEq

/-- Where a call stands. From `counting` to `unlocking` it is inside `with replay_lock`. -/
inductive Phase
  | claiming
  | locking
  | counting
  | inserting
  | unlocking (e : Option CallError)
  | executing
  | returned (reply : Reply)
  | crashed
  deriving DecidableEq

/-- A call, the normalised timestamp that it works with, and the run that `run_claimed` executes for
it. A call without a run has fetched no ticks and written none. -/
structure Call (ι φ : Type*) where
  service : ι
  entry : Entry
  calledAt : ℤ
  runTs : ℤ
  phase : Phase
  run : Option (Claim × System φ)

/-- What the run of a call has claimed. -/
def Call.granted {ι φ : Type*} (c : Call ι φ) : Option Claim := c.run.map Prod.fst

/-- `replay` up to the lock. -/
def Service.beginReplay (svc : Service) (tsMinute : DateTime) (now : ℤ) : ℤ × Phase :=
  let runTs := (svc.normalizeTs (some tsMinute) now).wall
  match validateReplayWindow svc.settings runTs now with
  | .error e => (runTs, .returned (.raised e))
  | .ok () => (runTs, .locking)

/-- A call up to its first statement: its normalised timestamp, and where it stands. -/
def Service.begin (svc : Service) (entry : Entry) (now : ℤ) : ℤ × Phase :=
  match entry with
  | .runOnce _ force tsMinute =>
    let runTs := svc.normalizeTs tsMinute now
    if force then svc.beginReplay runTs now else (runTs.wall, .claiming)
  | .claimSchedulerWindow tsMinute => ((svc.normalizeTs (some tsMinute) now).wall, .claiming)
  | .replay tsMinute => svc.beginReplay tsMinute now

/-- The reply to a call whose window is taken. `run_once` draws another id for its summary. -/
def Service.refusal (svc : Service) (entry : Entry) (runTs : ℤ) (skippedId : String) : Reply :=
  match entry with
  | .claimSchedulerWindow _ => .none
  | _ => .skipped (svc.buildSkippedSummary entry.trigger runTs skippedId)

/-- The table, the holder of each advisory lock, and the calls, each under a name. -/
structure State (ι κ φ : Type*) where
  table : PipelineRuns
  locks : ℤ × ℤ → Option κ
  calls : κ → Option (Call ι φ)

/-- What can happen next: a call begins, runs its next statement, or dies with its process. -/
inductive Act (ι κ φ : Type*)
  | call (k : κ) (service : ι) (entry : Entry)
  | tryStart (k : κ) (runId skippedId : String)
  | lock (k : κ)
  | count (k : κ)
  | insert (k : κ) (runId : String)
  | unlock (k : κ)
  | run (k : κ) (a : PipelineService.Act φ)
  | crash (k : κ)
  | pass

variable {ι κ φ : Type*} [DecidableEq κ]

namespace State

def init (table : PipelineRuns) : State ι κ φ := ⟨table, fun _ => none, fun _ => none⟩

def put (k : κ) (c : Call ι φ) (s : State ι κ φ) : State ι κ φ :=
  { s with calls := Function.update s.calls k (some c) }

/-- The state after the session of `k` has given up the locks that it holds. -/
def release (k : κ) (s : State ι κ φ) : State ι κ φ :=
  { s with locks := fun key => if s.locks key = some k then none else s.locks key }

/-- What `f` makes of call `k`, if it stands at `phase`. -/
def at? (k : κ) (phase : Phase) (f : Call ι φ → Option (State ι κ φ)) (s : State ι κ φ) :
    Option (State ι κ φ) :=
  match s.calls k with
  | none => none
  | some c => if c.phase = phase then f c else none

end State

variable (services : ι → Service) (hashtext : String → ℤ)

/-- The key of `replay_lock`. -/
def replayLock (chainId : String) : ℤ × ℤ := (hashtext "pipeline-replay", hashtext chainId)

/-- The arguments of `run_claimed` for a call that draws `runId`. -/
def Call.claim (c : Call ι φ) (runId : String) : Claim :=
  ⟨runId, (services c.service).chainId, (services c.service).strategyVersion, c.runTs⟩

/-- The call after its row has been inserted. -/
def Call.started (c : Call ι φ) (runId : String) (phase : Phase) : Call ι φ :=
  { c with phase, run := some (c.claim services runId, claimed (c.claim services runId)) }

def step (s : State ι κ φ) (now : ℤ) : Act ι κ φ → Option (State ι κ φ)
  | .call k service entry =>
    match s.calls k with
    | some _ => none
    | none =>
      let (runTs, phase) := (services service).begin entry now
      some (s.put k ⟨service, entry, now, runTs, phase, none⟩)
  | .tryStart k runId skippedId => s.at? k .claiming fun c =>
    if Fresh runId s.table then
      -- `ON CONFLICT DO NOTHING`, and whether a row was inserted
      match s.table.insert? (startedRow (c.claim services runId) c.entry.trigger now) with
      | some table =>
        some ({ s with table }.put k (c.started services runId .executing))
      | none =>
        let reply := (services c.service).refusal c.entry c.runTs skippedId
        some (s.put k { c with phase := .returned reply })
    else none
  | .lock k => s.at? k .locking fun c =>
    let key := replayLock hashtext (services c.service).chainId
    match s.locks key with
    | some _ =>
      some (s.put k { c with
        phase := .returned (.raised (.runtimeError "replay lock not acquired")) })
    | none =>
      some ({ s with locks := Function.update s.locks key (some k) }.put k
        { c with phase := .counting })
  | .count k => s.at? k .counting fun c =>
    let svc := services c.service
    let activeReplays := countActiveReplayRuns svc.chainId (staleAfter svc.settings now) s.table
    if replayLimit svc.settings ≤ activeReplays then
      some (s.put k { c with
        phase := .unlocking (some (.runtimeError "too many in-flight replay runs")) })
    else some (s.put k { c with phase := .inserting })
  | .insert k runId => s.at? k .inserting fun c =>
    if Fresh runId s.table then
      match s.table.insert? (startedRow (c.claim services runId) .replay now) with
      | some table => some ({ s with table }.put k (c.started services runId (.unlocking none)))
      | none => none
    else none
  | .unlock k =>
    match s.calls k with
    | none => none
    | some c =>
      match c.phase with
      | .unlocking none => some ((s.release k).put k { c with phase := .executing })
      | .unlocking (some e) =>
        some ((s.release k).put k { c with phase := .returned (.raised e) })
      | _ => none
  | .run k a => s.at? k .executing fun c =>
    match c.run with
    | none => none
    | some (claim, r) =>
      match PipelineService.step (services c.service).settings.gate claim r a with
      | none => none
      | some r' =>
        some ({ s with table := update claim r a s.table }.put k { c with run := some (claim, r') })
  | .crash k =>
    match s.calls k with
    | none => none
    | some c =>
      match c.phase with
      | .returned _ | .crashed => none
      | _ => some ((s.release k).put k { c with phase := .crashed })
  | .pass => some s

variable {services hashtext} {s s' : State ι κ φ} {k j : κ} {c c' : Call ι φ} {now : ℤ}
  {a : Act ι κ φ}

section Api

@[simp] theorem State.put_calls_self : (s.put k c).calls k = some c := Function.update_self ..

theorem State.put_calls_eq_some : (s.put k c).calls j = some c' ↔
    j = k ∧ c' = c ∨ j ≠ k ∧ s.calls j = some c' := update_eq_some

@[simp] theorem State.put_table : (s.put k c).table = s.table := rfl

@[simp] theorem State.put_locks : (s.put k c).locks = s.locks := rfl

@[simp] theorem State.release_calls : (s.release k).calls = s.calls := rfl

@[simp] theorem State.release_table : (s.release k).table = s.table := rfl

omit [DecidableEq κ] in
theorem State.at?_of_phase {phase : Phase} (hk : s.calls k = some c) (hp : c.phase = phase)
    (f : Call ι φ → Option (State ι κ φ)) : s.at? k phase f = f c := by
  unfold at?
  rw [hk]
  exact if_pos hp

omit [DecidableEq κ] in
theorem State.at?_eq_some {phase : Phase} {f : Call ι φ → Option (State ι κ φ)} :
    s.at? k phase f = some s' ↔ ∃ c, s.calls k = some c ∧ c.phase = phase ∧ f c = some s' := by
  unfold at?
  cases s.calls k with
  | none => simp
  | some c => simp

end Api

/-! ### What a step does -/

/-- The cases of a step, each with what it finds and the state that it leaves. -/
inductive Fires (services : ι → Service) (hashtext : String → ℤ) (s : State ι κ φ) (now : ℤ) :
    Act ι κ φ → State ι κ φ → Prop
  | begins {k : κ} {service : ι} {entry : Entry} (hk : s.calls k = none) :
      Fires services hashtext s now (.call k service entry) (s.put k
        { service, entry
          calledAt := now
          runTs := ((services service).begin entry now).1
          phase := ((services service).begin entry now).2
          run := none })
  | starts {k : κ} {c : Call ι φ} {runId skippedId : String} {table : PipelineRuns}
      (hk : s.calls k = some c) (hp : c.phase = .claiming) (hfresh : Fresh runId s.table)
      (hinsert : s.table.insert? (startedRow (c.claim services runId) c.entry.trigger now) =
        some table) :
      Fires services hashtext s now (.tryStart k runId skippedId)
        ({ s with table }.put k (c.started services runId .executing))
  | refused {k : κ} {c : Call ι φ} {runId skippedId : String}
      (hk : s.calls k = some c) (hp : c.phase = .claiming) (hfresh : Fresh runId s.table)
      (hinsert : s.table.insert? (startedRow (c.claim services runId) c.entry.trigger now) =
        none) :
      Fires services hashtext s now (.tryStart k runId skippedId) (s.put k { c with
        phase := .returned ((services c.service).refusal c.entry c.runTs skippedId) })
  | lockHeld {k : κ} {c : Call ι φ} (hk : s.calls k = some c) (hp : c.phase = .locking) :
      Fires services hashtext s now (.lock k) (s.put k { c with
        phase := .returned (.raised (.runtimeError "replay lock not acquired")) })
  | locks {k : κ} {c : Call ι φ} (hk : s.calls k = some c) (hp : c.phase = .locking)
      (hfree : s.locks (replayLock hashtext (services c.service).chainId) = none) :
      Fires services hashtext s now (.lock k)
        ({ s with
            locks := Function.update s.locks
              (replayLock hashtext (services c.service).chainId) (some k) }.put k
          { c with phase := .counting })
  | tooMany {k : κ} {c : Call ι φ} (hk : s.calls k = some c) (hp : c.phase = .counting) :
      Fires services hashtext s now (.count k) (s.put k { c with
        phase := .unlocking (some (.runtimeError "too many in-flight replay runs")) })
  | counts {k : κ} {c : Call ι φ} (hk : s.calls k = some c) (hp : c.phase = .counting)
      (hroom : countActiveReplayRuns (services c.service).chainId
        (staleAfter (services c.service).settings now) s.table <
          replayLimit (services c.service).settings) :
      Fires services hashtext s now (.count k) (s.put k { c with phase := .inserting })
  | inserts {k : κ} {c : Call ι φ} {runId : String} {table : PipelineRuns}
      (hk : s.calls k = some c) (hp : c.phase = .inserting) (hfresh : Fresh runId s.table)
      (hinsert : s.table.insert? (startedRow (c.claim services runId) .replay now) = some table) :
      Fires services hashtext s now (.insert k runId)
        ({ s with table }.put k (c.started services runId (.unlocking none)))
  | unlocks {k : κ} {c : Call ι φ} (hk : s.calls k = some c) (hp : c.phase = .unlocking none) :
      Fires services hashtext s now (.unlock k)
        ((s.release k).put k { c with phase := .executing })
  | raises {k : κ} {c : Call ι φ} {e : CallError} (hk : s.calls k = some c)
      (hp : c.phase = .unlocking (some e)) :
      Fires services hashtext s now (.unlock k)
        ((s.release k).put k { c with phase := .returned (.raised e) })
  | runs {k : κ} {c : Call ι φ} {claim : Claim} {r r' : System φ} {a : PipelineService.Act φ}
      (hk : s.calls k = some c) (hp : c.phase = .executing) (hr : c.run = some (claim, r))
      (hstep : PipelineService.step (services c.service).settings.gate claim r a = some r') :
      Fires services hashtext s now (.run k a)
        ({ s with table := update claim r a s.table }.put k { c with run := some (claim, r') })
  | crashes {k : κ} {c : Call ι φ} (hk : s.calls k = some c)
      (hp : ∀ reply, c.phase ≠ .returned reply) :
      Fires services hashtext s now (.crash k) ((s.release k).put k { c with phase := .crashed })
  | passes : Fires services hashtext s now .pass s

theorem fires_of_step (h : step services hashtext s now a = some s') :
    Fires services hashtext s now a s' := by
  cases a with
  | call k service entry =>
    simp only [step] at h
    split at h <;> cases h
    exact .begins ‹_›
  | tryStart k runId skippedId =>
    obtain ⟨c, hk, hp, h⟩ := State.at?_eq_some.mp h
    split at h
    · split at h <;> cases h
      · exact .starts hk hp ‹_› ‹_›
      · exact .refused hk hp ‹_› ‹_›
    · cases h
  | lock k =>
    obtain ⟨c, hk, hp, h⟩ := State.at?_eq_some.mp h
    dsimp only at h
    split at h <;> cases h
    · exact .lockHeld hk hp
    · exact .locks hk hp ‹_›
  | count k =>
    obtain ⟨c, hk, hp, h⟩ := State.at?_eq_some.mp h
    dsimp only at h
    split at h <;> cases h
    · exact .tooMany hk hp
    · exact .counts hk hp (not_le.mp ‹_›)
  | insert k runId =>
    obtain ⟨c, hk, hp, h⟩ := State.at?_eq_some.mp h
    split at h
    · split at h <;> cases h
      exact .inserts hk hp ‹_› ‹_›
    · cases h
  | unlock k =>
    simp only [step] at h
    split at h
    · cases h
    · split at h <;> cases h
      · exact .unlocks ‹_› ‹_›
      · exact .raises ‹_› ‹_›
  | run k a =>
    obtain ⟨c, hk, hp, h⟩ := State.at?_eq_some.mp h
    split at h
    · cases h
    · split at h <;> cases h
      exact .runs hk hp ‹_› ‹_›
  | crash k =>
    simp only [step] at h
    split at h
    · cases h
    · rename_i c hk
      split at h <;> cases h
      exact .crashes hk (by assumption)
  | pass =>
    cases h
    exact .passes

/-! ### The table and the calls, step by step -/

/-- Rows that keep their claim, trigger and age, and of which none has become `running`. -/
def Rewrites (before after : PipelineRuns) : Prop :=
  ∃ f : Row → Row, after.rows = before.rows.map f ∧ ∀ r, (f r).run.claim = r.run.claim ∧
    (f r).trigger = r.trigger ∧ (f r).startedAt = r.startedAt ∧
      ((f r).run.status = .running → r.run.status = .running)

theorem Rewrites.refl (table : PipelineRuns) : Rewrites table table :=
  ⟨id, by simp, fun _ => ⟨rfl, rfl, rfl, id⟩⟩

theorem rewrites_update (claim : Claim) (r : System φ) (a : PipelineService.Act φ)
    (table : PipelineRuns) : Rewrites table (update claim r a table) :=
  ⟨_, rfl, fun _ => ⟨writes_claim, rfl, rfl, running_of_writes⟩⟩

/-- The same call later, with the run that it had. -/
structure Call.Continues (c c' : Call ι φ) : Prop where
  service : c'.service = c.service
  entry : c'.entry = c.entry
  calledAt : c'.calledAt = c.calledAt
  runTs : c'.runTs = c.runTs
  granted : c'.granted = c.granted

theorem Call.continues_at (c : Call ι φ) (phase : Phase) : c.Continues { c with phase } :=
  ⟨rfl, rfl, rfl, rfl, rfl⟩

/-- A step leaves all calls but one as they are. Either that call begins, or it goes on, or a row is
inserted for it. -/
inductive Moves (services : ι → Service) (s : State ι κ φ) (now : ℤ) (s' : State ι κ φ) : Prop
  | begins {k : κ} {c : Call ι φ} (hk : s.calls k = none) (hrun : c.run = none)
      (htable : s'.table = s.table) (hcalls : s'.calls = Function.update s.calls k (some c))
  | goesOn {k : κ} {c c' : Call ι φ} (hk : s.calls k = some c) (hc : c.Continues c')
      (htable : Rewrites s.table s'.table)
      (hcalls : s'.calls = Function.update s.calls k (some c'))
  | granted {k : κ} {c : Call ι φ} {runId : String} {trigger : Trigger} {phase : Phase}
      (hk : s.calls k = some c)
      (hp : c.phase = .claiming ∧ trigger = c.entry.trigger ∨
        c.phase = .inserting ∧ trigger = .replay)
      (hfresh : Fresh runId s.table)
      (hinsert : s.table.insert? (startedRow (c.claim services runId) trigger now) = some s'.table)
      (hcalls : s'.calls = Function.update s.calls k (some (c.started services runId phase)))
  | passes (hs : s' = s)

theorem moves_of_fires (h : Fires services hashtext s now a s') : Moves services s now s' := by
  cases h with
  | begins hk => exact .begins hk rfl rfl rfl
  | starts hk hp hfresh hinsert => exact .granted hk (.inl ⟨hp, rfl⟩) hfresh hinsert rfl
  | inserts hk hp hfresh hinsert => exact .granted hk (.inr ⟨hp, rfl⟩) hfresh hinsert rfl
  | refused hk | lockHeld hk | locks hk | tooMany hk | counts hk | unlocks hk | raises hk
  | crashes hk => exact .goesOn hk (Call.continues_at _ _) (.refl _) rfl
  | runs hk _ hr =>
    refine .goesOn hk ?_ (rewrites_update _ _ _ _) rfl
    exact ⟨rfl, rfl, rfl, rfl, by simp [Call.granted, hr]⟩
  | passes => exact .passes rfl

/-! ### What a call is at each phase -/

/-- The instant that the timestamp of the call names. -/
def Call.instant (services : ι → Service) (c : Call ι φ) : ℤ :=
  (c.entry.tsMinute.getD (utcNow c.calledAt)).instant (services c.service).localOffset

def Call.utcMinute (services : ι → Service) (c : Call ι φ) : ℤ :=
  c.instant services / microsecondsPerMinute

theorem normalizeTs_wall (svc : Service) (tsMinute : Option DateTime) (now : ℤ) :
    (svc.normalizeTs tsMinute now).wall =
      microsecondsPerMinute * ((tsMinute.getD (utcNow now)).instant svc.localOffset /
        microsecondsPerMinute) := by
  have h := Int.mul_ediv_add_emod ((tsMinute.getD (utcNow now)).instant svc.localOffset)
    microsecondsPerMinute
  simp only [Service.normalizeTs, DateTime.truncate, DateTime.astimezone]
  omega

theorem normalizeTs_idem (svc : Service) (tsMinute : Option DateTime) (now : ℤ) :
    (svc.normalizeTs (some (svc.normalizeTs tsMinute now)) now).wall =
      (svc.normalizeTs tsMinute now).wall := by
  have hutc : (svc.normalizeTs tsMinute now).instant svc.localOffset =
      (svc.normalizeTs tsMinute now).wall := by
    simp [Service.normalizeTs, DateTime.instant, DateTime.truncate, DateTime.astimezone]
  rw [normalizeTs_wall, Option.getD_some, hutc, normalizeTs_wall,
    Int.mul_ediv_cancel_left _ (by decide)]

theorem beginReplay_runTs (svc : Service) (tsMinute : DateTime) (now : ℤ) :
    (svc.beginReplay tsMinute now).1 = (svc.normalizeTs (some tsMinute) now).wall := by
  unfold Service.beginReplay
  dsimp only
  split <;> rfl

theorem beginReplay_phase (svc : Service) (tsMinute : DateTime) (now : ℤ) :
    (svc.beginReplay tsMinute now).2 = .locking ∨
      ∃ e, (svc.beginReplay tsMinute now).2 = .returned (.raised e) := by
  unfold Service.beginReplay
  dsimp only
  split
  · exact .inr ⟨_, rfl⟩
  · exact .inl rfl

/-- The timestamps that are normalised alike are those of one UTC minute. -/
theorem begin_runTs (svc : Service) (entry : Entry) (now : ℤ) :
    (svc.begin entry now).1 = microsecondsPerMinute *
      ((entry.tsMinute.getD (utcNow now)).instant svc.localOffset / microsecondsPerMinute) := by
  rw [← normalizeTs_wall]
  cases entry with
  | runOnce trigger force tsMinute =>
    simp only [Service.begin, Entry.tsMinute]
    split
    · rw [beginReplay_runTs, normalizeTs_idem]
    · rfl
  | claimSchedulerWindow tsMinute => rfl
  | replay tsMinute => exact beginReplay_runTs svc tsMinute now

/-- Where a call stands when it begins. -/
theorem begin_phase (svc : Service) (entry : Entry) (now : ℤ) :
    (svc.begin entry now).2 = .claiming ∨ entry.trigger = .replay ∧
      ((svc.begin entry now).2 = .locking ∨
        ∃ e, (svc.begin entry now).2 = .returned (.raised e)) := by
  cases entry with
  | runOnce trigger force tsMinute =>
    simp only [Service.begin, Entry.trigger]
    split
    · exact .inr ⟨rfl, beginReplay_phase _ _ _⟩
    · exact .inl rfl
  | claimSchedulerWindow tsMinute => exact .inl rfl
  | replay tsMinute => exact .inr ⟨rfl, beginReplay_phase _ _ _⟩

/-- A call at `phase` has a run. A call that crashed may have one. -/
def Phase.hasRun : Phase → Bool
  | .unlocking none | .executing => true
  | _ => false

/-- The phases that only replays reach. -/
def Phase.isReplay : Phase → Bool
  | .locking | .counting | .inserting | .unlocking _ => true
  | _ => false

/-- What holds of every call. -/
structure Call.Valid (services : ι → Service) (c : Call ι φ) : Prop where
  runTs_eq : c.runTs = microsecondsPerMinute * c.utcMinute services
  hasRun : c.phase ≠ .crashed → c.run.isSome = c.phase.hasRun
  replay : c.phase.isReplay → c.entry.trigger = .replay
  claim : ∀ claim, c.granted = some claim → claim = c.claim services claim.runId

theorem Call.valid_begin (i : ι) (entry : Entry) (now : ℤ) :
    Call.Valid services ({
      service := i
      entry := entry
      calledAt := now
      runTs := ((services i).begin entry now).1
      phase := ((services i).begin entry now).2
      run := none } : Call ι φ) where
  runTs_eq := begin_runTs _ _ _
  hasRun _ := by
    rcases begin_phase (services i) entry now with h | ⟨-, h | ⟨e, h⟩⟩
    · simp [h, Phase.hasRun]
    · simp [h, Phase.hasRun]
    · simp [h, Phase.hasRun]
  replay hphase := by
    rcases begin_phase (services i) entry now with h | ⟨h, -⟩
    · simp [h, Phase.isReplay] at hphase
    · exact h
  claim _ h := by cases h

/-- A valid call stays valid at another phase that its run and its trigger admit. -/
theorem Call.Valid.at (h : Call.Valid services c) {phase : Phase}
    (hrun : phase ≠ .crashed → c.run.isSome = phase.hasRun)
    (hreplay : phase.isReplay → c.entry.trigger = .replay) :
    Call.Valid services { c with phase } :=
  ⟨h.runTs_eq, hrun, hreplay, h.claim⟩

theorem Call.Valid.started (h : Call.Valid services c) (runId : String) {phase : Phase}
    (hrun : phase.hasRun = true) (hreplay : phase.isReplay → c.entry.trigger = .replay) :
    Call.Valid services (c.started services runId phase) where
  runTs_eq := h.runTs_eq
  hasRun _ := hrun.symm
  replay := hreplay
  claim := by
    intro claim h
    cases h
    rfl

def State.Valid (services : ι → Service) (s : State ι κ φ) : Prop :=
  ∀ k c, s.calls k = some c → Call.Valid services c

theorem State.Valid.put {t : State ι κ φ} (h : State.Valid services s)
    (hcalls : t.calls = s.calls) (hc : Call.Valid services c) :
    State.Valid services (t.put k c) := by
  intro j d hj
  rcases State.put_calls_eq_some.mp hj with ⟨-, rfl⟩ | ⟨-, hj⟩
  · exact hc
  · exact h j d (hcalls ▸ hj)

theorem valid_step (h : State.Valid services s) (hs : Fires services hashtext s now a s') :
    State.Valid services s' := by
  cases hs with
  | begins hk => exact h.put rfl (Call.valid_begin _ _ _)
  | starts hk hp => exact h.put rfl ((h _ _ hk).started _ rfl (by simp [Phase.isReplay]))
  | inserts hk hp =>
    have hv := h _ _ hk
    refine h.put rfl (hv.started _ rfl fun _ => hv.replay ?_)
    rw [hp]
    rfl
  | refused hk hp | lockHeld hk hp =>
    have hv := h _ _ hk
    have hrun := hv.hasRun (by simp [hp])
    rw [hp] at hrun
    exact h.put rfl (hv.at (fun _ => hrun) (by simp [Phase.isReplay]))
  | locks hk hp | tooMany hk hp | counts hk hp =>
    have hv := h _ _ hk
    have hrun := hv.hasRun (by simp [hp])
    have hreplay := hv.replay (by rw [hp]; rfl)
    rw [hp] at hrun
    exact h.put rfl (hv.at (fun _ => hrun) fun _ => hreplay)
  | unlocks hk hp | raises hk hp =>
    have hv := h _ _ hk
    have hrun := hv.hasRun (by simp [hp])
    rw [hp] at hrun
    exact h.put rfl (hv.at (fun _ => hrun) (by simp [Phase.isReplay]))
  | runs hk hp hr =>
    have hv := h _ _ hk
    refine h.put rfl ⟨hv.runTs_eq, fun _ => by simp [hp, Phase.hasRun], hv.replay, ?_⟩
    intro claim hclaim
    cases hclaim
    exact hv.claim _ (by simp [Call.granted, hr])
  | crashes hk =>
    have hv := h _ _ hk
    exact h.put rfl (hv.at (fun hne => absurd rfl hne) (by simp [Phase.isReplay]))
  | passes => exact h

end ChainMonitor.PipelineCalls
