import ChainMonitor.ProofKit.Run
import ChainMonitor.Scanner.SnapshotStore

/-! What the scans of a run are compared with. Each scan loads the snapshots that the table has of
its chain before it saves its own, and may break off in between. -/

namespace ChainMonitor.SnapshotStore

open ProofKit

/-- `SnapshotStore.clear`. -/
def clear (chain interval : PyStr) (table : ScannerSnapshots) : ScannerSnapshots :=
  table.delete (chain, interval)

/-- A scan of a chain: what the tool prints, and whether everything between the loads and the save
returns. -/
structure ScanJob where
  chain : PyStr
  interval : PyStr
  output : Output
  takenAt : ℤ
  completes : Bool

/-- The snapshots that a scan compares, and whether it saves the current one. -/
structure Comparison where
  prev : Option Snapshot
  curr : Snapshot
  saved : Bool

/-- The tokens, with `also_in_1h` set for those that the snapshot of the hour has. -/
def flagged (hour : Option Snapshot) (tokens : List TrendingToken) : List TrendingToken :=
  match hour with
  | none => tokens
  | some hour => tokens.map fun t =>
    if t.address ∈ hour.tokens.map TrendingToken.address then { t with alsoIn1h := true } else t

section Scans

variable (T : Text) (lax : Pydantic)

/-- What a scan of these tokens loads: the previous snapshot, and that of the hour for the minute's
scan. -/
def loads (chain interval : PyStr) (table : ScannerSnapshots) :
    Except PyError (Option Snapshot × Option Snapshot) := do
  let prev ← load lax chain interval table
  if interval = ofString "1m" then return (prev, ← load lax chain (ofString "1h") table)
  else return (prev, none)

/-- `_run_chain`, as far as the table is concerned. A scan without tokens ends before the loads. -/
def runChain (job : ScanJob) (table : ScannerSnapshots) :
    Except PyError (Option Comparison) × ScannerSnapshots :=
  match doFetchTrending T lax job.chain job.output with
  | .error e => (.error e, table)
  | .ok [] => (.ok none, table)
  | .ok tokens =>
    match loads lax job.chain job.interval table with
    | .error e => (.error e, table)
    | .ok (prev, hour) =>
      let curr := ⟨job.chain, job.interval, flagged hour tokens, job.takenAt⟩
      if job.completes then
        match save job.chain job.interval curr table with
        | .error _ => (.ok (some ⟨prev, curr, false⟩), table)
        | .ok table' => (.ok (some ⟨prev, curr, true⟩), table')
      else (.ok (some ⟨prev, curr, false⟩), table)

end Scans

inductive Act
  | scan (job : ScanJob)
  | clear (chain interval : PyStr)

/-- The table, and what has been done so far with what came of it. -/
structure System where
  table : ScannerSnapshots
  log : List (Act × Except PyError (Option Comparison))

def perform (T : Text) (lax : Pydantic) (act : Act) (table : ScannerSnapshots) :
    Except PyError (Option Comparison) × ScannerSnapshots :=
  match act with
  | .scan job => runChain T lax job table
  | .clear chain interval => (.ok none, clear chain interval table)

def step (T : Text) (lax : Pydantic) (s : System) (act : Act) : System :=
  ⟨(perform T lax act s.table).2, s.log ++ [(act, (perform T lax act s.table).1)]⟩

def run (T : Text) (lax : Pydantic) (acts : List Act) : System :=
  acts.foldl (step T lax) ⟨.empty, []⟩

/-! ### The last word on a chain and an interval -/

/-- The snapshot with its texts as they come back from UTF-16. -/
def Snapshot.reread (s : Snapshot) : Snapshot := { s with tokens := s.tokens.map (·.reread) }

/-- What is left under a chain and an interval: a snapshot, or none. -/
def effect? : Act × Except PyError (Option Comparison) → Option ((PyStr × PyStr) × Option Snapshot)
  | (.clear chain interval, _) => some ((chain, interval), none)
  | (.scan job, .ok (some c)) =>
    if c.saved then some ((job.chain, job.interval), some c.curr.reread) else none
  | (.scan _, _) => none

/-- The snapshot that was saved last for a chain and an interval and has not been cleared. -/
def lastSaved (log : List (Act × Except PyError (Option Comparison))) (chain interval : PyStr) :
    Option Snapshot :=
  (Table.lastOf Prod.fst (chain, interval) (log.filterMap effect?)).bind Prod.snd

variable {T : Text} {lax : Pydantic} {chain interval : PyStr} {table : ScannerSnapshots}
  {log : List (Act × Except PyError (Option Comparison))} {tokens : List TrendingToken}
  {job : ScanJob}

theorem lastSaved_concat (e : Act × Except PyError (Option Comparison)) :
    lastSaved (log ++ [e]) chain interval =
      match effect? e with
      | some (key, kept) => if key = (chain, interval) then kept else lastSaved log chain interval
      | none => lastSaved log chain interval := by
  unfold lastSaved
  rw [List.filterMap_append, Table.lastOf_append]
  cases h : effect? e with
  | none => simp [h]
  | some effect =>
    obtain ⟨key, kept⟩ := effect
    rw [List.filterMap_cons_some h, List.filterMap_nil, Table.lastOf_singleton]
    dsimp only
    split
    · rfl
    · rfl

/-! ### What the table holds -/

/-- A load depends on nothing but the row of its chain and interval. -/
theorem load_congr {table' : ScannerSnapshots}
    (h : table'.get? (chain, interval) = table.get? (chain, interval)) :
    load lax chain interval table' = load lax chain interval table := by
  unfold Table.get? at h
  unfold load
  rw [h]

theorem load_of_none (h : table.get? (chain, interval) = none) :
    load lax chain interval table = .ok none := by
  unfold Table.get? at h
  unfold load
  rw [h]

theorem chain_flagged {hour : Option Snapshot} (h : ∀ t ∈ tokens, t.chain = chain) :
    ∀ t ∈ flagged hour tokens, t.chain = chain := by
  cases hour with
  | none => exact h
  | some hour =>
    intro t ht
    obtain ⟨t', ht', rfl⟩ := List.mem_map.mp ht
    split
    · exact h t' ht'
    · exact h t' ht'

/-- A snapshot that has been saved loads with its texts as they come back. -/
theorem load_of_save {snapshot : Snapshot} {table' : ScannerSnapshots}
    (hchain : ∀ t ∈ snapshot.tokens, t.chain = chain)
    (hown : snapshot.chain = chain ∧ snapshot.interval = interval)
    (h : save chain interval snapshot table = .ok table') :
    load lax chain interval table' = .ok (some snapshot.reread) := by
  obtain ⟨-, rfl⟩ := save_eq_ok.mp h
  obtain ⟨rfl, rfl⟩ := hown
  rw [load_upsert, Snapshot.reread, List.map_map]
  have htokens : snapshot.tokens.map ((fun t => { t with chain := snapshot.chain }) ∘
      TrendingToken.reread) = snapshot.tokens.map TrendingToken.reread := by
    refine List.map_congr_left fun t ht => ?_
    rw [Function.comp, ← hchain t ht]
    rfl
  rw [htokens]

theorem load_of_save_other {snapshot : Snapshot} {table' : ScannerSnapshots} {c i : PyStr}
    (hne : (chain, interval) ≠ (c, i)) (h : save chain interval snapshot table = .ok table') :
    load lax c i table' = load lax c i table := by
  obtain ⟨-, rfl⟩ := save_eq_ok.mp h
  exact load_congr (Table.get?_upsert.trans (if_neg hne))

/-- The table loads what was saved last. -/
def Remembers (lax : Pydantic) (s : System) : Prop :=
  ∀ chain interval, load lax chain interval s.table = .ok (lastSaved s.log chain interval)

/-- What the hour's snapshot is for a scan after `log`. -/
def lastHour (log : List (Act × Except PyError (Option Comparison))) (job : ScanJob) :
    Option Snapshot :=
  if job.interval = ofString "1m" then lastSaved log job.chain (ofString "1h") else none

/-- The snapshot that a scan of these tokens takes after `log`. -/
def current (log : List (Act × Except PyError (Option Comparison))) (job : ScanJob)
    (tokens : List TrendingToken) : Snapshot :=
  ⟨job.chain, job.interval, flagged (lastHour log job) tokens, job.takenAt⟩

theorem loads_of_remembers {s : System} (h : Remembers lax s) (job : ScanJob) :
    loads lax job.chain job.interval s.table =
      .ok (lastSaved s.log job.chain job.interval, lastHour s.log job) := by
  unfold loads lastHour
  rw [h job.chain job.interval]
  split
  · rw [h job.chain (ofString "1h")]
    rfl
  · rfl

theorem runChain_of_unloaded {e : PyError}
    (hfetch : doFetchTrending T lax job.chain job.output = .ok tokens) (hne : tokens ≠ [])
    (hloads : loads lax job.chain job.interval table = .error e) :
    runChain T lax job table = (.error e, table) := by
  rw [runChain, hfetch]
  cases tokens with
  | nil => exact absurd rfl hne
  | cons token tokens => simp only [hloads]

/-- A scan with tokens that loads its snapshots compares them, and saves the current one if it
completes and the database takes it. -/
theorem runChain_of_loads {prev hour : Option Snapshot}
    (hfetch : doFetchTrending T lax job.chain job.output = .ok tokens) (hne : tokens ≠ [])
    (hloads : loads lax job.chain job.interval table = .ok (prev, hour)) :
    let curr : Snapshot := ⟨job.chain, job.interval, flagged hour tokens, job.takenAt⟩
    (∃ table', (job.completes ∧ save job.chain job.interval curr table = .ok table') ∧
        runChain T lax job table = (.ok (some ⟨prev, curr, true⟩), table')) ∨
      (¬∃ table', job.completes ∧ save job.chain job.interval curr table = .ok table') ∧
        runChain T lax job table = (.ok (some ⟨prev, curr, false⟩), table) := by
  intro curr
  have hrun : runChain T lax job table =
      if job.completes then
        match save job.chain job.interval curr table with
        | .error _ => (.ok (some ⟨prev, curr, false⟩), table)
        | .ok table' => (.ok (some ⟨prev, curr, true⟩), table')
      else (.ok (some ⟨prev, curr, false⟩), table) := by
    rw [runChain, hfetch]
    cases tokens with
    | nil => exact absurd rfl hne
    | cons token tokens =>
      simp only [hloads]
      rfl
  rw [hrun]
  by_cases hcompletes : job.completes
  · simp only [hcompletes, if_true, true_and]
    cases save job.chain job.interval curr table with
    | error e => exact .inr ⟨by simp, rfl⟩
    | ok table' => exact .inl ⟨table', rfl, rfl⟩
  · exact .inr ⟨by simp [hcompletes], by simp [hcompletes]⟩

/-- What a scan does: without tokens nothing; with tokens it compares what was saved last, and saves
if it completes and the database takes the snapshot. -/
theorem runChain_cases {s : System} (h : Remembers lax s) (job : ScanJob) :
    ((∀ tokens, doFetchTrending T lax job.chain job.output = .ok tokens → tokens = []) ∧
      ∃ r, runChain T lax job s.table = (r, s.table) ∧ effect? (.scan job, r) = none) ∨
    ∃ tokens, (doFetchTrending T lax job.chain job.output = .ok tokens ∧ tokens ≠ []) ∧
      ((∃ table', (job.completes ∧
          save job.chain job.interval (current s.log job tokens) s.table = .ok table') ∧
          runChain T lax job s.table = (.ok (some ⟨lastSaved s.log job.chain job.interval,
            current s.log job tokens, true⟩), table')) ∨
        (¬∃ table', job.completes ∧
          save job.chain job.interval (current s.log job tokens) s.table = .ok table') ∧
          runChain T lax job s.table = (.ok (some ⟨lastSaved s.log job.chain job.interval,
            current s.log job tokens, false⟩), s.table)) := by
  cases hfetch : doFetchTrending T lax job.chain job.output with
  | error e => exact .inl ⟨by simp, .error e, by rw [runChain, hfetch], rfl⟩
  | ok tokens =>
    cases tokens with
    | nil => exact .inl ⟨by simp, .ok none, by rw [runChain, hfetch], rfl⟩
    | cons token tokens =>
      have hne : token :: tokens ≠ [] := List.cons_ne_nil _ _
      exact .inr ⟨_, ⟨rfl, hne⟩, runChain_of_loads hfetch hne (loads_of_remembers h job)⟩

theorem remembers_of_kept {s : System} (h : Remembers lax s)
    {e : Act × Except PyError (Option Comparison)} (he : effect? e = none) :
    Remembers lax ⟨s.table, s.log ++ [e]⟩ := by
  intro chain interval
  rw [lastSaved_concat, he]
  exact h chain interval

theorem Remembers.step {s : System} (h : Remembers lax s) (act : Act) :
    Remembers lax (step T lax s act) := by
  cases act with
  | clear c i =>
    intro chain interval
    show load lax chain interval (s.table.delete (c, i)) = .ok (lastSaved (s.log ++ [_]) _ _)
    rw [lastSaved_concat]
    simp only [effect?]
    have hget : (s.table.delete (c, i)).get? (chain, interval) =
        if (chain, interval) = (c, i) then none else s.table.get? (chain, interval) :=
      Table.get?_delete
    split
    · rename_i heq
      rw [if_pos heq.symm] at hget
      exact load_of_none hget
    · rename_i hne
      rw [if_neg (Ne.symm hne)] at hget
      rw [load_congr hget]
      exact h chain interval
  | scan job =>
    rcases runChain_cases (T := T) h job with ⟨-, r, hrun, hr⟩ | ⟨tokens, ⟨hfetch, -⟩, hrun⟩
    · have hstep : SnapshotStore.step T lax s (.scan job) =
          ⟨s.table, s.log ++ [(.scan job, r)]⟩ := by simp [SnapshotStore.step, perform, hrun]
      rw [hstep]
      exact remembers_of_kept h hr
    rcases hrun with ⟨table', ⟨-, hsave⟩, hrun⟩ | ⟨-, hrun⟩
    · have hstep : SnapshotStore.step T lax s (.scan job) = ⟨table', s.log ++ [(.scan job,
          .ok (some ⟨lastSaved s.log job.chain job.interval, current s.log job tokens,
            true⟩))]⟩ := by simp [SnapshotStore.step, perform, hrun]
      rw [hstep]
      intro chain interval
      rw [lastSaved_concat]
      simp only [effect?, if_true]
      split
      · rename_i heq
        obtain ⟨rfl, rfl⟩ := Prod.mk.inj heq
        exact load_of_save (chain_flagged (chain_of_fetch hfetch)) ⟨rfl, rfl⟩ hsave
      · rename_i hne
        rw [load_of_save_other hne hsave]
        exact h chain interval
    · have hstep : SnapshotStore.step T lax s (.scan job) = ⟨s.table, s.log ++ [(.scan job,
          .ok (some ⟨lastSaved s.log job.chain job.interval, current s.log job tokens,
            false⟩))]⟩ := by simp [SnapshotStore.step, perform, hrun]
      rw [hstep]
      exact remembers_of_kept h rfl

theorem run_concat (acts : List Act) (act : Act) :
    run T lax (acts ++ [act]) = step T lax (run T lax acts) act :=
  List.foldl_append

theorem remembers_run (acts : List Act) : Remembers lax (run T lax acts) := by
  induction acts using List.reverseRecOn with
  | nil => exact fun _ _ => rfl
  | append_singleton acts act ih =>
    rw [run_concat]
    exact ih.step act

/-- A scan with tokens is compared with what was saved last before it, and is saved exactly if it
completes and the database takes it. -/
def Faithful (T : Text) (lax : Pydantic) (before : List (Act × Except PyError (Option Comparison)))
    (e : Act × Except PyError (Option Comparison)) : Prop :=
  ∀ job tokens, e.1 = .scan job → doFetchTrending T lax job.chain job.output = .ok tokens →
    tokens ≠ [] → ∃ saved, e.2 = .ok (some ⟨lastSaved before job.chain job.interval,
      current before job tokens, saved⟩) ∧
    (saved = true ↔ job.completes ∧ Fits job.chain job.interval ∧
      ∀ t ∈ (current before job tokens).tokens, t.Writable)

theorem faithful_of_remembers {s : System} (h : Remembers lax s) (act : Act) :
    Faithful T lax s.log (act, (perform T lax act s.table).1) := by
  rintro job tokens rfl hfetch hne
  rcases runChain_cases (T := T) h job with ⟨hnone, -⟩ | ⟨tokens', ⟨hfetch', -⟩, hrun⟩
  · exact absurd (hnone tokens hfetch) hne
  obtain rfl : tokens = tokens' := Except.ok.inj (hfetch.symm.trans hfetch')
  have hsaves : (∃ table', job.completes ∧
      save job.chain job.interval (current s.log job tokens) s.table = .ok table') ↔
      job.completes ∧ Fits job.chain job.interval ∧
        ∀ t ∈ (current s.log job tokens).tokens, t.Writable := by
    simp only [save_eq_ok, exists_and_left, exists_eq, and_true]
  rw [← hsaves]
  rcases hrun with ⟨table', hsaved, hrun⟩ | ⟨hnot, hrun⟩
  · exact ⟨true, congrArg Prod.fst hrun, iff_of_true rfl ⟨table', hsaved⟩⟩
  · exact ⟨false, congrArg Prod.fst hrun, iff_of_false Bool.false_ne_true hnot⟩

/-- In any run of scans and clears, the table loads for each chain and interval the snapshot that
was saved last and not cleared since, with its texts as they come back from UTF-16; and each scan is
compared with just that. -/
theorem scans_compare (T : Text) (lax : Pydantic) (acts : List Act) :
    (∀ chain interval, load lax chain interval (run T lax acts).table =
      .ok (lastSaved (run T lax acts).log chain interval)) ∧
    Throughout (Faithful T lax) (run T lax acts).log := by
  refine ⟨remembers_run acts, ?_⟩
  induction acts using List.reverseRecOn with
  | nil => exact throughout_nil
  | append_singleton acts act ih =>
    rw [run_concat]
    exact throughout_concat.mpr ⟨ih, faithful_of_remembers (remembers_run acts) act⟩

end ChainMonitor.SnapshotStore
