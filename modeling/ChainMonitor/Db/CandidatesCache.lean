import ChainMonitor.Db.Snapshots
import ChainMonitor.ProofKit.Clock
import Mathlib.Tactic.Linarith

/-! The latest-candidates cache of `PipelineRepository`, with any number of `list_latest_candidates`
readers and of `_persist_success` transactions. Readers see committed rows only. A step is what a
call does under one lock or in one statement of the database.

Beside the state of the code, each commit of a chain has a number, each set of rows knows how many
commits came before it was read, and each reader knows the last commit whose `_persist_success` had
returned when it was called. -/

namespace ChainMonitor.CandidatesCache

open ProofKit Snapshots

/-- A row that `list_latest_candidates` returns. -/
structure LatestCandidate where
  tsMinute : ℤ
  strategyVersion : String
  chainId : String
  tokenId : String
  tier : String
  rank : ℕ
  reasonCodes : List String
  conviction : ℚ
  finalScore : ℚ
  confidence : ℚ
  deriving DecidableEq

/-- The arguments of a call, which are the key of its cache entry. -/
structure CacheKey where
  chainId : String
  tier : Option String
  limit : ℕ
  deriving DecidableEq

/-- A tier filters the rows when it is given and not empty. -/
def tierMatches (tier : Option String) (r : CandidateSnapshot) : Bool :=
  match tier with
  | none | some "" => true
  | some t => r.tier = t

/-- A candidate joined with a score of its key. -/
def latestCandidate (c : CandidateSnapshot) (s : TokenScore) : LatestCandidate where
  tsMinute := c.tsMinute
  strategyVersion := c.strategyVersion
  chainId := c.chainId
  tokenId := c.tokenId
  tier := c.tier
  rank := c.rank
  reasonCodes := c.reasonCodes
  conviction := s.conviction
  finalScore := s.finalScore
  confidence := s.confidence

/-- The query of `list_latest_candidates`. -/
def selectLatest (key : CacheKey) (db : Database) : List LatestCandidate :=
  let ofChain := db.candidatePoolSnapshots.rows.filter fun c => c.chainId = key.chainId
  match (ofChain.map (·.tsMinute)).max? with
  | none => []
  | some latest =>
    let selected := ofChain.filter fun c => c.tsMinute = latest ∧ tierMatches key.tier c
    let joined := selected.flatMap fun c =>
      (db.tokenScores.rows.filter fun s => s.key = c.key).map (latestCandidate c)
    (joined.insertionSort fun a b => a.rank ≤ b.rank).take key.limit

/-- The settings of a repository, with the bounds that `__init__` puts on them. -/
structure Config where
  batchSize : ℕ
  candidateCacheTtlSeconds : ℚ
  one_le_batchSize : 1 ≤ batchSize
  ttl_nonneg : 0 ≤ candidateCacheTtlSeconds

def Config.init (writeBatchSize : ℤ) (cacheTtlSeconds : ℚ) : Config where
  batchSize := (max 1 writeBatchSize).toNat
  candidateCacheTtlSeconds := max 0 cacheTtlSeconds
  one_le_batchSize := one_le_toNat_max writeBatchSize
  ttl_nonneg := le_max_left _ _

/-- Rows, and how many commits of their chain came before they were read. -/
structure Rows where
  rows : List LatestCandidate
  version : ℕ
  deriving DecidableEq

structure Entry where
  expiresAt : ℚ
  result : Rows
  deriving DecidableEq

/-- A `_persist_success` call: its statements run and the cache is invalidated inside the
transaction, which then commits, and the call returns. -/
inductive WriterPhase
  | writing
  | invalidated
  | committed (version : ℕ)
  | returned
  | rolledBack
  deriving DecidableEq

structure Writer where
  chainId : String
  scores : List ScoreRowInput
  phase : WriterPhase
  deriving DecidableEq

/-- A `list_latest_candidates` call: it misses the cache, reads, and stores what it has read. -/
inductive ReaderPhase
  | missed
  | selected (result : Rows)
  | returned (result : Rows)
  deriving DecidableEq

/-- A reader, and the last commit of its chain that had returned when it was called. -/
structure Reader where
  key : CacheKey
  since : ℕ
  phase : ReaderPhase
  deriving DecidableEq

structure Repository where
  db : Database
  latestCandidatesCache : CacheKey → Option Entry
  commits : String → ℕ
  returned : String → ℕ
  writers : List Writer
  readers : List Reader

inductive WriterStep
  | save
  | rollback
  | commit
  | finish
  deriving DecidableEq

inductive ReaderStep
  | select
  | store
  deriving DecidableEq

inductive Act
  | persist (chainId : String) (scores : List ScoreRowInput)
  | write (i : ℕ) (step : WriterStep)
  | call (key : CacheKey)
  | read (j : ℕ) (step : ReaderStep)
  deriving DecidableEq

def created (db : Database) (t : ℚ) : Clocked ℚ Repository :=
  ⟨t, ⟨db, fun _ => none, fun _ => 0, fun _ => 0, [], []⟩⟩

namespace Repository

/-- `_invalidate_latest_candidates_cache`, which a save without rows does not reach. -/
def invalidate (cfg : Config) (scores : List ScoreRowInput) (s : Repository) : Repository :=
  match scores with
  | [] => s
  | row :: _ =>
    if cfg.candidateCacheTtlSeconds ≤ 0 then s
    else { s with latestCandidatesCache := fun key =>
      if key.chainId = row.chainId then none else s.latestCandidatesCache key }

/-- What a new call finds in the cache. -/
def lookup (cfg : Config) (now : ℚ) (key : CacheKey) (s : Repository) : ReaderPhase :=
  if 0 < cfg.candidateCacheTtlSeconds then
    match s.latestCandidatesCache key with
    | some e => if now < e.expiresAt then .returned e.result else .missed
    | none => .missed
  else .missed

/-- A reader's rows go into the cache. -/
def remember (cfg : Config) (now : ℚ) (key : CacheKey) (result : Rows) (s : Repository) :
    Repository :=
  if 0 < cfg.candidateCacheTtlSeconds then
    let entry := ⟨now + cfg.candidateCacheTtlSeconds, result⟩
    { s with latestCandidatesCache := Function.update s.latestCandidatesCache key (some entry) }
  else s

def moveWriter (i : ℕ) (w : Writer) (p : WriterPhase) (s : Repository) : Repository :=
  { s with writers := s.writers.set i { w with phase := p } }

def moveReader (j : ℕ) (r : Reader) (p : ReaderPhase) (s : Repository) : Repository :=
  { s with readers := s.readers.set j { r with phase := p } }

end Repository

/-- What writer `i`, which is `w`, does next. -/
def write (cfg : Config) (s : Repository) (i : ℕ) (w : Writer) :
    WriterPhase → WriterStep → Option Repository
  | .writing, .save => some ((s.invalidate cfg w.scores).moveWriter i w .invalidated)
  | .writing, .rollback => some (s.moveWriter i w .rolledBack)
  | .invalidated, .rollback => some (s.moveWriter i w .rolledBack)
  | .invalidated, .commit =>
    let version := s.commits w.chainId + 1
    let db := saveScoresAndCandidates cfg.batchSize w.scores s.db
    let commits := Function.update s.commits w.chainId version
    some ({ s with db, commits }.moveWriter i w (.committed version))
  | .committed version, .finish =>
    let returned := Function.update s.returned w.chainId (max (s.returned w.chainId) version)
    some ({ s with returned }.moveWriter i w .returned)
  | _, _ => none

/-- What reader `j`, which is `r`, does next. -/
def read (cfg : Config) (s : Repository) (now : ℚ) (j : ℕ) (r : Reader) :
    ReaderPhase → ReaderStep → Option Repository
  | .missed, .select =>
    some (s.moveReader j r (.selected ⟨selectLatest r.key s.db, s.commits r.key.chainId⟩))
  | .selected result, .store =>
    some ((s.remember cfg now r.key result).moveReader j r (.returned result))
  | _, _ => none

def step (cfg : Config) (s : Repository) (now : ℚ) : Act → Option Repository
  | .persist chainId scores => some { s with writers := s.writers ++ [⟨chainId, scores, .writing⟩] }
  | .write i a =>
    match s.writers[i]? with
    | some w => write cfg s i w w.phase a
    | none => none
  | .call key => some { s with
      readers := s.readers ++ [⟨key, s.returned key.chainId, s.lookup cfg now key⟩] }
  | .read j a =>
    match s.readers[j]? with
    | some r => read cfg s now j r r.phase a
    | none => none

/-! ### Rows that are as new as the commits before the call -/

/-- No reader has rows from before a commit that had returned when the reader was called. -/
def Fresh (s : Repository) : Prop :=
  ∀ r ∈ s.readers, ∀ result, r.phase = .returned result → r.since ≤ result.version

/-- A step that hides no commit: when a chain commits, no entry of the chain is left unexpired, and
when a reader fills the cache, its chain has had no commit since its rows were read. -/
def Orderly (cfg : Config) (s : Clocked ℚ Repository) (a : Stamped ℚ Act) : Prop :=
  match a.act with
  | .write i .commit => ∀ w, s.inner.writers[i]? = some w → w.phase = .invalidated → ∀ key e,
      key.chainId = w.chainId → s.inner.latestCandidatesCache key = some e → e.expiresAt ≤ a.now
  | .read j .store => ∀ r result, s.inner.readers[j]? = some r → r.phase = .selected result →
      0 < cfg.candidateCacheTtlSeconds → s.inner.commits r.key.chainId = result.version
  | _ => True

/-- Where a reader is, its rows are as new as the commits that had returned when it was called. -/
inductive ReaderPhase.AtLeast (since : ℕ) : ReaderPhase → Prop
  | missed : AtLeast since .missed
  | selected {result : Rows} (h : since ≤ result.version) : AtLeast since (.selected result)
  | returned {result : Rows} (h : since ≤ result.version) : AtLeast since (.returned result)

structure Valid (clock : ℚ) (s : Repository) : Prop where
  returned_le : ∀ chain, s.returned chain ≤ s.commits chain
  committed_le : ∀ w ∈ s.writers, ∀ v, w.phase = .committed v → v ≤ s.commits w.chainId
  cached : ∀ key e, s.latestCandidatesCache key = some e →
    e.expiresAt ≤ clock ∨ s.commits key.chainId ≤ e.result.version
  since_le : ∀ r ∈ s.readers, r.since ≤ s.commits r.key.chainId
  readers : ∀ r ∈ s.readers, r.phase.AtLeast r.since

theorem valid_created (db : Database) (t : ℚ) : Valid t (created db t).inner where
  returned_le _ := le_rfl
  committed_le _ hw := nomatch hw
  cached _ _ h := nomatch h
  since_le _ hr := nomatch hr
  readers _ hr := nomatch hr

section Steps

variable {cfg : Config} {now : ℚ} {s s' : Repository} {i j : ℕ} {w : Writer} {r : Reader}
  {a : Act}

/-- What a step does, by the phase of the call that it concerns. -/
inductive Fires (cfg : Config) (s : Repository) (now : ℚ) : Act → Repository → Prop
  | persist (chainId : String) (scores : List ScoreRowInput) :
      Fires cfg s now (.persist chainId scores)
        { s with writers := s.writers ++ [⟨chainId, scores, .writing⟩] }
  | save {i : ℕ} {w : Writer} (hi : s.writers[i]? = some w) (hp : w.phase = .writing) :
      Fires cfg s now (.write i .save) ((s.invalidate cfg w.scores).moveWriter i w .invalidated)
  | rollback {i : ℕ} {w : Writer} (hi : s.writers[i]? = some w)
      (hp : w.phase = .writing ∨ w.phase = .invalidated) :
      Fires cfg s now (.write i .rollback) (s.moveWriter i w .rolledBack)
  | commit {i : ℕ} {w : Writer} (hi : s.writers[i]? = some w) (hp : w.phase = .invalidated) :
      Fires cfg s now (.write i .commit) ({ s with
        db := saveScoresAndCandidates cfg.batchSize w.scores s.db
        commits := Function.update s.commits w.chainId (s.commits w.chainId + 1)
        }.moveWriter i w (.committed (s.commits w.chainId + 1)))
  | finish {i version : ℕ} {w : Writer} (hi : s.writers[i]? = some w)
      (hp : w.phase = .committed version) :
      Fires cfg s now (.write i .finish) ({ s with
        returned := Function.update s.returned w.chainId (max (s.returned w.chainId) version)
        }.moveWriter i w .returned)
  | call (key : CacheKey) :
      Fires cfg s now (.call key) { s with
        readers := s.readers ++ [⟨key, s.returned key.chainId, s.lookup cfg now key⟩] }
  | select {j : ℕ} {r : Reader} (hj : s.readers[j]? = some r) :
      Fires cfg s now (.read j .select)
        (s.moveReader j r (.selected ⟨selectLatest r.key s.db, s.commits r.key.chainId⟩))
  | store {j : ℕ} {r : Reader} {result : Rows} (hj : s.readers[j]? = some r)
      (hp : r.phase = .selected result) :
      Fires cfg s now (.read j .store)
        ((s.remember cfg now r.key result).moveReader j r (.returned result))

theorem fires_of_write {a : WriterStep} (hi : s.writers[i]? = some w)
    (h : write cfg s i w w.phase a = some s') : Fires cfg s now (.write i a) s' := by
  unfold write at h
  split at h
  · rename_i hp
    cases h
    exact .save hi hp
  · rename_i hp
    cases h
    exact .rollback hi (.inl hp)
  · rename_i hp
    cases h
    exact .rollback hi (.inr hp)
  · rename_i hp
    cases h
    exact .commit hi hp
  · rename_i version hp
    cases h
    exact .finish hi hp
  · cases h

theorem fires_of_read {a : ReaderStep} (hj : s.readers[j]? = some r)
    (h : read cfg s now j r r.phase a = some s') : Fires cfg s now (.read j a) s' := by
  unfold read at h
  split at h
  · cases h
    exact .select hj
  · rename_i result hp
    cases h
    exact .store hj hp
  · cases h

theorem fires_of_step {a : Act} (h : step cfg s now a = some s') : Fires cfg s now a s' := by
  cases a with
  | persist chainId scores =>
    cases h
    exact .persist chainId scores
  | write i a =>
    simp only [step] at h
    split at h
    · rename_i w hi
      exact fires_of_write hi h
    · cases h
  | call key =>
    cases h
    exact .call key
  | read j a =>
    simp only [step] at h
    split at h
    · rename_i r hj
      exact fires_of_read hj h
    · cases h

/-! ### What each step keeps -/

/-- An invalidation only takes entries out of the cache. -/
theorem invalidate_eq (cfg : Config) (scores : List ScoreRowInput) (s : Repository) :
    ∃ cache, s.invalidate cfg scores = { s with latestCandidatesCache := cache } ∧
      ∀ key e, cache key = some e → s.latestCandidatesCache key = some e := by
  unfold Repository.invalidate
  split
  · exact ⟨_, rfl, fun _ _ h => h⟩
  · split
    · exact ⟨_, rfl, fun _ _ h => h⟩
    · exact ⟨_, rfl, fun _ _ h => (Option.ite_none_left_eq_some.mp h).2⟩

/-- A reader only puts its own rows into the cache, if the cache is on. -/
theorem remember_eq (cfg : Config) (now : ℚ) (key : CacheKey) (result : Rows) (s : Repository) :
    ∃ cache, s.remember cfg now key result = { s with latestCandidatesCache := cache } ∧
      ∀ k e, cache k = some e → s.latestCandidatesCache k = some e ∨
        0 < cfg.candidateCacheTtlSeconds ∧ k = key ∧ e.result = result := by
  unfold Repository.remember
  split
  · rename_i httl
    refine ⟨_, rfl, fun k e he => ?_⟩
    rcases update_eq_some.mp he with ⟨hk, rfl⟩ | ⟨-, he⟩
    · exact .inr ⟨httl, hk, rfl⟩
    · exact .inl he
  · exact ⟨_, rfl, fun _ _ h => .inl h⟩

theorem Valid.advance {clock : ℚ} (hv : Valid clock s) (hle : clock ≤ now) : Valid now s :=
  { hv with cached := fun key e he => (hv.cached key e he).imp_left fun h => h.trans hle }

theorem Valid.invalidate (hv : Valid now s) (scores : List ScoreRowInput) :
    Valid now (s.invalidate cfg scores) := by
  obtain ⟨cache, heq, hsub⟩ := invalidate_eq cfg scores s
  rw [heq]
  exact { hv with cached := fun key e he => hv.cached key e (hsub key e he) }

theorem Valid.moveWriter (hv : Valid now s) {p : WriterPhase}
    (hp : ∀ v, p = .committed v → v ≤ s.commits w.chainId) : Valid now (s.moveWriter i w p) := by
  refine { hv with committed_le := fun u hu v hv' => ?_ }
  rcases List.mem_or_eq_of_mem_set hu with hu | rfl
  · exact hv.committed_le u hu v hv'
  · exact hp v hv'

theorem Valid.moveReader (hv : Valid now s) (hr : r ∈ s.readers) {p : ReaderPhase}
    (hp : p.AtLeast r.since) : Valid now (s.moveReader j r p) := by
  refine { hv with since_le := fun u hu => ?_, readers := fun u hu => ?_ }
  · rcases List.mem_or_eq_of_mem_set hu with hu | rfl
    · exact hv.since_le u hu
    · exact hv.since_le r hr
  · rcases List.mem_or_eq_of_mem_set hu with hu | rfl
    · exact hv.readers u hu
    · exact hp

/-- A commit of a chain that has no unexpired entry. -/
theorem Valid.commit (hv : Valid now s) (chain : String) (db : Database)
    (hexpired : ∀ key e, key.chainId = chain → s.latestCandidatesCache key = some e →
      e.expiresAt ≤ now) :
    Valid now { s with db, commits := Function.update s.commits chain (s.commits chain + 1) } := by
  have hle : s.commits ≤ Function.update s.commits chain (s.commits chain + 1) :=
    le_update_self_iff.mpr (Nat.le_succ _)
  refine ⟨fun c => (hv.returned_le c).trans (hle c),
    fun w hw v hp => (hv.committed_le w hw v hp).trans (hle _), fun key e he => ?_,
    fun r hr => (hv.since_le r hr).trans (hle _), hv.readers⟩
  by_cases hc : key.chainId = chain
  · exact .inl (hexpired key e hc he)
  · simp only [Function.update_of_ne hc]
    exact hv.cached key e he

theorem Valid.remember (hv : Valid now s) {key : CacheKey} {result : Rows}
    (hr : 0 < cfg.candidateCacheTtlSeconds → s.commits key.chainId = result.version) :
    Valid now (s.remember cfg now key result) := by
  obtain ⟨cache, heq, hsub⟩ := remember_eq cfg now key result s
  rw [heq]
  refine { hv with cached := fun k e he => ?_ }
  rcases hsub k e he with he | ⟨httl, rfl, rfl⟩
  · exact hv.cached k e he
  · exact .inr (hr httl).le

/-- A new reader that hits the cache gets rows as new as the last commit of the chain. -/
theorem Valid.lookup (hv : Valid now s) (key : CacheKey) :
    (s.lookup cfg now key).AtLeast (s.returned key.chainId) := by
  unfold Repository.lookup
  split
  · split
    · rename_i e he
      split
      · rename_i hlt
        rcases hv.cached key e he with h | h
        · exact absurd h (not_le.mpr hlt)
        · exact .returned ((hv.returned_le _).trans h)
      · exact .missed
    · exact .missed
  · exact .missed

theorem Valid.finish (hv : Valid now s) (chain : String) {version : ℕ}
    (hle : version ≤ s.commits chain) :
    Valid now { s with
      returned := Function.update s.returned chain (max (s.returned chain) version) } := by
  refine { hv with returned_le := fun c => ?_ }
  by_cases hc : c = chain
  · subst hc
    simp only [Function.update_self]
    exact max_le (hv.returned_le c) hle
  · simp only [Function.update_of_ne hc]
    exact hv.returned_le c

theorem Valid.step {clock : ℚ} (hv : Valid clock s) (hle : clock ≤ now)
    (hok : Orderly cfg ⟨clock, s⟩ ⟨now, a⟩) (h : CandidatesCache.step cfg s now a = some s') :
    Valid now s' := by
  have hnow := hv.advance hle
  have hwriter : ∀ {i w}, s.writers[i]? = some w → w ∈ s.writers := List.mem_of_getElem?
  have hreader : ∀ {j r}, s.readers[j]? = some r → r ∈ s.readers := List.mem_of_getElem?
  cases fires_of_step h with
  | persist chainId scores =>
    refine { hnow with committed_le := fun w hw v hp => ?_ }
    rcases List.mem_append.mp hw with hw | hw
    · exact hnow.committed_le w hw v hp
    · rw [List.mem_singleton.mp hw] at hp
      cases hp
  | save _ _ => exact (hnow.invalidate _).moveWriter nofun
  | rollback _ _ => exact hnow.moveWriter nofun
  | @commit i w hi hp =>
    refine (hnow.commit w.chainId _ (hok w hi hp)).moveWriter fun v hv' => ?_
    cases hv'
    simp
  | @finish i version w hi hp =>
    exact (hnow.finish w.chainId (hnow.committed_le w (hwriter hi) version hp)).moveWriter nofun
  | call key =>
    have hnew : (s.lookup cfg now key).AtLeast (s.returned key.chainId) := hnow.lookup key
    refine { hnow with since_le := fun r hr => ?_, readers := fun r hr => ?_ }
    · rcases List.mem_append.mp hr with hr | hr
      · exact hnow.since_le r hr
      · rw [List.mem_singleton.mp hr]
        exact hnow.returned_le key.chainId
    · rcases List.mem_append.mp hr with hr | hr
      · exact hnow.readers r hr
      · rw [List.mem_singleton.mp hr]
        exact hnew
  | @select j r hj => exact hnow.moveReader (hreader hj) (.selected (hnow.since_le r (hreader hj)))
  | @store j r result hj hp =>
    have hsince : r.phase.AtLeast r.since := hnow.readers r (hreader hj)
    rw [hp] at hsince
    have hmem : r ∈ (s.remember cfg now r.key result).readers := by
      obtain ⟨cache, heq, -⟩ := remember_eq cfg now r.key result s
      rw [heq]
      exact hreader hj
    cases hsince with
    | selected hle' => exact (hnow.remember (hok r result hj hp)).moveReader hmem (.returned hle')

/-- In a run whose steps are all orderly, a call of `list_latest_candidates` never returns rows that
were read before a commit of its chain whose `_persist_success` had returned before the call. -/
theorem commits_visible {db : Database} {t₀ : ℚ} {acts : List (Stamped ℚ Act)}
    {s : Clocked ℚ Repository}
    (h : exec (clocked (CandidatesCache.step cfg)) (created db t₀) acts = some s)
    (hmeets : Meets (clocked (CandidatesCache.step cfg)) (Orderly cfg) (created db t₀) acts) :
    Fresh s.inner := by
  have hv : Valid s.clock s.inner := by
    refine exec_induction (fun _ s => Valid s.clock s.inner) (valid_created db t₀) ?_ hmeets h
    intro _ s e s' _ hv hok hstep
    obtain ⟨hle, hclock, hs⟩ := clocked_eq_some.mp hstep
    rw [hclock]
    exact hv.step hle hok hs
  intro r hr result hp
  have hphase := hv.readers r hr
  rw [hp] at hphase
  cases hphase with
  | returned hle => exact hle

/-! ### What hides a commit -/

/-- Cached rows and rows in the hands of a reader are no newer than the commits, and the last commit
of a chain has returned, or its writer can return. -/
structure Tracked (cfg : Config) (s : Repository) : Prop where
  cached : ∀ key e, s.latestCandidatesCache key = some e →
    0 < cfg.candidateCacheTtlSeconds ∧ e.result.version ≤ s.commits key.chainId
  selected_le : ∀ r ∈ s.readers, ∀ result, r.phase = .selected result →
    result.version ≤ s.commits r.key.chainId
  last : ∀ chain, s.commits chain ≤ s.returned chain ∨ ∃ (i : ℕ) (w : Writer),
    s.writers[i]? = some w ∧ w.chainId = chain ∧ w.phase = .committed (s.commits chain)

theorem tracked_created (cfg : Config) (db : Database) (t : ℚ) :
    Tracked cfg (created db t).inner where
  cached _ _ h := nomatch h
  selected_le _ hr := nomatch hr
  last _ := .inl le_rfl

theorem Tracked.invalidate (ht : Tracked cfg s) (scores : List ScoreRowInput) :
    Tracked cfg (s.invalidate cfg scores) := by
  obtain ⟨cache, heq, hsub⟩ := invalidate_eq cfg scores s
  rw [heq]
  exact { ht with cached := fun key e he => ht.cached key e (hsub key e he) }

theorem ne_of_phase {u : Writer} (hi : s.writers[i]? = some w) (hj : s.writers[j]? = some u)
    (hp : w.phase ≠ u.phase) : i ≠ j := by
  rintro rfl
  obtain rfl : w = u := Option.some.inj (hi.symm.trans hj)
  exact hp rfl

/-- A writer that has not committed goes to another phase. -/
theorem Tracked.moveWriter (ht : Tracked cfg s) (hi : s.writers[i]? = some w)
    (hw : ∀ v, w.phase ≠ .committed v) (p : WriterPhase) : Tracked cfg (s.moveWriter i w p) := by
  refine { ht with last := fun chain => (ht.last chain).imp_right ?_ }
  rintro ⟨j, u, hj, hu, hp⟩
  have hne : i ≠ j := ne_of_phase hi hj (by simpa [hp] using hw _)
  exact ⟨j, u, (List.getElem?_set_ne hne).trans hj, hu, hp⟩

theorem Tracked.moveReader (ht : Tracked cfg s) {p : ReaderPhase}
    (hp : ∀ result, p = .selected result → result.version ≤ s.commits r.key.chainId) :
    Tracked cfg (s.moveReader j r p) := by
  refine { ht with selected_le := fun u hu result hsel => ?_ }
  rcases List.mem_or_eq_of_mem_set hu with hu | rfl
  · exact ht.selected_le u hu result hsel
  · exact hp result hsel

theorem Tracked.commit (ht : Tracked cfg s) (hi : s.writers[i]? = some w)
    (hp : w.phase = .invalidated) (db : Database) :
    Tracked cfg ({ s with
      db, commits := Function.update s.commits w.chainId (s.commits w.chainId + 1)
      }.moveWriter i w (.committed (s.commits w.chainId + 1))) := by
  have hle : s.commits ≤ Function.update s.commits w.chainId (s.commits w.chainId + 1) :=
    le_update_self_iff.mpr (Nat.le_succ _)
  obtain ⟨hlt, -⟩ := List.getElem?_eq_some_iff.mp hi
  refine ⟨fun key e he => ⟨(ht.cached key e he).1, (ht.cached key e he).2.trans (hle _)⟩,
    fun r hr result hsel => (ht.selected_le r hr result hsel).trans (hle _), fun chain => ?_⟩
  simp only [Repository.moveWriter]
  by_cases hc : chain = w.chainId
  · subst hc
    exact .inr ⟨i, _, List.getElem?_set_self hlt, rfl, by simp⟩
  · rw [Function.update_of_ne hc]
    refine (ht.last chain).imp_right ?_
    rintro ⟨j, u, hj, hu, hcommitted⟩
    have hne : i ≠ j := ne_of_phase hi hj (by simp [hp, hcommitted])
    exact ⟨j, u, (List.getElem?_set_ne hne).trans hj, hu, hcommitted⟩

theorem Tracked.finish (ht : Tracked cfg s) (hi : s.writers[i]? = some w) {version : ℕ}
    (hp : w.phase = .committed version) :
    Tracked cfg ({ s with
      returned := Function.update s.returned w.chainId (max (s.returned w.chainId) version)
      }.moveWriter i w .returned) := by
  have hle : s.returned ≤
      Function.update s.returned w.chainId (max (s.returned w.chainId) version) :=
    le_update_self_iff.mpr (le_max_left _ _)
  refine { ht with last := fun chain => ?_ }
  rcases ht.last chain with h | ⟨j, u, hj, rfl, hcommitted⟩
  · exact .inl (h.trans (hle chain))
  · by_cases hne : i = j
    · -- the writer of the last commit returns
      subst hne
      rw [hi] at hj
      cases hj
      rw [hp] at hcommitted
      cases hcommitted
      exact .inl (by simp [Repository.moveWriter])
    · exact .inr ⟨j, u, (List.getElem?_set_ne hne).trans hj, rfl, hcommitted⟩

theorem Tracked.remember (ht : Tracked cfg s) {key : CacheKey} {result : Rows}
    (hr : result.version ≤ s.commits key.chainId) :
    Tracked cfg (s.remember cfg now key result) := by
  obtain ⟨cache, heq, hsub⟩ := remember_eq cfg now key result s
  rw [heq]
  refine { ht with cached := fun k e he => ?_ }
  rcases hsub k e he with he | ⟨httl, rfl, rfl⟩
  · exact ht.cached k e he
  · exact ⟨httl, hr⟩

theorem Tracked.step (ht : Tracked cfg s) (h : CandidatesCache.step cfg s now a = some s') :
    Tracked cfg s' := by
  cases fires_of_step h with
  | persist chainId scores =>
    refine { ht with last := fun chain => (ht.last chain).imp_right ?_ }
    rintro ⟨j, u, hj, hu, hp⟩
    obtain ⟨hlt, -⟩ := List.getElem?_eq_some_iff.mp hj
    exact ⟨j, u, (List.getElem?_append_left hlt).trans hj, hu, hp⟩
  | @save i w hi hp =>
    have hi' : (s.invalidate cfg w.scores).writers[i]? = some w := by
      obtain ⟨cache, heq, -⟩ := invalidate_eq cfg w.scores s
      rw [heq]
      exact hi
    exact (ht.invalidate w.scores).moveWriter hi' (by simp [hp]) _
  | rollback hi hp => exact ht.moveWriter hi (by rcases hp with hp | hp <;> simp [hp]) _
  | commit hi hp => exact ht.commit hi hp _
  | finish hi hp => exact ht.finish hi hp
  | call key =>
    refine { ht with selected_le := fun r hr result hsel => ?_ }
    rcases List.mem_append.mp hr with hr | hr
    · exact ht.selected_le r hr result hsel
    · rw [List.mem_singleton.mp hr] at hsel
      simp only [Repository.lookup] at hsel
      split at hsel
      · split at hsel
        · split at hsel <;> cases hsel
        · cases hsel
      · cases hsel
  | select hj =>
    refine ht.moveReader fun result hsel => ?_
    cases hsel
    exact le_rfl
  | @store j r result hj hp =>
    have hle : result.version ≤ s.commits r.key.chainId :=
      ht.selected_le r (List.mem_of_getElem? hj) result hp
    exact (ht.remember hle).moveReader nofun

/-- A call that finds rows in the cache which are older than the last returned commit. -/
theorem not_fresh_of_lookup {key : CacheKey} {result : Rows} {t : Clocked ℚ Repository}
    (hlookup : t.inner.lookup cfg t.clock key = .returned result)
    (hold : result.version < t.inner.returned key.chainId) :
    ∃ u, clocked (CandidatesCache.step cfg) t ⟨t.clock, .call key⟩ = some u ∧ ¬ Fresh u.inner := by
  refine ⟨⟨t.clock, { t.inner with
    readers := t.inner.readers ++ [⟨key, t.inner.returned key.chainId, .returned result⟩] }⟩,
    clocked_eq_some.mpr ⟨le_rfl, rfl, by simp [CandidatesCache.step, hlookup]⟩, fun hfresh => ?_⟩
  have hle := hfresh _ (List.mem_append_right _ (List.mem_singleton.mpr rfl)) result rfl
  exact absurd hold (not_lt.mpr hle)

/-- An unexpired entry that is older than the last commit of its chain: once the commit's writer has
returned, a call finds the entry. -/
theorem hidden_of_stale {key : CacheKey} {e : Entry} {t : Clocked ℚ Repository}
    (ht : Tracked cfg t.inner) (he : t.inner.latestCandidatesCache key = some e)
    (hnow : t.clock < e.expiresAt) (hold : e.result.version < t.inner.commits key.chainId) :
    ∃ bs u, exec (clocked (CandidatesCache.step cfg)) t bs = some u ∧ ¬ Fresh u.inner := by
  have httl := (ht.cached key e he).1
  rcases ht.last key.chainId with hret | ⟨i, w, hi, hw, hp⟩
  · have hlookup : t.inner.lookup cfg t.clock key = .returned e.result := by
      simp [Repository.lookup, httl, he, hnow]
    obtain ⟨u, hu, hfresh⟩ := not_fresh_of_lookup hlookup (hold.trans_le hret)
    exact ⟨[_], u, exec_cons_eq_some.mpr ⟨u, hu, rfl⟩, hfresh⟩
  · let v : Clocked ℚ Repository := ⟨t.clock, { t.inner with
      returned := Function.update t.inner.returned w.chainId
        (max (t.inner.returned w.chainId) (t.inner.commits key.chainId))
      }.moveWriter i w .returned⟩
    have hv : clocked (CandidatesCache.step cfg) t ⟨t.clock, .write i .finish⟩ = some v :=
      clocked_eq_some.mpr ⟨le_rfl, rfl, by simp [CandidatesCache.step, write, hi, hp, v]⟩
    have hlookup : v.inner.lookup cfg v.clock key = .returned e.result := by
      simp [Repository.lookup, Repository.moveWriter, httl, he, hnow, v]
    have hret : t.inner.commits key.chainId ≤ v.inner.returned key.chainId := by
      simp [Repository.moveWriter, ← hw, v]
    obtain ⟨u, hu, hfresh⟩ := not_fresh_of_lookup hlookup (hold.trans_le hret)
    exact ⟨[_, _], u, exec_cons_eq_some.mpr ⟨v, hv, exec_cons_eq_some.mpr ⟨u, hu, rfl⟩⟩, hfresh⟩

/-- The condition is exact: after a step that is not orderly, a call can get rows from before a
commit whose `_persist_success` had returned. -/
theorem hidden_of_not_orderly {db : Database} {t₀ : ℚ} {acts : List (Stamped ℚ Act)}
    {s s' : Clocked ℚ Repository} {a : Stamped ℚ Act}
    (h : exec (clocked (CandidatesCache.step cfg)) (created db t₀) acts = some s)
    (hnot : ¬ Orderly cfg s a) (hs : clocked (CandidatesCache.step cfg) s a = some s') :
    ∃ bs u, exec (clocked (CandidatesCache.step cfg)) s' bs = some u ∧ ¬ Fresh u.inner := by
  have ht : Tracked cfg s.inner :=
    exec_invariant (fun s => Tracked cfg s.inner) (tracked_created cfg db t₀)
      (fun _ _ _ ht hs => ht.step (clocked_eq_some.mp hs).2.2) h
  obtain ⟨-, hclock, hstep⟩ := clocked_eq_some.mp hs
  have ht' : Tracked cfg s'.inner := ht.step hstep
  obtain ⟨_, act⟩ := a
  obtain ⟨now, inner⟩ := s'
  simp only at hclock hstep ht'
  subst hclock
  cases fires_of_step hstep with
  | @commit i w hi hp =>
    simp only [Orderly, not_forall, not_le] at hnot
    obtain ⟨u, hu, -, key, e, hkey, he, hlt⟩ := hnot
    rw [hi] at hu
    cases hu
    have hold : e.result.version < s.inner.commits w.chainId + 1 := by
      have hle := (ht.cached key e he).2
      rw [hkey] at hle
      omega
    exact hidden_of_stale ht' he hlt (by simpa [Repository.moveWriter, hkey] using hold)
  | @store j r result hj hp =>
    simp only [Orderly, not_forall] at hnot
    obtain ⟨u, found, hu, hfound, httl, hne⟩ := hnot
    rw [hj] at hu
    cases hu
    rw [hp] at hfound
    cases hfound
    have hle := ht.selected_le r (List.mem_of_getElem? hj) result hp
    have hstored : (s.inner.remember cfg now r.key result).latestCandidatesCache r.key =
        some ⟨now + cfg.candidateCacheTtlSeconds, result⟩ := by
      simp [Repository.remember, httl]
    have hcommits : (s.inner.remember cfg now r.key result).commits = s.inner.commits := by
      obtain ⟨cache, heq, -⟩ := remember_eq cfg now r.key result s.inner
      rw [heq]
    refine hidden_of_stale ht' hstored (by simpa using httl) ?_
    simp only [Repository.moveReader, hcommits]
    omega
  | persist _ _ | save _ _ | rollback _ _ | finish _ _ | call _ | select _ =>
    exact absurd trivial hnot

end Steps

/-! ### A reader between the invalidation and the commit -/

def sample : Config := .init 100 30

/-- The latest candidates of a chain, of any tier. -/
def latest : CacheKey := ⟨"sol", none, 20⟩

/-- The first reader fills the cache before the commit, and the second is called after it. -/
def earlyReader : List (Stamped ℚ Act) :=
  [⟨0, .persist "sol" firstRun⟩, ⟨0, .write 0 .save⟩, ⟨1, .call latest⟩, ⟨1, .read 0 .select⟩,
    ⟨1, .read 0 .store⟩, ⟨2, .write 0 .commit⟩, ⟨2, .write 0 .finish⟩, ⟨3, .call latest⟩]

/-- The second reader gets the empty list that the first one read before the commit. -/
theorem commit_hidden :
    ¬ ∀ (cfg : Config) (db : Database) (t₀ : ℚ) (acts : List (Stamped ℚ Act))
        (s : Clocked ℚ Repository),
      exec (clocked (step cfg)) (created db t₀) acts = some s → Fresh s.inner := by
  intro h
  have hrun : (exec (clocked (step sample)) (created noRows 0) earlyReader).map
      (fun s => s.inner.readers) =
      some [⟨latest, 0, .returned ⟨[], 0⟩⟩, ⟨latest, 1, .returned ⟨[], 0⟩⟩] := by
    decide +kernel
  obtain ⟨s, hs, hreaders⟩ := Option.map_eq_some_iff.mp hrun
  have hfresh := h sample noRows 0 earlyReader s hs ⟨latest, 1, .returned ⟨[], 0⟩⟩
    (by rw [hreaders]; simp) ⟨[], 0⟩ rfl
  exact absurd hfresh (by decide)

/-- A reader that is called after the commit. -/
def lateReader : List (Stamped ℚ Act) :=
  [⟨0, .persist "sol" firstRun⟩, ⟨0, .write 0 .save⟩, ⟨2, .write 0 .commit⟩,
    ⟨2, .write 0 .finish⟩, ⟨3, .call latest⟩, ⟨3, .read 0 .select⟩, ⟨3, .read 0 .store⟩]

theorem meets_lateReader :
    Meets (clocked (step sample)) (Orderly sample) (created noRows 0) lateReader := by
  refine (meets_cons_of_step rfl).mpr ⟨trivial, (meets_cons_of_step rfl).mpr ⟨trivial, ?_⟩⟩
  refine (meets_cons_of_step rfl).mpr ⟨?_, (meets_cons_of_step rfl).mpr ⟨trivial, ?_⟩⟩
  · intro w _ _ key e _ he
    have hnone : (if key.chainId = "sol" then none else none) = some e := he
    simp at hnone
  refine (meets_cons_of_step rfl).mpr ⟨trivial, (meets_cons_of_step rfl).mpr ⟨trivial, ?_⟩⟩
  refine (meets_cons_of_step rfl).mpr ⟨?_, trivial⟩
  intro r result hj hp _
  cases hj
  cases hp
  rfl

theorem commits_visible_lateReader :
    ∃ s, exec (clocked (step sample)) (created noRows 0) lateReader = some s ∧ Fresh s.inner := by
  have hrun : (exec (clocked (step sample)) (created noRows 0) lateReader).isSome = true := by
    decide +kernel
  obtain ⟨s, hs⟩ := Option.isSome_iff_exists.mp hrun
  exact ⟨s, hs, commits_visible hs meets_lateReader⟩

end ChainMonitor.CandidatesCache
