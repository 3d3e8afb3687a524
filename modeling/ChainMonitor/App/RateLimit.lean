import ChainMonitor.App.PipelineService
import ChainMonitor.ProofKit.Clock
import ChainMonitor.ProofKit.OrderedDict
import ChainMonitor.ProofKit.SlidingLog
import Mathlib.Algebra.Order.Ring.Rat
import Mathlib.Tactic.Linarith

/-! `auth_and_rate_limit_middleware` of `app/main.py`, in front of every route. It keeps a deque of
times for each key, and sweeps keys out from time to time: those that are stale, and the oldest of
those that are too many. -/

namespace ChainMonitor.RateLimit

open ProofKit

structure AppSettings where
  apiKey : String
  requireApiKey : Bool
  rateLimitPerMinute : ℤ
  rateLimitBurst : ℤ
  rateLimitBucketMaxKeys : ℤ
  rateLimitBucketKeyTtlSeconds : ℤ

/-- What becomes of a request: it is passed on, or answered with an error. -/
inductive Verdict
  | passed
  | refused (statusCode : ℕ) (message : String)
  deriving DecidableEq

/-- The answer to a request that is within its limit, or exceeds it. -/
def Verdict.limited (message : String) (within : Bool) : Verdict :=
  if within then .passed else .refused 429 message

@[simp] theorem Verdict.limited_eq_passed {message : String} {within : Bool} :
    Verdict.limited message within = .passed ↔ within = true := by
  cases within <;> simp [limited]

@[simp] theorem Verdict.limited_eq_refused {message : String} {within : Bool} :
    Verdict.limited message within = .refused 429 message ↔ within = false := by
  cases within <;> simp [limited]

/-! ### The buckets -/

/-- `_RL_BUCKET`, `_RL_LAST_SEEN` and `_RL_LAST_SWEEP_AT`, or those of the replay route. -/
structure Buckets where
  timestamps : Dict String (List ℚ)
  lastSeen : Dict String ℚ
  lastSweepAt : ℚ

/-- `_RL_SWEEP_INTERVAL_SECONDS`. -/
def sweepIntervalSeconds : ℚ := 30

namespace Buckets

def init : Buckets := ⟨Dict.empty, Dict.empty, 0⟩

/-- The times on record for a key. -/
def log (b : Buckets) (key : String) : List ℚ := (b.timestamps.get? key).getD []

def pop (b : Buckets) (key : String) : Buckets :=
  { b with lastSeen := b.lastSeen.pop key, timestamps := b.timestamps.pop key }

def popAll (b : Buckets) (keys : List String) : Buckets := keys.foldl pop b

def staleKeys (b : Buckets) (staleBefore : ℚ) : List String :=
  (b.lastSeen.rows.filter fun r => r.2 < staleBefore).map Prod.fst

/-- `sorted(last_seen.items(), key=lambda item: item[1])[:overflow]`. -/
def oldestKeys (b : Buckets) (overflow : ℕ) : List String :=
  ((b.lastSeen.rows.insertionSort fun r s => r.2 ≤ s.2).take overflow).map Prod.fst

/-- A request of `key`: whether it is within the limit, in which case its time is put on record. -/
def hit (b : Buckets) (limit : ℤ) (key : String) (now : ℚ) : Bool × Buckets :=
  let seen := b.lastSeen.set key now
  let kept := prune (now - 60) (b.log key)
  if limit ≤ kept.length then (false, ⟨b.timestamps.set key kept, seen, b.lastSweepAt⟩)
  else (true, ⟨b.timestamps.set key (kept ++ [now]), seen, b.lastSweepAt⟩)

def sweepDue (b : Buckets) (now : ℚ) : Prop := sweepIntervalSeconds ≤ now - b.lastSweepAt

instance (b : Buckets) (now : ℚ) : Decidable (b.sweepDue now) := inferInstanceAs (Decidable (_ ≤ _))

end Buckets

/-! ### The middleware -/

structure Request where
  clientHost : Option String
  path : String
  apiKeyHeader : Option String
  deriving DecidableEq

/-- `f"{source_ip}:{path}"`. -/
def Request.key (r : Request) : String := r.clientHost.getD "unknown" ++ ":" ++ r.path

def publicPaths : List String := ["/healthz", "/metrics", "/docs", "/redoc", "/openapi.json"]

def startsWith (path pre : String) : Bool := pre.toList.isPrefixOf path.toList

def authRequired (path : String) : Bool :=
  if path ∈ publicPaths then false
  else !(startsWith path "/docs" || startsWith path "/redoc" || startsWith path "/openapi")

/-- `api_key.strip()`. -/
def AppSettings.expected (app : AppSettings) : String :=
  .ofList (PipelineService.strip app.apiKey.toList)

/-- Whether the request lacks the API key that its path requires. -/
def unauthorized (app : AppSettings) (r : Request) : Bool :=
  app.requireApiKey && authRequired r.path &&
    (app.expected = "" || r.apiKeyHeader.getD "" ≠ app.expected)

/-- `max(60.0, rate_limit_bucket_key_ttl_seconds)`. -/
def AppSettings.ttlSeconds (app : AppSettings) : ℚ := max 60 app.rateLimitBucketKeyTtlSeconds

/-- The buckets without the keys that are stale at time `now`. -/
def withoutStale (app : AppSettings) (now : ℚ) (b : Buckets) : Buckets :=
  b.popAll (b.staleKeys (now - app.ttlSeconds))

/-- The keys that overflow the buckets once the stale ones are gone. -/
def overflowKeys (app : AppSettings) (now : ℚ) (b : Buckets) : List String :=
  let b := withoutStale app now b
  let maxKeys := max 1 app.rateLimitBucketMaxKeys
  if b.lastSeen.size ≤ maxKeys then []
  else b.oldestKeys (b.lastSeen.size - maxKeys).toNat

def sweepRateLimitBucket (app : AppSettings) (now : ℚ) (b : Buckets) : Buckets :=
  (withoutStale app now b).popAll (overflowKeys app now b)

def AppSettings.limit (app : AppSettings) : ℤ :=
  max 1 (app.rateLimitPerMinute + app.rateLimitBurst)

/-- The buckets that the request finds, after the sweep if one is due. -/
def swept (app : AppSettings) (now : ℚ) (b : Buckets) : Buckets :=
  if b.sweepDue now then { sweepRateLimitBucket app now b with lastSweepAt := now } else b

def authAndRateLimitMiddleware (app : AppSettings) (b : Buckets) (now : ℚ) (r : Request) :
    Verdict × Buckets :=
  if unauthorized app r then (.refused 401 "unauthorized", b)
  else if 0 < app.rateLimitPerMinute then
    let (within, b') := (swept app now b).hit app.limit r.key now
    (.limited "rate limit exceeded" within, b')
  else (.passed, b)

/-! ### What the buckets know of the requests passed on -/

namespace Buckets

variable {b : Buckets} {key other : String} {keys : List String} {limit : ℤ} {now now' : ℚ}
  {history : List ℚ}

theorem popAll_cons (b : Buckets) (key : String) (keys : List String) :
    b.popAll (key :: keys) = (b.pop key).popAll keys := rfl

theorem log_pop (b : Buckets) :
    (b.pop key).log other = if other = key then [] else b.log other := by
  simp only [log, pop, Dict.get?_pop]
  split <;> rfl

theorem log_popAll (b : Buckets) :
    (b.popAll keys).log key = if key ∈ keys then [] else b.log key := by
  induction keys generalizing b with
  | nil => simp [popAll]
  | cons k keys ih =>
    rw [popAll_cons, ih, log_pop]
    by_cases hk : key = k
    · simp [hk]
    · simp [hk]

theorem lastSeen_popAll (b : Buckets) :
    (b.popAll keys).lastSeen.get? key = if key ∈ keys then none else b.lastSeen.get? key := by
  induction keys generalizing b with
  | nil => simp [popAll]
  | cons k keys ih =>
    rw [popAll_cons, ih, pop, Dict.get?_pop]
    by_cases hk : key = k
    · simp [hk]
    · simp [hk]

theorem mem_staleKeys {staleBefore : ℚ} :
    key ∈ b.staleKeys staleBefore ↔
      ∃ seen, b.lastSeen.get? key = some seen ∧ seen < staleBefore := by
  simp only [staleKeys, List.mem_map, List.mem_filter, Dict.get?_eq_some]
  constructor
  · rintro ⟨⟨k, seen⟩, ⟨hmem, hlt⟩, rfl⟩
    exact ⟨seen, hmem, of_decide_eq_true hlt⟩
  · rintro ⟨seen, hmem, hlt⟩
    exact ⟨(key, seen), ⟨hmem, decide_eq_true hlt⟩, rfl⟩

/-- The buckets of time `now` know of a key, of whose requests those at the times of `history` have
been passed on, what its limit asks for. -/
structure Tracks (limit : ℤ) (key : String) (now : ℚ) (b : Buckets) (history : List ℚ) : Prop where
  retains : Retains 60 now (b.log key) history
  seen : ∀ seen, b.lastSeen.get? key = some seen → ∀ t ∈ history, t ≤ seen
  sorted : history.Pairwise (· ≤ ·)
  past : ∀ t ∈ history, t ≤ now
  paced : Paced limit.toNat 60 history

theorem Tracks.init (limit : ℤ) (key : String) (now : ℚ) : Tracks limit key now init [] where
  retains := Retains.nil
  seen := fun _ h => nomatch h
  sorted := List.Pairwise.nil
  past := by simp
  paced := throughout_nil

theorem Tracks.later (h : Tracks limit key now b history) (hle : now ≤ now') :
    Tracks limit key now' b history :=
  { h with
    retains := h.retains.later hle
    past := fun t ht => (h.past t ht).trans hle }

/-- When a sweep took place plays no part. -/
theorem Tracks.at (h : Tracks limit key now b history) (at_ : ℚ) :
    Tracks limit key now { b with lastSweepAt := at_ } history :=
  ⟨h.retains, h.seen, h.sorted, h.past, h.paced⟩

/-- Keys may be popped as long as the last minute does not count on them. -/
theorem Tracks.popAll (h : Tracks limit key now b history)
    (hold : key ∈ keys → ∀ t ∈ history, t < now - 60) :
    Tracks limit key now (b.popAll keys) history := by
  have hseen : ∀ seen, (b.popAll keys).lastSeen.get? key = some seen →
      b.lastSeen.get? key = some seen := by
    intro seen hs
    rw [lastSeen_popAll] at hs
    split at hs
    · cases hs
    · exact hs
  refine { h with retains := ?_, seen := fun seen hs => h.seen seen (hseen seen hs) }
  rw [log_popAll]
  split
  · exact Retains.forgotten (hold ‹_›)
  · exact h.retains

theorem Tracks.hit (h : Tracks limit key now b history) (hle : now ≤ now') (hlimit : 0 < limit) :
    ((b.hit limit key now').1 = true ↔ (recent (now' - 60) history).length < limit) ∧
      Tracks limit key now' (b.hit limit key now').2
        (history ++ if (b.hit limit key now').1 then [now'] else []) := by
  have hkept := h.retains.prune_eq hle
  have hnow : ∀ t ∈ history, t ≤ now' := fun t ht => (h.past t ht).trans hle
  unfold Buckets.hit
  dsimp only
  rw [hkept]
  split
  · rename_i hfull
    refine ⟨by simpa using hfull, ?_⟩
    rw [if_neg (by simp), List.append_nil]
    refine ⟨?_, ?_, h.sorted, hnow, h.paced⟩
    · show Retains 60 now' ((Dict.get? _ key).getD []) history
      rw [Dict.get?_set_self, Option.getD_some, ← hkept]
      exact h.retains.pruned hle h.sorted
    · intro seen hs
      rw [Dict.get?_set_self] at hs
      cases hs
      exact hnow
  · rename_i hroom
    rw [if_pos rfl]
    have hsorted : (history ++ [now']).Pairwise (· ≤ ·) := by
      refine List.pairwise_append.mpr ⟨h.sorted, List.pairwise_singleton _ _, ?_⟩
      intro t ht u hu
      rw [List.mem_singleton.mp hu]
      exact hnow t ht
    have hlast : ∀ t ∈ history ++ [now'], t ≤ now' := by
      intro t ht
      rcases List.mem_append.mp ht with ht | ht
      · exact hnow t ht
      · exact (List.mem_singleton.mp ht).le
    refine ⟨by simpa using hroom, ?_, ?_, hsorted, hlast, ?_⟩
    · show Retains 60 now' ((Dict.get? _ key).getD []) (history ++ [now'])
      rw [Dict.get?_set_self, Option.getD_some, ← hkept]
      exact h.retains.admitted hle hsorted
    · intro seen hs
      rw [Dict.get?_set_self] at hs
      cases hs
      exact hlast
    · refine throughout_concat.mpr ⟨h.paced, ?_⟩
      omega

theorem lastSeen_hit : (b.hit limit key now).2.lastSeen = b.lastSeen.set key now := by
  unfold hit
  dsimp only
  split <;> rfl

theorem log_hit_other (h : key ≠ other) : (b.hit limit other now).2.log key = b.log key := by
  unfold hit
  dsimp only
  split
  · show (Dict.get? _ key).getD [] = b.log key
    rw [Dict.get?_set_of_ne h, log]
  · show (Dict.get? _ key).getD [] = b.log key
    rw [Dict.get?_set_of_ne h, log]

/-- The window of 60 seconds that ends now is what counts as recent. -/
theorem Tracks.window_eq (h : Tracks limit key now b history) (hle : now ≤ now') :
    (history.filter fun t => now' - 60 ≤ t ∧ t ≤ now' - 60 + 60) = recent (now' - 60) history := by
  apply List.filter_congr
  intro t ht
  simp [(h.past t ht).trans hle]

/-- A request of one key leaves the other keys as they are. -/
theorem Tracks.hit_other (h : Tracks limit key now b history) (hle : now ≤ now')
    (hother : key ≠ other) (limit' : ℤ) :
    Tracks limit key now' (b.hit limit' other now').2 history := by
  have hlater := h.later hle
  refine { hlater with retains := ?_, seen := fun seen hs => h.seen seen ?_ }
  · rw [log_hit_other hother]
    exact hlater.retains
  · rwa [lastSeen_hit, Dict.get?_set_of_ne hother] at hs

/-- A request that is put on record exactly when it is within the limit of its key. -/
theorem Tracks.request (h : Tracks limit key now b history) (hle : now ≤ now')
    (hlimit : 0 < limit) (other : String) :
    Tracks limit key now' (b.hit limit other now').2
      (history ++ if (b.hit limit other now').1 = true ∧ other = key then [now'] else []) := by
  by_cases hk : other = key
  · subst hk
    simpa using (h.hit hle hlimit).2
  · simpa [hk] using h.hit_other hle (Ne.symm hk) limit

/-- The keys that the last `max(60, ttl)` seconds have not seen may go. -/
theorem Tracks.withoutStale (h : Tracks limit key now b history) (app : AppSettings)
    (hle : now ≤ now') : Tracks limit key now' (withoutStale app now' b) history := by
  apply (h.later hle).popAll
  intro hmem t ht
  obtain ⟨seen, hseen, hlt⟩ := mem_staleKeys.mp hmem
  have hle := h.seen seen hseen t ht
  have httl : (60 : ℚ) ≤ app.ttlSeconds := le_max_left _ _
  linarith

end Buckets

/-! ### Runs -/

section Runs

variable {α : Type} {keyOf : α → String} {key : String} {log : List (Stamped ℚ α × Verdict)}

/-- The times at which requests of `key` have been passed on. -/
def passedTimes (keyOf : α → String) (key : String) (log : List (Stamped ℚ α × Verdict)) : List ℚ :=
  (log.filter fun e => e.2 = .passed ∧ keyOf e.1.act = key).map fun e => e.1.now

/-- The requests of `key` passed on in the window of 60 seconds that begins at `start`. -/
def passedWithin (keyOf : α → String) (key : String) (start : ℚ)
    (log : List (Stamped ℚ α × Verdict)) : List (Stamped ℚ α × Verdict) :=
  log.filter fun e =>
    (e.2 = .passed ∧ keyOf e.1.act = key) ∧ start ≤ e.1.now ∧ e.1.now ≤ start + 60

theorem passedTimes_concat (a : Stamped ℚ α) (v : Verdict) :
    passedTimes keyOf key (log ++ [(a, v)]) =
      passedTimes keyOf key log ++ if v = .passed ∧ keyOf a.act = key then [a.now] else [] := by
  unfold passedTimes
  rw [List.filter_append, List.map_append]
  by_cases h : v = .passed ∧ keyOf a.act = key
  · simp [h]
  · simp [h]

theorem length_passedWithin (start : ℚ) :
    (passedWithin keyOf key start log).length =
      ((passedTimes keyOf key log).filter fun t => start ≤ t ∧ t ≤ start + 60).length := by
  unfold passedWithin passedTimes
  rw [List.filter_map, List.length_map, List.filter_filter]
  congr 1
  apply List.filter_congr
  intro e _
  simp [and_comm, and_assoc, Bool.and_comm, Bool.and_assoc]

theorem Buckets.Tracks.passedWithin_le {limit : ℤ} {now : ℚ} {b : Buckets} (hlimit : 0 < limit)
    (h : Tracks limit key now b (passedTimes keyOf key log)) (start : ℚ) :
    ((passedWithin keyOf key start log).length : ℤ) ≤ limit := by
  have hle := h.paced.window_le start
  rw [length_passedWithin]
  omega

/-- A route before its first request. -/
def started (t : ℚ) : Clocked ℚ (Recorded ℚ Buckets α Verdict) := ⟨t, Buckets.init, []⟩

end Runs

/-- A sweep that the request starts does not evict `key` for an overflow of keys while a request of
`key` has been passed on within the last 60 seconds. -/
def Spares (app : AppSettings) (key : String) (s : Clocked ℚ (Recorded ℚ Buckets Request Verdict))
    (a : Stamped ℚ Request) : Prop :=
  unauthorized app a.act = false → s.inner.inner.sweepDue a.now →
    key ∈ overflowKeys app a.now s.inner.inner →
      ∀ t ∈ passedTimes Request.key key s.inner.log, t < a.now - 60

theorem limit_pos (app : AppSettings) : 0 < app.limit :=
  lt_of_lt_of_le Int.one_pos (le_max_left _ _)

section Middleware

variable {app : AppSettings} {key : String} {now now' : ℚ} {b : Buckets} {history : List ℚ}

theorem swept_tracks (h : b.Tracks app.limit key now history) (hle : now ≤ now')
    (hspares : b.sweepDue now' → key ∈ overflowKeys app now' b → ∀ t ∈ history, t < now' - 60) :
    (swept app now' b).Tracks app.limit key now' history := by
  unfold swept
  split
  · rename_i hdue
    exact ((h.withoutStale app hle).popAll (hspares hdue)).at now'
  · exact h.later hle

theorem middleware_tracks (hon : 0 < app.rateLimitPerMinute) (r : Request)
    (h : b.Tracks app.limit key now history) (hle : now ≤ now')
    (hspares : unauthorized app r = false → b.sweepDue now' → key ∈ overflowKeys app now' b →
      ∀ t ∈ history, t < now' - 60) :
    (authAndRateLimitMiddleware app b now' r).2.Tracks app.limit key now'
      (history ++ if (authAndRateLimitMiddleware app b now' r).1 = .passed ∧ r.key = key
        then [now'] else []) := by
  unfold authAndRateLimitMiddleware
  split
  · simpa using h.later hle
  · rename_i hauth
    have hreq := (swept_tracks h hle (hspares (by simpa using hauth))).request le_rfl
      (limit_pos app) r.key
    simpa [hon] using hreq

theorem middleware_run (hon : 0 < app.rateLimitPerMinute) {t₀ : ℚ} {reqs : List (Stamped ℚ Request)}
    {s : Clocked ℚ (Recorded ℚ Buckets Request Verdict)}
    (hspares : Meets (clocked (recorded (authAndRateLimitMiddleware app))) (Spares app key)
      (started t₀) reqs)
    (h : exec (clocked (recorded (authAndRateLimitMiddleware app))) (started t₀) reqs = some s) :
    s.inner.inner.Tracks app.limit key s.clock (passedTimes Request.key key s.inner.log) := by
  refine exec_induction (fun _ s => s.inner.inner.Tracks app.limit key s.clock
    (passedTimes Request.key key s.inner.log)) (Buckets.Tracks.init _ _ _) ?_ hspares h
  intro _ u a v _ htracks hsp hstep
  obtain ⟨hle, hclock, hinner, hlog⟩ := clocked_recorded_eq_some.mp hstep
  rw [hclock, hinner, hlog, passedTimes_concat]
  exact middleware_tracks hon a.act htracks hle hsp

/-- The limit of the middleware, in a run in which no overflow of keys evicts the key within a
minute of a request that has been passed on. -/
theorem middleware_window_le (hon : 0 < app.rateLimitPerMinute) {t₀ : ℚ}
    {reqs : List (Stamped ℚ Request)} {s : Clocked ℚ (Recorded ℚ Buckets Request Verdict)}
    (hspares : Meets (clocked (recorded (authAndRateLimitMiddleware app))) (Spares app key)
      (started t₀) reqs)
    (h : exec (clocked (recorded (authAndRateLimitMiddleware app))) (started t₀) reqs = some s)
    (start : ℚ) :
    ((passedWithin Request.key key start s.inner.log).length : ℤ) ≤
      max 1 (app.rateLimitPerMinute + app.rateLimitBurst) :=
  (middleware_run hon hspares h).passedWithin_le (limit_pos app) start

/-- One request a minute, and one key on record. -/
def oneKey : AppSettings where
  apiKey := ""
  requireApiKey := false
  rateLimitPerMinute := 1
  rateLimitBurst := 0
  rateLimitBucketMaxKeys := 1
  rateLimitBucketKeyTtlSeconds := 600

def ofClient (path : String) : Request := ⟨some "10.0.0.1", path, none⟩

/-- The second request comes before the first sweep is due. -/
def twoRequests : List (Stamped ℚ Request) := [⟨1, ofClient "/runs"⟩, ⟨2, ofClient "/runs"⟩]

theorem middleware_window_le_twoRequests :
    ∃ s, exec (clocked (recorded (authAndRateLimitMiddleware oneKey))) (started 0) twoRequests =
        some s ∧
      s.inner.log.map Prod.snd = [.passed, .refused 429 "rate limit exceeded"] ∧
      ((passedWithin Request.key "10.0.0.1:/runs" 1 s.inner.log).length : ℤ) ≤
        max 1 (oneKey.rateLimitPerMinute + oneKey.rateLimitBurst) := by
  have hrun : ((exec (clocked (recorded (authAndRateLimitMiddleware oneKey))) (started 0)
      twoRequests).map fun s => s.inner.log.map Prod.snd) =
        some [.passed, .refused 429 "rate limit exceeded"] := by decide +kernel
  obtain ⟨s, hs, hlog⟩ := Option.map_eq_some_iff.mp hrun
  have hspares : Meets (clocked (recorded (authAndRateLimitMiddleware oneKey)))
      (Spares oneKey "10.0.0.1:/runs") (started 0) twoRequests := by
    refine ⟨fun _ hdue => absurd hdue (by decide +kernel), fun s₁ hs₁ => ⟨?_, fun _ _ => trivial⟩⟩
    intro _ hdue
    have hsweep : s₁.inner.inner.lastSweepAt = 0 := by
      rw [(clocked_recorded_eq_some.mp hs₁).2.2.1]
      decide +kernel
    rw [Buckets.sweepDue, hsweep] at hdue
    exact absurd hdue (by decide +kernel)
  exact ⟨s, hs, hlog, middleware_window_le (by decide) hspares hs 1⟩

/-- A second key makes the sweep at time 31 evict the key of the first request. -/
theorem overflow_resets_the_limit :
    ¬∀ (app : AppSettings) (t₀ : ℚ) (reqs : List (Stamped ℚ Request))
      (s : Clocked ℚ (Recorded ℚ Buckets Request Verdict)) (key : String) (start : ℚ),
      0 < app.rateLimitPerMinute →
      exec (clocked (recorded (authAndRateLimitMiddleware app))) (started t₀) reqs = some s →
      ((passedWithin Request.key key start s.inner.log).length : ℤ) ≤
        max 1 (app.rateLimitPerMinute + app.rateLimitBurst) := by
  intro hall
  have hrun : ((exec (clocked (recorded (authAndRateLimitMiddleware oneKey))) (started 0)
      [⟨1, ofClient "/runs"⟩, ⟨29, ofClient "/other"⟩, ⟨31, ofClient "/runs"⟩]).map fun s =>
        (passedWithin Request.key "10.0.0.1:/runs" 1 s.inner.log).length) = some 2 := by
    decide +kernel
  obtain ⟨s, hs, hcount⟩ := Option.map_eq_some_iff.mp hrun
  have hle := hall oneKey 0 _ s "10.0.0.1:/runs" 1 (by decide) hs
  rw [hcount] at hle
  exact absurd hle (by decide)

end Middleware

end ChainMonitor.RateLimit
