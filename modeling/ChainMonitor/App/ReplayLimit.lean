import ChainMonitor.App.RateLimit
import ChainMonitor.ProofKit.Strings

/-! `_enforce_replay_request` of `app/main.py`, in front of the replay route. It keeps buckets of
its own, and sweeps only the stale keys out of them. -/

namespace ChainMonitor.RateLimit

open ProofKit

structure PipelineSettings where
  replayAllowedChains : List String
  replayRequireApiKey : Bool
  replayRateLimitPerMinute : ℤ
  replayRateLimitBurst : ℤ

structure ReplayRequest where
  clientHost : Option String
  apiKeyHeader : Option String
  chainId : String
  deriving DecidableEq

def ReplayRequest.sourceIp (r : ReplayRequest) : String := r.clientHost.getD "unknown"

/-- `f"{source_ip}:{chain_id}"`. -/
def ReplayRequest.key (r : ReplayRequest) : String := r.sourceIp ++ ":" ++ r.chainId

/-- The error of a replay request that is not authorised. -/
def replayRefusal (app : AppSettings) (cfg : PipelineSettings) (r : ReplayRequest) :
    Option (ℕ × String) :=
  if r.chainId ∉ cfg.replayAllowedChains then some (403, r.chainId ++ " replay is disabled")
  else if cfg.replayRequireApiKey then
    if app.expected = "" then some (503, "replay api key is not configured")
    else if r.apiKeyHeader.getD "" ≠ app.expected then some (401, "unauthorized replay request")
    else none
  else none

def PipelineSettings.replayLimit (cfg : PipelineSettings) : ℤ :=
  max 1 (max 0 cfg.replayRateLimitPerMinute + cfg.replayRateLimitBurst)

/-- The buckets that the replay request finds, after the sweep if one is due. -/
def replaySwept (app : AppSettings) (now : ℚ) (b : Buckets) : Buckets :=
  if b.sweepDue now then { withoutStale app now b with lastSweepAt := now } else b

def enforceReplayRequest (app : AppSettings) (cfg : PipelineSettings) (b : Buckets) (now : ℚ)
    (r : ReplayRequest) : Verdict × Buckets :=
  match replayRefusal app cfg r with
  | some (statusCode, message) => (.refused statusCode message, b)
  | none =>
    if max 0 cfg.replayRateLimitPerMinute ≤ 0 then (.passed, b)
    else
      let (within, b') := (replaySwept app now b).hit cfg.replayLimit r.key now
      (.limited "replay rate limit exceeded" within, b')

/-! ### Decisions and runs -/

section Replay

variable {app : AppSettings} {cfg : PipelineSettings} {key : String} {now now' : ℚ} {b : Buckets}
  {history : List ℚ}

theorem replayLimit_pos (cfg : PipelineSettings) : 0 < cfg.replayLimit :=
  lt_of_lt_of_le Int.one_pos (le_max_left _ _)

theorem replaySwept_tracks (app : AppSettings) {limit : ℤ} (h : b.Tracks limit key now history)
    (hle : now ≤ now') : (replaySwept app now' b).Tracks limit key now' history := by
  unfold replaySwept
  split
  · exact (h.withoutStale app hle).at now'
  · exact h.later hle

/-- A refusal that does not come from the rate limit has another status code. -/
theorem statusCode_replayRefusal {r : ReplayRequest} {refusal : ℕ × String}
    (h : replayRefusal app cfg r = some refusal) : refusal.1 ≠ 429 := by
  unfold replayRefusal at h
  grind

/-- What is decided about a replay request, in terms of those passed on before. -/
theorem enforceReplayRequest_passed (app : AppSettings) (hon : 0 < cfg.replayRateLimitPerMinute)
    (r : ReplayRequest) (h : b.Tracks cfg.replayLimit r.key now history) (hle : now ≤ now') :
    (enforceReplayRequest app cfg b now' r).1 = .passed ↔
      replayRefusal app cfg r = none ∧ (recent (now' - 60) history).length < cfg.replayLimit := by
  have hhit := ((replaySwept_tracks app h hle).hit le_rfl (replayLimit_pos cfg)).1
  have hbase : ¬max 0 cfg.replayRateLimitPerMinute ≤ 0 := by omega
  unfold enforceReplayRequest
  cases replayRefusal app cfg r with
  | some refusal => simp
  | none => simpa [hbase] using hhit

theorem enforceReplayRequest_tracks (app : AppSettings) (hon : 0 < cfg.replayRateLimitPerMinute)
    (r : ReplayRequest) (h : b.Tracks cfg.replayLimit key now history) (hle : now ≤ now') :
    (enforceReplayRequest app cfg b now' r).2.Tracks cfg.replayLimit key now'
      (history ++ if (enforceReplayRequest app cfg b now' r).1 = .passed ∧ r.key = key
        then [now'] else []) := by
  have hreq := (replaySwept_tracks app h hle).request le_rfl (replayLimit_pos cfg) r.key
  have hbase : ¬max 0 cfg.replayRateLimitPerMinute ≤ 0 := by omega
  unfold enforceReplayRequest
  cases replayRefusal app cfg r with
  | some refusal => simpa using h.later hle
  | none => simpa [hbase] using hreq

/-- A request is refused for the rate limit exactly when the last minute has used the limit up. -/
theorem enforceReplayRequest_limited (app : AppSettings) (hon : 0 < cfg.replayRateLimitPerMinute)
    (r : ReplayRequest) (h : b.Tracks cfg.replayLimit r.key now history) (hle : now ≤ now') :
    (enforceReplayRequest app cfg b now' r).1 = .refused 429 "replay rate limit exceeded" ↔
      replayRefusal app cfg r = none ∧ (recent (now' - 60) history).length = cfg.replayLimit := by
  have hpassed := enforceReplayRequest_passed app hon r h hle
  have hfull : ((recent (now' - 60) history).length : ℤ) ≤ cfg.replayLimit := by
    have hwin := h.paced.window_le (now' - 60)
    rw [h.window_eq hle] at hwin
    have := replayLimit_pos cfg
    omega
  have hbase : ¬max 0 cfg.replayRateLimitPerMinute ≤ 0 := by omega
  have hcode : ∀ refusal, replayRefusal app cfg r = some refusal → refusal.1 ≠ 429 :=
    fun _ => statusCode_replayRefusal
  unfold enforceReplayRequest at hpassed ⊢
  cases hrefusal : replayRefusal app cfg r with
  | some refusal => simpa using fun h429 => absurd h429 (hcode refusal hrefusal)
  | none =>
    simp only [hrefusal, hbase, ↓reduceIte, Verdict.limited_eq_passed, true_and] at hpassed ⊢
    rw [Verdict.limited_eq_refused, ← Bool.not_eq_true, hpassed]
    omega

/-- An authorised request is passed on or refused for the rate limit. -/
theorem enforceReplayRequest_authorised (hon : 0 < cfg.replayRateLimitPerMinute)
    (r : ReplayRequest) (hauth : replayRefusal app cfg r = none)
    (hrefused : (enforceReplayRequest app cfg b now r).1 ≠ .passed) :
    (enforceReplayRequest app cfg b now r).1 = .refused 429 "replay rate limit exceeded" := by
  have hbase : ¬max 0 cfg.replayRateLimitPerMinute ≤ 0 := by omega
  unfold enforceReplayRequest at hrefused ⊢
  simp only [hauth, hbase, ↓reduceIte, ne_eq, Verdict.limited_eq_passed, Bool.not_eq_true,
    Verdict.limited_eq_refused] at hrefused ⊢
  exact hrefused

variable {t₀ : ℚ} {reqs : List (Stamped ℚ ReplayRequest)}
  {s : Clocked ℚ (Recorded ℚ Buckets ReplayRequest Verdict)}

theorem replay_run (hon : 0 < cfg.replayRateLimitPerMinute)
    (h : exec (clocked (recorded (enforceReplayRequest app cfg))) (started t₀) reqs = some s)
    (key : String) :
    s.inner.inner.Tracks cfg.replayLimit key s.clock
      (passedTimes ReplayRequest.key key s.inner.log) := by
  refine exec_invariant (fun s => s.inner.inner.Tracks cfg.replayLimit key s.clock
    (passedTimes ReplayRequest.key key s.inner.log)) (Buckets.Tracks.init _ _ _) ?_ h
  intro u a v htracks hstep
  obtain ⟨hle, hclock, hinner, hlog⟩ := clocked_recorded_eq_some.mp hstep
  rw [hclock, hinner, hlog, passedTimes_concat]
  exact enforceReplayRequest_tracks app hon a.act htracks hle

/-- The requests of a run that were passed on. -/
def passedOn (log : List (Stamped ℚ ReplayRequest × Verdict)) :
    List (Stamped ℚ ReplayRequest × Verdict) :=
  log.filter fun e => e.2 = .passed

theorem passedTimes_passedOn (log : List (Stamped ℚ ReplayRequest × Verdict)) :
    passedTimes ReplayRequest.key key (passedOn log) = passedTimes ReplayRequest.key key log := by
  unfold passedTimes passedOn
  rw [List.filter_filter]
  congr 1
  apply List.filter_congr
  intro e _
  by_cases he : e.2 = .passed <;> simp [he]

/-- Without the requests that it refuses, a run passes on the same requests. -/
theorem replay_passedOn (hon : 0 < cfg.replayRateLimitPerMinute)
    (h : exec (clocked (recorded (enforceReplayRequest app cfg))) (started t₀) reqs = some s) :
    ∃ s', exec (clocked (recorded (enforceReplayRequest app cfg))) (started t₀)
        ((passedOn s.inner.log).map Prod.fst) = some s' ∧
      s'.inner.log = passedOn s.inner.log ∧ s'.clock ≤ s.clock := by
  refine exec_history (fun _ s => ∃ s', exec (clocked (recorded (enforceReplayRequest app cfg)))
      (started t₀) ((passedOn s.inner.log).map Prod.fst) = some s' ∧
    s'.inner.log = passedOn s.inner.log ∧ s'.clock ≤ s.clock) ⟨started t₀, rfl, rfl, le_rfl⟩ ?_ h
  rintro as u a v hu ⟨u', hu', hlog', hclock'⟩ hstep
  obtain ⟨hle, hclock, -, hlog⟩ := clocked_recorded_eq_some.mp hstep
  have hle' : u'.clock ≤ a.now := hclock'.trans hle
  have hpassed := enforceReplayRequest_passed app hon a.act (replay_run hon hu a.act.key) hle
  have hpassed' := enforceReplayRequest_passed app hon a.act (replay_run hon hu' a.act.key) hle'
  rw [hlog', passedTimes_passedOn, ← hpassed] at hpassed'
  by_cases hv : (enforceReplayRequest app cfg u.inner.inner a.now a.act).1 = .passed
  · have hkeep : passedOn v.inner.log = passedOn u.inner.log ++ [(a, .passed)] := by
      rw [hlog, passedOn, List.filter_append, ← passedOn, hv]
      rfl
    have hstep' : clocked (recorded (enforceReplayRequest app cfg)) u' a =
        some ⟨a.now, (enforceReplayRequest app cfg u'.inner.inner a.now a.act).2,
          u'.inner.log ++ [(a, (enforceReplayRequest app cfg u'.inner.inner a.now a.act).1)]⟩ :=
      clocked_recorded_eq_some.mpr ⟨hle', rfl, rfl, rfl⟩
    rw [hkeep, List.map_append]
    refine ⟨_, exec_concat_eq_some.mpr ⟨u', hu', hstep'⟩, ?_, hclock.ge⟩
    rw [← hlog', hpassed'.mpr hv]
  · have hdrop : passedOn v.inner.log = passedOn u.inner.log := by
      rw [hlog, passedOn, List.filter_append, ← passedOn]
      simp [hv]
    rw [hdrop, hclock]
    exact ⟨u', hu', hlog', hle'⟩

/-- Requests of one key are of one client and one chain when the names of chains have no colon. -/
theorem ReplayRequest.key_inj {r r' : ReplayRequest} (h : ':' ∉ r.chainId.toList)
    (h' : ':' ∉ r'.chainId.toList) (hkey : r.key = r'.key) :
    r.sourceIp = r'.sourceIp ∧ r.chainId = r'.chainId :=
  String.joined_inj h h' hkey

/-- The requests of one client for one chain passed on in the minute that begins at `start`. -/
def passedOf (ip chain : String) (start : ℚ) (log : List (Stamped ℚ ReplayRequest × Verdict)) :
    List (Stamped ℚ ReplayRequest × Verdict) :=
  log.filter fun e => (e.2 = .passed ∧ e.1.act.sourceIp = ip ∧ e.1.act.chainId = chain) ∧
    start ≤ e.1.now ∧ e.1.now ≤ start + 60

/-- Only authorised requests are passed on. -/
theorem replayRefusal_of_passed (hon : 0 < cfg.replayRateLimitPerMinute)
    (h : exec (clocked (recorded (enforceReplayRequest app cfg))) (started t₀) reqs = some s) :
    ∀ e ∈ s.inner.log, e.2 = .passed → replayRefusal app cfg e.1.act = none := by
  refine exec_history (fun _ s => ∀ e ∈ s.inner.log, e.2 = .passed →
    replayRefusal app cfg e.1.act = none) (by simp [started]) ?_ h
  intro as u a v hu hall hstep e he hpassed
  obtain ⟨hle, -, -, hlog⟩ := clocked_recorded_eq_some.mp hstep
  rw [hlog] at he
  rcases List.mem_append.mp he with he | he
  · exact hall e he hpassed
  · cases List.mem_singleton.mp he
    exact ((enforceReplayRequest_passed app hon a.act (replay_run hon hu a.act.key) hle).mp
      hpassed).1

/-- A request is refused for the rate limit exactly when it is authorised and as many requests of
its key as the limit allows have been passed on in the 60 seconds before it, and an authorised
request is refused for nothing else. -/
def Accounted (app : AppSettings) (cfg : PipelineSettings)
    (before : List (Stamped ℚ ReplayRequest × Verdict)) (e : Stamped ℚ ReplayRequest × Verdict) :
    Prop :=
  (e.2 = .refused 429 "replay rate limit exceeded" ↔
    replayRefusal app cfg e.1.act = none ∧
      (passedWithin ReplayRequest.key e.1.act.key (e.1.now - 60) before).length =
        cfg.replayLimit) ∧
  (replayRefusal app cfg e.1.act = none → e.2 ≠ .passed →
    e.2 = .refused 429 "replay rate limit exceeded")

theorem replay_accounted (hon : 0 < cfg.replayRateLimitPerMinute)
    (h : exec (clocked (recorded (enforceReplayRequest app cfg))) (started t₀) reqs = some s) :
    Throughout (Accounted app cfg) s.inner.log := by
  refine exec_history (fun _ s => Throughout (Accounted app cfg) s.inner.log) throughout_nil ?_ h
  intro as u a v hu hall hstep
  obtain ⟨hle, -, -, hlog⟩ := clocked_recorded_eq_some.mp hstep
  have htracks := replay_run hon hu a.act.key
  rw [hlog]
  refine throughout_concat.mpr ⟨hall, ?_⟩
  rw [Accounted, length_passedWithin, htracks.window_eq hle]
  exact ⟨enforceReplayRequest_limited app hon a.act htracks hle,
    enforceReplayRequest_authorised hon a.act⟩

theorem chainId_mem_of_authorised {r : ReplayRequest} (h : replayRefusal app cfg r = none) :
    r.chainId ∈ cfg.replayAllowedChains := by
  by_contra hnot
  simp [replayRefusal, hnot] at h

/-- With names of chains that have no colon, the requests that count against a request are those of
its own client for its own chain. -/
theorem passedWithin_key (hchains : ∀ chain ∈ cfg.replayAllowedChains, ':' ∉ chain.toList)
    {log : List (Stamped ℚ ReplayRequest × Verdict)}
    (hlog : ∀ e ∈ log, e.2 = .passed → replayRefusal app cfg e.1.act = none) {r : ReplayRequest}
    (hr : replayRefusal app cfg r = none) (start : ℚ) :
    passedWithin ReplayRequest.key r.key start log =
      passedOf r.sourceIp r.chainId start log := by
  apply List.filter_congr
  intro e he
  congr 1
  apply propext
  refine and_congr_left fun _ => and_congr_right fun hpassed => ?_
  have hauth := hlog e he hpassed
  constructor
  · exact ReplayRequest.key_inj (hchains _ (chainId_mem_of_authorised hauth))
      (hchains _ (chainId_mem_of_authorised hr))
  · rintro ⟨hip, hchain⟩
    rw [ReplayRequest.key, ReplayRequest.key, hip, hchain]

theorem replay_rate_limit (hon : 0 < cfg.replayRateLimitPerMinute)
    (h : exec (clocked (recorded (enforceReplayRequest app cfg))) (started t₀) reqs = some s) :
    (∀ key start, ((passedWithin ReplayRequest.key key start s.inner.log).length : ℤ) ≤
      max 1 (cfg.replayRateLimitPerMinute + cfg.replayRateLimitBurst)) ∧
    (∃ s', exec (clocked (recorded (enforceReplayRequest app cfg))) (started t₀)
        ((passedOn s.inner.log).map Prod.fst) = some s' ∧ s'.inner.log = passedOn s.inner.log) ∧
    Throughout (fun before e => replayRefusal app cfg e.1.act = none →
      (e.2 ≠ .passed ↔
        (passedWithin ReplayRequest.key e.1.act.key (e.1.now - 60) before).length =
          max 1 (cfg.replayRateLimitPerMinute + cfg.replayRateLimitBurst))) s.inner.log ∧
    Throughout (fun before e => e.2 = .refused 429 "replay rate limit exceeded" ↔
      replayRefusal app cfg e.1.act = none ∧
        (passedWithin ReplayRequest.key e.1.act.key (e.1.now - 60) before).length =
          max 1 (cfg.replayRateLimitPerMinute + cfg.replayRateLimitBurst)) s.inner.log ∧
    ((∀ chain ∈ cfg.replayAllowedChains, ':' ∉ chain.toList) →
      Throughout (fun before e => replayRefusal app cfg e.1.act = none → e.2 ≠ .passed →
        (passedOf e.1.act.sourceIp e.1.act.chainId (e.1.now - 60) before).length =
          max 1 (cfg.replayRateLimitPerMinute + cfg.replayRateLimitBurst)) s.inner.log) := by
  have hlimit : cfg.replayLimit =
      max 1 (cfg.replayRateLimitPerMinute + cfg.replayRateLimitBurst) := by
    rw [PipelineSettings.replayLimit, max_eq_right hon.le]
  have haccounted := replay_accounted hon h
  have hrefused : Throughout (fun before e => replayRefusal app cfg e.1.act = none →
      (e.2 ≠ .passed ↔
        (passedWithin ReplayRequest.key e.1.act.key (e.1.now - 60) before).length =
          cfg.replayLimit)) s.inner.log := by
    intro before e after hsplit hauth
    obtain ⟨hlimited, hnothingElse⟩ := haccounted before e after hsplit
    refine ⟨fun hne => (hlimited.mp (hnothingElse hauth hne)).2, fun hfull => ?_⟩
    rw [hlimited.mpr ⟨hauth, hfull⟩]
    simp
  refine ⟨fun key start => ?_, ?_, ?_, ?_, fun hchains before e after hsplit hauth hne => ?_⟩
  · rw [← hlimit]
    exact (replay_run hon h key).passedWithin_le (replayLimit_pos cfg) start
  · obtain ⟨s', hs', hlog, -⟩ := replay_passedOn hon h
    exact ⟨s', hs', hlog⟩
  · rw [← hlimit]
    exact hrefused
  · rw [← hlimit]
    exact fun before e after hsplit => (haccounted before e after hsplit).1
  · have hbefore : ∀ e' ∈ before, e'.2 = .passed → replayRefusal app cfg e'.1.act = none :=
      fun e' he' => replayRefusal_of_passed hon h e' (by simp [hsplit, he'])
    rw [← passedWithin_key hchains hbefore hauth, (hrefused before e after hsplit hauth).mp hne,
      hlimit]

/-- One replay a minute, and no API key. -/
def oneReplay : PipelineSettings where
  replayAllowedChains := ["bsc", "eth"]
  replayRequireApiKey := false
  replayRateLimitPerMinute := 1
  replayRateLimitBurst := 0

/-- The third request is refused, and does not keep the fourth one from being passed on. -/
theorem replay_rate_limit_refusedBetween :
    let reqs := [⟨0, some "10.0.0.1", none, "bsc"⟩, ⟨1, some "10.0.0.1", none, "eth"⟩,
      ⟨40, some "10.0.0.1", none, "bsc"⟩, ⟨61, some "10.0.0.1", none, "bsc"⟩]
    ∃ s, exec (clocked (recorded (enforceReplayRequest oneKey oneReplay))) (started 0) reqs =
        some s ∧
      s.inner.log.map Prod.snd =
        [.passed, .passed, .refused 429 "replay rate limit exceeded", .passed] ∧
      ∀ key start, ((passedWithin ReplayRequest.key key start s.inner.log).length : ℤ) ≤
        max 1 (oneReplay.replayRateLimitPerMinute + oneReplay.replayRateLimitBurst) := by
  intro reqs
  have hrun : ((exec (clocked (recorded (enforceReplayRequest oneKey oneReplay))) (started 0)
      reqs).map fun s => s.inner.log.map Prod.snd) =
        some [.passed, .passed, .refused 429 "replay rate limit exceeded", .passed] := by
    decide +kernel
  obtain ⟨s, hs, hlog⟩ := Option.map_eq_some_iff.mp hrun
  exact ⟨s, hs, hlog, (replay_rate_limit (by decide) hs).1⟩

end Replay

end ChainMonitor.RateLimit
