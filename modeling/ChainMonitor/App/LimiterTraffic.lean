import ChainMonitor.App.RateLimit
import ChainMonitor.ProofKit.Oldest
import Mathlib.Algebra.Order.BigOperators.Group.List

/-! What the limiter of the middleware keeps, in terms of the traffic alone: how many keys are on
record, and for which traffic no key loses its limit to a sweep. -/

namespace ChainMonitor.RateLimit

open ProofKit

/-- The keys of the requests from `start` to `stop` that the limiter counts. -/
def keysWithin (app : AppSettings) (start stop : ℚ) (log : List (Stamped ℚ Request × Verdict)) :
    Finset String :=
  ((log.filter fun e => unauthorized app e.1.act = false ∧ start ≤ e.1.now ∧ e.1.now ≤ stop).map
    fun e => e.1.act.key).toFinset

/-- `max(1, rate_limit_bucket_max_keys)`. -/
def AppSettings.maxKeys (app : AppSettings) : ℕ := (max 1 app.rateLimitBucketMaxKeys).toNat

section Keys

variable {app : AppSettings} {start stop now : ℚ} {log more : List (Stamped ℚ Request × Verdict)}
  {key : String}

theorem mem_keysWithin : key ∈ keysWithin app start stop log ↔
    ∃ e ∈ log, (unauthorized app e.1.act = false ∧ start ≤ e.1.now ∧ e.1.now ≤ stop) ∧
      e.1.act.key = key := by
  simp only [keysWithin, List.mem_toFinset, List.mem_map, List.mem_filter, decide_eq_true_eq]
  constructor
  · rintro ⟨e, ⟨he, hin⟩, hkey⟩
    exact ⟨e, he, hin, hkey⟩
  · rintro ⟨e, he, hin, hkey⟩
    exact ⟨e, ⟨he, hin⟩, hkey⟩

theorem keysWithin_append :
    keysWithin app start stop log ⊆ keysWithin app start stop (log ++ more) := by
  intro key hkey
  obtain ⟨e, he, h⟩ := mem_keysWithin.mp hkey
  exact mem_keysWithin.mpr ⟨e, List.mem_append_left _ he, h⟩

theorem maxKeys_eq (app : AppSettings) :
    (app.maxKeys : ℤ) = max 1 app.rateLimitBucketMaxKeys := by
  unfold AppSettings.maxKeys
  omega

theorem Buckets.keySet_popAll (b : Buckets) (keys : List String) :
    (b.popAll keys).lastSeen.keySet = b.lastSeen.keySet \ keys.toFinset := by
  ext k
  rw [Finset.mem_sdiff, Dict.mem_keySet, Dict.mem_keySet, lastSeen_popAll, List.mem_toFinset]
  by_cases h : k ∈ keys <;> simp [h]

/-- What overflows is what was used longest ago. -/
theorem overflowKeys_cases (app : AppSettings) (now : ℚ) (b : Buckets) :
    (overflowKeys app now b = [] ∧ (withoutStale app now b).lastSeen.size ≤ app.maxKeys) ∨
      app.maxKeys ≤ (withoutStale app now b).lastSeen.size ∧
        overflowKeys app now b = (withoutStale app now b).lastSeen.oldest
          ((withoutStale app now b).lastSeen.size - app.maxKeys) := by
  have hmax := maxKeys_eq app
  unfold overflowKeys
  dsimp only
  rw [← hmax]
  split
  · exact .inl ⟨rfl, by omega⟩
  · refine .inr ⟨by omega, ?_⟩
    have hn : (((withoutStale app now b).lastSeen.size : ℤ) - app.maxKeys).toNat =
        (withoutStale app now b).lastSeen.size - app.maxKeys := by omega
    rw [hn]
    rfl

/-- A sweep leaves no more keys than there is room for. -/
theorem card_keySet_sweep (app : AppSettings) (now : ℚ) (b : Buckets) :
    (sweepRateLimitBucket app now b).lastSeen.keySet.card ≤ app.maxKeys := by
  rw [sweepRateLimitBucket, Buckets.keySet_popAll]
  rcases overflowKeys_cases app now b with ⟨hnone, hsize⟩ | ⟨hsize, hold⟩
  · rw [hnone, List.toFinset_nil, Finset.sdiff_empty, Dict.card_keySet]
    exact hsize
  · rw [hold, Dict.card_sdiff_oldest hsize]

end Keys

/-! ### The invariant -/

/-- What the buckets of time `now` know of the requests of a log. -/
structure Kept (app : AppSettings) (now : ℚ) (b : Buckets)
    (log : List (Stamped ℚ Request × Verdict)) : Prop where
  sameKeys : ∀ key, (b.timestamps.get? key).isSome = (b.lastSeen.get? key).isSome
  short : ∀ key, ((b.log key).length : ℤ) ≤ app.limit
  past : ∀ e ∈ log, e.1.now ≤ now
  requested : ∀ key t, b.lastSeen.get? key = some t →
    ∃ e ∈ log, unauthorized app e.1.act = false ∧ e.1.act.key = key ∧ e.1.now = t
  latest : ∀ key t, b.lastSeen.get? key = some t →
    ∀ e ∈ log, unauthorized app e.1.act = false → e.1.act.key = key → e.1.now ≤ t
  sweptAt : b.lastSweepAt ≤ now
  /-- A key on record has outlived the last sweep, or has been requested since. -/
  few : ∃ old : Finset String, old.card ≤ app.maxKeys ∧
    b.lastSeen.keySet ⊆
      old ∪ keysWithin app b.lastSweepAt (b.lastSweepAt + sweepIntervalSeconds) log

section Kept

variable {app : AppSettings} {now now' : ℚ} {b : Buckets}
  {log : List (Stamped ℚ Request × Verdict)} {keys : List String}

theorem Kept.init (app : AppSettings) (hnow : 0 ≤ now) : Kept app now Buckets.init [] where
  sameKeys := fun _ => rfl
  short := fun _ => (limit_pos app).le
  past := by simp
  requested := fun _ _ h => nomatch h
  latest := fun _ _ h => nomatch h
  sweptAt := hnow
  few := ⟨∅, Nat.zero_le _, Finset.empty_subset _⟩

theorem Kept.later (h : Kept app now b log) (hle : now ≤ now') : Kept app now' b log :=
  { h with
    past := fun e he => (h.past e he).trans hle
    sweptAt := h.sweptAt.trans hle }

theorem lastSeen_of_popAll {key : String} {t : ℚ}
    (h : (b.popAll keys).lastSeen.get? key = some t) : b.lastSeen.get? key = some t := by
  rw [Buckets.lastSeen_popAll] at h
  split at h
  · cases h
  · exact h

theorem timestamps_popAll (b : Buckets) (keys : List String) (key : String) :
    (b.popAll keys).timestamps.get? key =
      if key ∈ keys then none else b.timestamps.get? key := by
  induction keys generalizing b with
  | nil => simp [Buckets.popAll]
  | cons k keys ih =>
    rw [Buckets.popAll_cons, ih, Buckets.pop, Dict.get?_pop]
    by_cases hk : key = k <;> simp [hk]

theorem lastSweepAt_popAll (b : Buckets) (keys : List String) :
    (b.popAll keys).lastSweepAt = b.lastSweepAt := by
  induction keys generalizing b with
  | nil => rfl
  | cons k keys ih =>
    rw [Buckets.popAll_cons, ih]
    rfl

theorem Kept.popAll (h : Kept app now b log) (keys : List String) :
    Kept app now (b.popAll keys) log where
  sameKeys := fun key => by
    rw [timestamps_popAll, Buckets.lastSeen_popAll]
    split
    · rfl
    · exact h.sameKeys key
  short := fun key => by
    rw [Buckets.log_popAll]
    split
    · exact (limit_pos app).le
    · exact h.short key
  past := h.past
  requested := fun key t ht => h.requested key t (lastSeen_of_popAll ht)
  latest := fun key t ht => h.latest key t (lastSeen_of_popAll ht)
  sweptAt := (lastSweepAt_popAll b keys).trans_le h.sweptAt
  few := by
    obtain ⟨old, hold, hsub⟩ := h.few
    refine ⟨old, hold, ?_⟩
    rw [Buckets.keySet_popAll, lastSweepAt_popAll]
    exact Finset.sdiff_subset.trans hsub

theorem Kept.swept (h : Kept app now b log) (hle : now ≤ now') :
    Kept app now' (swept app now' b) log := by
  unfold RateLimit.swept
  split
  · have hpopped := ((h.later hle).popAll (b.staleKeys (now' - app.ttlSeconds))).popAll
      (overflowKeys app now' b)
    exact { hpopped with
      sweptAt := le_rfl
      few := ⟨_, card_keySet_sweep app now' b, Finset.subset_union_left⟩ }
  · exact h.later hle

/-- After the sweep, the last one is less than half a minute old. -/
theorem lt_sweep (app : AppSettings) (now : ℚ) (b : Buckets) :
    now < (swept app now b).lastSweepAt + sweepIntervalSeconds := by
  unfold swept
  split
  · exact lt_add_of_pos_right now (by decide +kernel)
  · rename_i hdue
    have := not_le.mp hdue
    linarith

theorem lastSweepAt_hit {limit : ℤ} {key : String} :
    (b.hit limit key now).2.lastSweepAt = b.lastSweepAt := by
  unfold Buckets.hit
  dsimp only
  split <;> rfl

theorem isSome_timestamps_hit {limit : ℤ} {key other : String} :
    ((b.hit limit key now).2.timestamps.get? other).isSome =
      (decide (other = key) || (b.timestamps.get? other).isSome) := by
  unfold Buckets.hit
  dsimp only
  split
  · rw [Dict.get?_set]
    by_cases h : other = key <;> simp [h]
  · rw [Dict.get?_set]
    by_cases h : other = key <;> simp [h]

theorem length_log_hit {limit : ℤ} {key other : String}
    (h : ((b.log other).length : ℤ) ≤ limit) :
    (((b.hit limit key now).2.log other).length : ℤ) ≤ limit := by
  by_cases hk : other = key
  · subst hk
    have hprune : (prune (now - 60) (b.log other)).length ≤ (b.log other).length :=
      (List.dropWhile_sublist _).length_le
    unfold Buckets.hit
    dsimp only
    split
    · show (((Dict.get? _ other).getD []).length : ℤ) ≤ limit
      rw [Dict.get?_set_self, Option.getD_some]
      omega
    · rename_i hroom
      show (((Dict.get? _ other).getD []).length : ℤ) ≤ limit
      rw [Dict.get?_set_self, Option.getD_some, List.length_append, List.length_singleton]
      omega
  · rwa [Buckets.log_hit_other hk]

/-- A request that the limiter counts goes on record. -/
theorem Kept.hit (h : Kept app now b log) (hnow : now < b.lastSweepAt + sweepIntervalSeconds)
    {r : Request} (hauth : unauthorized app r = false) (v : Verdict) :
    Kept app now (b.hit app.limit r.key now).2 (log ++ [(⟨now, r⟩, v)]) := by
  have hseen : (b.hit app.limit r.key now).2.lastSeen = b.lastSeen.set r.key now :=
    Buckets.lastSeen_hit
  refine ⟨fun key => ?_, fun key => length_log_hit (h.short key), ?_, ?_, ?_,
    lastSweepAt_hit.trans_le h.sweptAt, ?_⟩
  · rw [isSome_timestamps_hit, hseen, Dict.get?_set, h.sameKeys]
    by_cases hk : key = r.key <;> simp [hk]
  · intro e he
    rcases List.mem_append.mp he with he | he
    · exact h.past e he
    · rw [List.mem_singleton.mp he]
  · intro key t ht
    rw [hseen, Dict.get?_set] at ht
    split at ht
    · rename_i hk
      obtain rfl := Option.some_inj.mp ht
      exact ⟨(⟨now, r⟩, v), by simp, hauth, hk.symm, rfl⟩
    · obtain ⟨e, he, hin⟩ := h.requested key t ht
      exact ⟨e, List.mem_append_left _ he, hin⟩
  · intro key t ht e he hcounted hkey
    rw [hseen, Dict.get?_set] at ht
    rcases List.mem_append.mp he with he | he
    · split at ht
      · obtain rfl := Option.some_inj.mp ht
        exact h.past e he
      · exact h.latest key t ht e he hcounted hkey
    · obtain rfl := List.mem_singleton.mp he
      rw [if_pos hkey.symm] at ht
      exact (Option.some_inj.mp ht).le
  · obtain ⟨old, hold, hsub⟩ := h.few
    refine ⟨old, hold, ?_⟩
    rw [hseen, Dict.keySet_set, lastSweepAt_hit]
    refine Finset.insert_subset (Finset.mem_union_right _ (mem_keysWithin.mpr ?_))
      (hsub.trans (Finset.union_subset_union_right keysWithin_append))
    exact ⟨(⟨now, r⟩, v), by simp, ⟨hauth, h.sweptAt, hnow.le⟩, rfl⟩

/-- A request that lacks its key leaves no trace. -/
theorem Kept.unauthorized (h : Kept app now b log) {r : Request} (hauth : unauthorized app r = true)
    (v : Verdict) : Kept app now b (log ++ [(⟨now, r⟩, v)]) where
  sameKeys := h.sameKeys
  short := h.short
  past := by
    intro e he
    rcases List.mem_append.mp he with he | he
    · exact h.past e he
    · rw [List.mem_singleton.mp he]
  requested := by
    intro key t ht
    obtain ⟨e, he, hin⟩ := h.requested key t ht
    exact ⟨e, List.mem_append_left _ he, hin⟩
  latest := by
    intro key t ht e he hcounted hkey
    rcases List.mem_append.mp he with he | he
    · exact h.latest key t ht e he hcounted hkey
    · obtain rfl := List.mem_singleton.mp he
      exact absurd hcounted (by simp [hauth])
  sweptAt := h.sweptAt
  few := by
    obtain ⟨old, hold, hsub⟩ := h.few
    exact ⟨old, hold, hsub.trans (Finset.union_subset_union_right keysWithin_append)⟩

theorem Kept.step (hon : 0 < app.rateLimitPerMinute) (h : Kept app now b log) (hle : now ≤ now')
    (r : Request) : Kept app now' (authAndRateLimitMiddleware app b now' r).2
      (log ++ [(⟨now', r⟩, (authAndRateLimitMiddleware app b now' r).1)]) := by
  generalize hv : (authAndRateLimitMiddleware app b now' r).1 = v
  unfold authAndRateLimitMiddleware
  split
  · exact (h.later hle).unauthorized ‹_› v
  · rename_i hauth
    have hhit := (h.swept hle).hit (lt_sweep app now' b) (by simpa using hauth) v
    simpa [hon] using hhit

/-- What is evicted for an overflow of keys has seen no request for a minute, as long as the last
minute has no more keys than there is room for. -/
theorem Kept.silent (h : Kept app now b log) (hle : now ≤ now')
    (hfew : (keysWithin app (now' - 60) now' log).card ≤ app.maxKeys) {key : String}
    (hkey : key ∈ overflowKeys app now' b) {e : Stamped ℚ Request × Verdict} (he : e ∈ log)
    (hcounted : RateLimit.unauthorized app e.1.act = false) (hown : e.1.act.key = key) :
    e.1.now < now' - 60 := by
  rcases overflowKeys_cases app now' b with ⟨hnone, -⟩ | ⟨hsize, hold⟩
  · rw [hnone] at hkey
    cases hkey
  by_contra hrecent
  let kept := (withoutStale app now' b).lastSeen
  let rest := kept.keySet \ (kept.oldest (kept.size - app.maxKeys)).toFinset
  rw [hold] at hkey
  have hmem : key ∈ kept.keySet := Dict.oldest_subset _ _ (List.mem_toFinset.mpr hkey)
  obtain ⟨t, ht⟩ := Option.isSome_iff_exists.mp (Dict.mem_keySet.mp hmem)
  have hlatest := h.latest key t (lastSeen_of_popAll ht) e he hcounted hown
  have hin : ∀ j s, kept.get? j = some s → t ≤ s → j ∈ keysWithin app (now' - 60) now' log := by
    intro j s hs hts
    obtain ⟨e', he', hcounted', hown', rfl⟩ := h.requested j s (lastSeen_of_popAll hs)
    exact mem_keysWithin.mpr ⟨e', he', ⟨hcounted', by linarith, (h.past e' he').trans hle⟩, hown'⟩
  have hsub : insert key rest ⊆ keysWithin app (now' - 60) now' log := by
    refine Finset.insert_subset (hin key t ht le_rfl) fun j hj => ?_
    obtain ⟨hj, hstays⟩ := Finset.mem_sdiff.mp hj
    obtain ⟨s, hs⟩ := Option.isSome_iff_exists.mp (Dict.mem_keySet.mp hj)
    exact hin j s hs
      (Dict.le_of_mem_oldest hkey (fun hmem => hstays (List.mem_toFinset.mpr hmem)) ht hs)
  have hnot : key ∉ rest := fun hmem =>
    (Finset.mem_sdiff.mp hmem).2 (List.mem_toFinset.mpr hkey)
  have hcard := Finset.card_le_card hsub
  rw [Finset.card_insert_of_notMem hnot, Dict.card_sdiff_oldest hsize] at hcard
  omega

end Kept

/-! ### Runs -/

section Runs

variable {app : AppSettings} {t₀ : ℚ} {reqs : List (Stamped ℚ Request)}
  {s : Clocked ℚ (Recorded ℚ Buckets Request Verdict)}

theorem kept_of_run (hon : 0 < app.rateLimitPerMinute) (ht₀ : 0 ≤ t₀)
    (h : exec (clocked (recorded (authAndRateLimitMiddleware app))) (started t₀) reqs = some s) :
    Kept app s.clock s.inner.inner s.inner.log := by
  refine exec_invariant (fun s => Kept app s.clock s.inner.inner s.inner.log)
    (Kept.init app ht₀) ?_ h
  intro u a v hkept hstep
  obtain ⟨hle, hclock, hinner, hlog⟩ := clocked_recorded_eq_some.mp hstep
  rw [hclock, hinner, hlog]
  exact hkept.step hon hle a.act

/-- A request that is passed on does not lack its key. -/
theorem authorised_of_passed
    (h : exec (clocked (recorded (authAndRateLimitMiddleware app))) (started t₀) reqs = some s) :
    ∀ e ∈ s.inner.log, e.2 = .passed → unauthorized app e.1.act = false := by
  refine exec_invariant (fun s => ∀ e ∈ s.inner.log, e.2 = Verdict.passed →
    unauthorized app e.1.act = false) (by simp [started]) ?_ h
  intro u a v hall hstep e he hpassed
  obtain ⟨-, -, -, hlog⟩ := clocked_recorded_eq_some.mp hstep
  rw [hlog] at he
  rcases List.mem_append.mp he with he | he
  · exact hall e he hpassed
  · obtain rfl := List.mem_singleton.mp he
    by_contra hauth
    have hlacks : unauthorized app a.act = true := by simpa using hauth
    simp [authAndRateLimitMiddleware, hlacks] at hpassed

/-- Traffic of few keys makes no sweep evict a key that still counts. -/
theorem spares_of_traffic (hon : 0 < app.rateLimitPerMinute) (ht₀ : 0 ≤ t₀)
    (h : exec (clocked (recorded (authAndRateLimitMiddleware app))) (started t₀) reqs = some s)
    (hfew : ∀ start, (keysWithin app start (start + 60) s.inner.log).card ≤ app.maxKeys)
    (key : String) :
    Meets (clocked (recorded (authAndRateLimitMiddleware app))) (Spares app key) (started t₀)
      reqs := by
  induction reqs using List.reverseRecOn generalizing s with
  | nil => exact meets_nil _
  | append_singleton reqs a ih =>
    obtain ⟨u, hu, hstep⟩ := exec_concat_eq_some.mp h
    obtain ⟨hle, -, -, hlog⟩ := clocked_recorded_eq_some.mp hstep
    have hfew' : ∀ start, (keysWithin app start (start + 60) u.inner.log).card ≤ app.maxKeys := by
      intro start
      refine le_trans (Finset.card_le_card ?_) (hfew start)
      rw [hlog]
      exact keysWithin_append
    refine meets_concat.mpr ⟨ih hu hfew', fun u' hu' => ?_⟩
    obtain rfl := Option.some_inj.mp (hu.symm.trans hu')
    intro _ _ hover t ht
    obtain ⟨e, he, rfl⟩ := List.mem_map.mp ht
    obtain ⟨he, hpassed⟩ := List.mem_filter.mp he
    obtain ⟨hpassed, hkey⟩ := of_decide_eq_true hpassed
    have hminute := hfew' (a.now - 60)
    rw [sub_add_cancel] at hminute
    exact (kept_of_run hon ht₀ hu).silent hle hminute hover he
      (authorised_of_passed hu e he hpassed) hkey

/-- The limit of every key holds for traffic of which no minute has more keys than there is room
for. -/
theorem limit_of_traffic (hon : 0 < app.rateLimitPerMinute) (ht₀ : 0 ≤ t₀)
    (h : exec (clocked (recorded (authAndRateLimitMiddleware app))) (started t₀) reqs = some s)
    (hfew : ∀ start, (keysWithin app start (start + 60) s.inner.log).card ≤ app.maxKeys)
    (key : String) (start : ℚ) :
    ((passedWithin Request.key key start s.inner.log).length : ℤ) ≤
      max 1 (app.rateLimitPerMinute + app.rateLimitBurst) :=
  (middleware_run hon (spares_of_traffic hon ht₀ h hfew key) h).passedWithin_le (limit_pos app)
    start

theorem keysWithin_subset {start stop : ℚ} {log : List (Stamped ℚ Request × Verdict)} :
    keysWithin app start stop log ⊆ (log.map fun e => e.1.act.key).toFinset := by
  intro key hkey
  obtain ⟨e, he, -, rfl⟩ := mem_keysWithin.mp hkey
  exact List.mem_toFinset.mpr (List.mem_map_of_mem he)

/-- One request a minute, and two keys on record. -/
def twoKeys : AppSettings := { oneKey with rateLimitBucketMaxKeys := 2 }

/-- The sweep at time 31 finds room for both keys. -/
theorem limit_of_traffic_twoKeys :
    ∃ s, exec (clocked (recorded (authAndRateLimitMiddleware twoKeys))) (started 0)
        [⟨1, ofClient "/runs"⟩, ⟨29, ofClient "/other"⟩, ⟨31, ofClient "/runs"⟩] = some s ∧
      s.inner.log.map Prod.snd = [.passed, .passed, .refused 429 "rate limit exceeded"] ∧
      ((passedWithin Request.key "10.0.0.1:/runs" 1 s.inner.log).length : ℤ) ≤
        max 1 (twoKeys.rateLimitPerMinute + twoKeys.rateLimitBurst) := by
  have hrun : ((exec (clocked (recorded (authAndRateLimitMiddleware twoKeys))) (started 0)
      [⟨1, ofClient "/runs"⟩, ⟨29, ofClient "/other"⟩, ⟨31, ofClient "/runs"⟩]).map fun s =>
        (s.inner.log.map Prod.snd, s.inner.log.map fun e => e.1.act.key)) =
      some ([.passed, .passed, .refused 429 "rate limit exceeded"],
        ["10.0.0.1:/runs", "10.0.0.1:/other", "10.0.0.1:/runs"]) := by decide +kernel
  obtain ⟨s, hs, hlog⟩ := Option.map_eq_some_iff.mp hrun
  obtain ⟨hverdicts, hkeys⟩ := Prod.ext_iff.mp hlog
  refine ⟨s, hs, hverdicts, limit_of_traffic (by decide) le_rfl hs (fun start => ?_) _ 1⟩
  refine (Finset.card_le_card keysWithin_subset).trans ?_
  dsimp only at hkeys
  rw [hkeys]
  decide +kernel

/-! ### Memory -/

/-- The times in all deques. -/
def Buckets.stored (b : Buckets) : ℕ := (b.timestamps.rows.map fun r => r.2.length).sum

theorem Kept.keySet_timestamps {now : ℚ} {b : Buckets} {log : List (Stamped ℚ Request × Verdict)}
    (h : Kept app now b log) : b.timestamps.keySet = b.lastSeen.keySet := by
  ext key
  rw [Dict.mem_keySet, Dict.mem_keySet, h.sameKeys]

theorem Kept.stored_le {now : ℚ} {b : Buckets} {log : List (Stamped ℚ Request × Verdict)}
    (h : Kept app now b log) : b.stored ≤ b.lastSeen.size * app.limit.toNat := by
  have hsize : b.timestamps.size = b.lastSeen.size := by
    rw [← Dict.card_keySet, ← Dict.card_keySet, h.keySet_timestamps]
  have hshort : ∀ n ∈ b.timestamps.rows.map fun r => r.2.length, n ≤ app.limit.toNat := by
    intro n hn
    obtain ⟨r, hr, rfl⟩ := List.mem_map.mp hn
    have hlog : b.log r.1 = r.2 := by
      rw [Buckets.log, Dict.get?_eq_some.mpr hr]
      rfl
    have := h.short r.1
    rw [hlog] at this
    omega
  have hsum := List.sum_le_card_nsmul _ _ hshort
  rw [List.length_map] at hsum
  rw [← hsize]
  exact hsum

/-- For traffic of which no half minute has more than `n` keys, the limiter has no more than `n`
keys on record beyond those that a sweep leaves, the same in both dicts, and no more times for each
than its limit. -/
theorem limiter_memory (hon : 0 < app.rateLimitPerMinute) (ht₀ : 0 ≤ t₀)
    (h : exec (clocked (recorded (authAndRateLimitMiddleware app))) (started t₀) reqs = some s)
    {n : ℕ} (hfew : ∀ start,
      (keysWithin app start (start + sweepIntervalSeconds) s.inner.log).card ≤ n) :
    s.inner.inner.timestamps.keySet = s.inner.inner.lastSeen.keySet ∧
      s.inner.inner.lastSeen.size ≤ app.maxKeys + n ∧
      s.inner.inner.stored ≤ (app.maxKeys + n) * app.limit.toNat := by
  have hkept := kept_of_run hon ht₀ h
  obtain ⟨old, hold, hsub⟩ := hkept.few
  have hsize : s.inner.inner.lastSeen.size ≤ app.maxKeys + n := by
    calc s.inner.inner.lastSeen.size = s.inner.inner.lastSeen.keySet.card :=
          (Dict.card_keySet _).symm
      _ ≤ old.card + (keysWithin app s.inner.inner.lastSweepAt
            (s.inner.inner.lastSweepAt + sweepIntervalSeconds) s.inner.log).card :=
          (Finset.card_le_card hsub).trans (Finset.card_union_le _ _)
      _ ≤ app.maxKeys + n := Nat.add_le_add hold (hfew _)
  exact ⟨hkept.keySet_timestamps, hsize,
    hkept.stored_le.trans (Nat.mul_le_mul_right _ hsize)⟩

/-- Three keys within half a minute, of which one outlives the sweep at time 31. -/
theorem limiter_memory_threeKeys :
    ∃ s, exec (clocked (recorded (authAndRateLimitMiddleware oneKey))) (started 0)
        [⟨1, ofClient "/runs"⟩, ⟨29, ofClient "/other"⟩, ⟨31, ofClient "/third"⟩] = some s ∧
      s.inner.inner.lastSeen.keys = ["10.0.0.1:/other", "10.0.0.1:/third"] ∧
      s.inner.inner.lastSeen.size ≤ oneKey.maxKeys + 3 := by
  have hrun : ((exec (clocked (recorded (authAndRateLimitMiddleware oneKey))) (started 0)
      [⟨1, ofClient "/runs"⟩, ⟨29, ofClient "/other"⟩, ⟨31, ofClient "/third"⟩]).map fun s =>
        (s.inner.inner.lastSeen.keys, s.inner.log.map fun e => e.1.act.key)) =
      some (["10.0.0.1:/other", "10.0.0.1:/third"],
        ["10.0.0.1:/runs", "10.0.0.1:/other", "10.0.0.1:/third"]) := by decide +kernel
  obtain ⟨s, hs, hlog⟩ := Option.map_eq_some_iff.mp hrun
  obtain ⟨hon, hkeys⟩ := Prod.ext_iff.mp hlog
  refine ⟨s, hs, hon, (limiter_memory (by decide) le_rfl hs (fun start => ?_)).2.1⟩
  refine (Finset.card_le_card keysWithin_subset).trans ?_
  dsimp only at hkeys
  rw [hkeys]
  decide +kernel

end Runs

end ChainMonitor.RateLimit
