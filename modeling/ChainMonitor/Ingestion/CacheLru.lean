import ChainMonitor.Ingestion.CacheStore

/-! A `ResponseCacheStore` without Redis: its memory alone answers, and evicts the url that was set
or hit longest ago. -/

namespace ChainMonitor.Ingestion

open ProofKit

inductive CacheCall (P : Type*)
  | get (url : String)
  | set (url : String) (payload : P)
  deriving DecidableEq

namespace ResponseCacheStore

variable {P : Type*} {config : CacheConfig}

/-- `get`, where `_redis_client` is `None`. -/
def get (now : ℚ) (url : String) (store : ResponseCacheStore config P) :
    Option P × ResponseCacheStore config P :=
  if config.ttlSeconds ≤ 0 then (none, store) else store.lookup now url

/-- `set`, where `_redis_client` is `None`. -/
def set (now : ℚ) (url : String) (payload : P) (store : ResponseCacheStore config P) :
    ResponseCacheStore config P :=
  if config.ttlSeconds ≤ 0 then store else store.put now url payload

def call (store : ResponseCacheStore config P) (now : ℚ) :
    CacheCall P → Option P × ResponseCacheStore config P
  | .get url => store.get now url
  | .set url payload => (none, store.set now url payload)

/-- The calls on one store, each at the time that its label gives, with their answers on record. -/
def calls : Clocked ℚ (Recorded ℚ (ResponseCacheStore config P) (CacheCall P) (Option P)) →
    Stamped ℚ (CacheCall P) →
      Option (Clocked ℚ (Recorded ℚ (ResponseCacheStore config P) (CacheCall P) (Option P))) :=
  clocked (recorded call)

def started (start : ℚ) :
    Clocked ℚ (Recorded ℚ (ResponseCacheStore config P) (CacheCall P) (Option P)) :=
  ⟨start, init, []⟩

end ResponseCacheStore

/-! ### The store among others that share a Redis -/

namespace CacheSystem

variable {ι P : Type*} [DecidableEq ι] {config : ι → CacheConfig} {now : ℚ} {i : ι} {url : String}
  {payload : P} {s : CacheSystem config P}

/-- A store without Redis answers a `get` at once, from its memory. -/
theorem get_of_no_redis (hredis : (config i).redisClient = false) :
    s.get now i url = { s with
      stores := Function.update s.stores i ((s.stores i).get now url).2
      returns := s.returns ++
        (((s.stores i).get now url).1.map fun p => ⟨now, i, url, p⟩).toList } := by
  unfold get ResponseCacheStore.get
  split
  · simp
  · split
    · rename_i p store hhit
      simp [hhit]
    · rename_i store hmiss
      simp [hmiss, hredis]

/-- A store without Redis sends nothing for a `set`. -/
theorem set_of_no_redis {sha256 : String → String} (hredis : (config i).redisClient = false) :
    s.set sha256 now i url payload = { s with
      sets := s.sets ++ [⟨now, i, url, payload⟩]
      stores := Function.update s.stores i ((s.stores i).set now url payload) } := by
  unfold set ResponseCacheStore.set
  split
  · simp
  · simp [hredis]

end CacheSystem

/-! ### What the calls so far say about a url -/

/-- The calls on a store and their answers. -/
abbrev CacheLog (P : Type*) := List (Stamped ℚ (CacheCall P) × Option P)

namespace CacheLog

variable {P : Type*} {now : ℚ} {url u : String} {payload : P} {log : CacheLog P}
  {e : Stamped ℚ (CacheCall P) × Option P}

/-- The url whose entry the call makes the newest: one that it sets or hits. -/
def touched : Stamped ℚ (CacheCall P) × Option P → Option String
  | (⟨_, .set url _⟩, _) => some url
  | (⟨_, .get url⟩, some _) => some url
  | (⟨_, .get _⟩, none) => none

/-- The time and the payload that the call sets the url with. -/
def assigned (url : String) : Stamped ℚ (CacheCall P) × Option P → Option (ℚ × P)
  | (⟨now, .set u payload⟩, _) => if u = url then some (now, payload) else none
  | (⟨_, .get _⟩, _) => none

/-- The latest `set` of the url. -/
def lastSet (url : String) (log : CacheLog P) : Option (ℚ × P) :=
  log.reverse.findSome? (assigned url)

/-- The other urls that were set or hit since the url was. -/
def others (url : String) (log : CacheLog P) : Finset String :=
  ((log.reverse.takeWhile fun e => touched e ≠ some url).filterMap touched).toFinset

theorem lastSet_concat : lastSet url (log ++ [e]) = (assigned url e).or (lastSet url log) := by
  unfold lastSet
  rw [List.reverse_append, List.reverse_singleton, List.singleton_append, List.findSome?_cons]
  cases assigned url e with
  | none => rfl
  | some a => rfl

@[simp] theorem lastSet_get {answer : Option P} :
    lastSet url (log ++ [(⟨now, .get u⟩, answer)]) = lastSet url log := by
  rw [lastSet_concat]
  rfl

theorem lastSet_set {answer : Option P} :
    lastSet url (log ++ [(⟨now, .set u payload⟩, answer)]) =
      if u = url then some (now, payload) else lastSet url log := by
  rw [lastSet_concat, assigned]
  split
  · rfl
  · rfl

theorem others_concat_none (h : touched e = none) : others url (log ++ [e]) = others url log := by
  simp [others, h]

theorem others_concat_self (h : touched e = some url) : others url (log ++ [e]) = ∅ := by
  simp [others, h]

theorem others_concat_of_ne (h : touched e = some u) (hne : u ≠ url) :
    others url (log ++ [e]) = insert u (others url log) := by
  simp [others, h, hne]

end CacheLog

/-! ### The invariant -/

section Runs

open CacheLog ResponseCacheStore

variable {P : Type*} {config : CacheConfig} {clock now t : ℚ} {url u : String} {payload p : P}
  {log : CacheLog P} {store : ResponseCacheStore config P}

/-- What the memory holds after the calls of the log, the last of which was at `clock`. -/
structure Remembers (config : CacheConfig) (clock : ℚ) (log : CacheLog P)
    (cache : Dict String (CacheEntry P)) : Prop where
  entries : ∀ url entry, cache.get? url = some entry → 0 < config.ttlSeconds ∧
    ∃ t, lastSet url log = some (t, entry.payload) ∧ entry.expireAt = t + config.ttlSeconds
  past : ∀ url t p, lastSet url log = some (t, p) → t ≤ clock
  kept : ∀ url t p, lastSet url log = some (t, p) → clock < t + config.ttlSeconds →
    (others url log).card < config.maxEntries →
      cache.Recent url ⟨t + config.ttlSeconds, p⟩ (others url log)

theorem remembers_init : Remembers config clock ([] : CacheLog P) Dict.empty := by
  constructor
  · intro url entry h
    cases h
  · intro url t p h
    cases h
  · intro url t p h
    cases h

/-- What a call at `now` can do to the memory. -/
inductive Recalls (config : CacheConfig) (now : ℚ) (cache : Dict String (CacheEntry P)) :
    CacheCall P → Option P → Dict String (CacheEntry P) → Prop
  | disabled {url : String} (httl : config.ttlSeconds ≤ 0) :
      Recalls config now cache (.get url) none cache
  | absent {url : String} (h : cache.get? url = none) :
      Recalls config now cache (.get url) none cache
  | expired {url : String} {entry : CacheEntry P} (h : cache.get? url = some entry)
      (hexp : entry.expireAt ≤ now) : Recalls config now cache (.get url) none (cache.pop url)
  | hit {url : String} {entry : CacheEntry P} (h : cache.get? url = some entry)
      (hlive : now < entry.expireAt) :
      Recalls config now cache (.get url) (some entry.payload) ((cache.pop url).set url entry)
  | ignored {url : String} {payload : P} (httl : config.ttlSeconds ≤ 0) :
      Recalls config now cache (.set url payload) none cache
  | set {url : String} {payload : P} (httl : 0 < config.ttlSeconds) :
      Recalls config now cache (.set url payload) none
        (((cache.pop url).set url ⟨now + config.ttlSeconds, payload⟩).compact config.maxEntries)

theorem recalls_call (store : ResponseCacheStore config P) (now : ℚ) (act : CacheCall P) :
    Recalls config now store.responseCache act (call store now act).1
      (call store now act).2.responseCache := by
  cases act with
  | get url =>
    by_cases httl : config.ttlSeconds ≤ 0
    · simp only [call, ResponseCacheStore.get, if_pos httl]
      exact .disabled httl
    · simp only [call, ResponseCacheStore.get, if_neg httl, lookup]
      split
      · rename_i hnone
        exact .absent hnone
      · rename_i entry hsome
        split
        · rename_i hexp
          exact .expired hsome hexp
        · rename_i hlive
          exact .hit hsome (not_le.mp hlive)
  | set url payload =>
    by_cases httl : config.ttlSeconds ≤ 0
    · simp only [call, ResponseCacheStore.set, if_pos httl]
      exact .ignored httl
    · simp only [call, ResponseCacheStore.set, if_neg httl]
      exact .set (not_le.mp httl)

variable {cache cache' : Dict String (CacheEntry P)} {act : CacheCall P} {answer : Option P}

theorem past_get (h : Remembers config clock log cache) (hle : clock ≤ now) {url : String}
    (hlast : lastSet url (log ++ [(⟨now, .get u⟩, answer)]) = some (t, p)) : t ≤ now := by
  rw [lastSet_get] at hlast
  exact (h.past url t p hlast).trans hle

/-- A call that misses. -/
theorem Remembers.miss (h : Remembers config clock log cache) (hle : clock ≤ now) (u : String)
    (hcache : cache' = cache ∨
      cache' = cache.pop u ∧ ∃ entry, cache.get? u = some entry ∧ entry.expireAt ≤ now) :
    Remembers config now (log ++ [(⟨now, .get u⟩, none)]) cache' := by
  have hothers : ∀ url, others url (log ++ [(⟨now, .get u⟩, none)]) = others url log :=
    fun url => others_concat_none rfl
  refine ⟨?entries, fun url t p => past_get h hle, ?kept⟩
  case entries =>
    intro url entry hentry
    rw [lastSet_get]
    rcases hcache with rfl | ⟨rfl, -⟩
    · exact h.entries url entry hentry
    · rw [Dict.get?_pop] at hentry
      split at hentry
      · cases hentry
      · exact h.entries url entry hentry
  case kept =>
    intro url t p hlast hlive hcard
    rw [lastSet_get] at hlast
    rw [hothers] at hcard ⊢
    have hrecent := h.kept url t p hlast (hle.trans_lt hlive) hcard
    rcases hcache with rfl | ⟨rfl, entry, hentry, hexp⟩
    · exact hrecent
    · apply hrecent.pop
      rintro rfl
      rw [hrecent.get?] at hentry
      cases hentry
      exact absurd hexp (not_le.mpr hlive)

/-- A call that hits makes its entry the newest. -/
theorem Remembers.hit {entry : CacheEntry P} (h : Remembers config clock log cache)
    (hle : clock ≤ now) (hentry : cache.get? u = some entry) :
    Remembers config now (log ++ [(⟨now, .get u⟩, some entry.payload)])
      ((cache.pop u).set u entry) := by
  refine ⟨?entries, fun url t p => past_get h hle, ?kept⟩
  case entries =>
    intro url old hold
    rw [lastSet_get]
    rw [Dict.get?_pop_set] at hold
    split at hold
    · rename_i hurl
      cases hold
      exact h.entries url entry (hurl ▸ hentry)
    · exact h.entries url old hold
  case kept =>
    intro url t p hlast hlive hcard
    rw [lastSet_get] at hlast
    by_cases hurl : u = url
    · subst hurl
      obtain ⟨-, t', hlast', hexp⟩ := h.entries u entry hentry
      rw [hlast] at hlast'
      cases hlast'
      rw [others_concat_self rfl, ← hexp]
      exact Dict.recent_pop_set
    · rw [others_concat_of_ne rfl hurl] at hcard ⊢
      have hold := (Finset.card_le_card (Finset.subset_insert u (others url log))).trans_lt hcard
      exact (h.kept url t p hlast (hle.trans_lt hlive) hold).pop_set hurl

theorem past_set (h : Remembers config clock log cache) (hle : clock ≤ now) {url : String}
    (hlast : lastSet url (log ++ [(⟨now, .set u payload⟩, none)]) = some (t, p)) : t ≤ now := by
  rw [lastSet_set] at hlast
  split at hlast
  · cases hlast
    exact le_rfl
  · exact (h.past url t p hlast).trans hle

/-- A `set` makes its entry the newest and evicts the oldest. -/
theorem Remembers.set (h : Remembers config clock log cache) (hle : clock ≤ now)
    (httl : 0 < config.ttlSeconds) :
    Remembers config now (log ++ [(⟨now, .set u payload⟩, none)])
      (((cache.pop u).set u ⟨now + config.ttlSeconds, payload⟩).compact config.maxEntries) := by
  refine ⟨?entries, fun url t p => past_set h hle, ?kept⟩
  case entries =>
    intro url entry hentry
    have hset := Dict.get?_of_compact hentry
    rw [Dict.get?_pop_set] at hset
    rw [lastSet_set]
    split at hset
    · rename_i hurl
      cases hset
      exact ⟨httl, now, if_pos hurl.symm, rfl⟩
    · rename_i hurl
      rw [if_neg (Ne.symm hurl)]
      exact h.entries url entry hset
  case kept =>
    intro url t p hlast hlive hcard
    rw [lastSet_set] at hlast
    by_cases hurl : u = url
    · subst hurl
      rw [if_pos rfl] at hlast
      cases hlast
      rw [others_concat_self rfl] at hcard ⊢
      exact Dict.recent_pop_set.compact hcard
    · rw [if_neg hurl] at hlast
      rw [others_concat_of_ne rfl hurl] at hcard ⊢
      have hold := (Finset.card_le_card (Finset.subset_insert u (others url log))).trans_lt hcard
      exact ((h.kept url t p hlast (hle.trans_lt hlive) hold).pop_set hurl).compact hcard

/-- Without a TTL the memory stays empty. -/
theorem Remembers.ignored (h : Remembers config clock log cache) (hle : clock ≤ now)
    (httl : config.ttlSeconds ≤ 0) :
    Remembers config now (log ++ [(⟨now, .set u payload⟩, none)]) cache := by
  refine ⟨?entries, fun url t p => past_set h hle, ?kept⟩
  case entries =>
    intro url entry hentry
    exact absurd (h.entries url entry hentry).1 (not_lt.mpr httl)
  case kept =>
    intro url t p hlast hlive
    have hpast := past_set h hle hlast
    linarith

theorem Remembers.step (h : Remembers config clock log cache) (hle : clock ≤ now)
    (hcall : Recalls config now cache act answer cache') :
    Remembers config now (log ++ [(⟨now, act⟩, answer)]) cache' := by
  cases hcall with
  | disabled httl => exact h.miss hle _ (.inl rfl)
  | absent hnone => exact h.miss hle _ (.inl rfl)
  | expired hentry hexp => exact h.miss hle _ (.inr ⟨rfl, _, hentry, hexp⟩)
  | hit hentry hlive => exact h.hit hle hentry
  | ignored httl => exact h.ignored hle httl
  | set httl => exact h.set hle httl

/-! ### The guarantee -/

/-- What a `get` answers after the calls of the log: nothing but the latest payload of its url,
while that has not expired, and this payload when fewer than `max_entries` other urls were set or
hit since its own. -/
structure Serves (config : CacheConfig) (log : CacheLog P) (now : ℚ) (url : String)
    (answer : Option P) : Prop where
  latest : ∀ p, answer = some p → ∃ t, lastSet url log = some (t, p) ∧ now < t + config.ttlSeconds
  recent : ∀ t p, lastSet url log = some (t, p) → now < t + config.ttlSeconds →
    (others url log).card < config.maxEntries → answer = some p

theorem Remembers.serves (h : Remembers config clock log cache) (hle : clock ≤ now)
    (hcall : Recalls config now cache (.get url) answer cache') :
    Serves config log now url answer := by
  cases hcall with
  | disabled httl =>
    refine ⟨by simp, ?_⟩
    intro t p hlast hlive
    have := h.past url t p hlast
    linarith
  | absent hnone =>
    refine ⟨by simp, ?_⟩
    intro t p hlast hlive hcard
    rw [(h.kept url t p hlast (hle.trans_lt hlive) hcard).get?] at hnone
    cases hnone
  | expired hentry hexp =>
    refine ⟨by simp, ?_⟩
    intro t p hlast hlive hcard
    rw [(h.kept url t p hlast (hle.trans_lt hlive) hcard).get?] at hentry
    cases hentry
    exact absurd hexp (not_le.mpr hlive)
  | @hit _ entry hentry hlive =>
    obtain ⟨-, t, hlast, hexp⟩ := h.entries url entry hentry
    refine ⟨?_, ?_⟩
    · intro p hp
      cases hp
      exact ⟨t, hlast, hexp ▸ hlive⟩
    · intro t' p hlast'
      rw [hlast] at hlast'
      cases hlast'
      intros
      rfl

variable {start : ℚ} {as : List (Stamped ℚ (CacheCall P))}
  {s t : Clocked ℚ (Recorded ℚ (ResponseCacheStore config P) (CacheCall P) (Option P))}

/-- On a clock that does not go back every call is answered. -/
theorem exists_exec_calls (h : (s.clock :: as.map Stamped.now).Pairwise (· ≤ ·)) :
    ∃ t, exec calls s as = some t := by
  induction as generalizing s with
  | nil => exact ⟨s, rfl⟩
  | cons a as ih =>
    obtain ⟨hclock, hrest⟩ := List.pairwise_cons.mp h
    have hle : s.clock ≤ a.now := hclock a.now (by simp)
    obtain ⟨s', hstep, hnow⟩ : ∃ s', calls s a = some s' ∧ s'.clock = a.now :=
      ⟨⟨a.now, (call s.inner.inner a.now a.act).2,
        s.inner.log ++ [(a, (call s.inner.inner a.now a.act).1)]⟩,
        clocked_recorded_eq_some.mpr ⟨hle, rfl, rfl, rfl⟩, rfl⟩
    rw [List.map_cons, ← hnow] at hrest
    obtain ⟨t, ht⟩ := ih hrest
    exact ⟨t, exec_cons_eq_some.mpr ⟨s', hstep, ht⟩⟩

/-- The invariant of the runs: the memory is as the log says, and so was every answer. -/
structure Lru (as : List (Stamped ℚ (CacheCall P)))
    (s : Clocked ℚ (Recorded ℚ (ResponseCacheStore config P) (CacheCall P) (Option P))) :
    Prop where
  recorded : s.inner.log.map Prod.fst = as
  remembers : Remembers config s.clock s.inner.log s.inner.inner.responseCache
  serves : Throughout (fun before e => ∀ url, e.1.act = .get url →
    Serves config before e.1.now url e.2) s.inner.log

theorem Lru.step {a : Stamped ℚ (CacheCall P)} (h : Lru as s) (hstep : calls s a = some t) :
    Lru (as ++ [a]) t := by
  obtain ⟨hle, hclock, hinner, hlog⟩ := clocked_recorded_eq_some.mp hstep
  have hcall := recalls_call s.inner.inner a.now a.act
  obtain ⟨now, act⟩ := a
  refine ⟨?_, ?_, ?_⟩
  · rw [hlog, List.map_append, h.recorded]
    rfl
  · rw [hclock, hlog, hinner]
    exact h.remembers.step hle hcall
  · rw [hlog]
    refine throughout_concat.mpr ⟨h.serves, ?_⟩
    rintro url rfl
    exact h.remembers.serves hle hcall

/-- The memory cache is least recently used: a store never holds more than `max_entries` entries, a
`get` returns only the payload of the latest `set` of its url, before that expires, and it does
return it when fewer than `max_entries` other urls were set or hit since the url was. -/
theorem calls_lru (hclock : (start :: as.map Stamped.now).Pairwise (· ≤ ·)) :
    ∃ s, exec (@calls P config) (started start) as = some s ∧
      s.inner.log.map Prod.fst = as ∧
      s.inner.inner.responseCache.size ≤ config.maxEntries ∧
      Throughout (fun before e => ∀ url, e.1.act = .get url →
        Serves config before e.1.now url e.2) s.inner.log := by
  obtain ⟨s, hs⟩ : ∃ s, exec (@calls P config) (started start) as = some s :=
    exists_exec_calls hclock
  have hlru : Lru as s := exec_history Lru ⟨rfl, remembers_init, throughout_nil⟩
    (fun _ _ _ _ _ h hstep => h.step hstep) hs
  exact ⟨s, hs, hlru.recorded, s.inner.inner.size_le, hlru.serves⟩

/-- Room for two responses. -/
def twoEntries : CacheConfig where
  chainId := "bsc"
  provider := "geckoterminal"
  cacheNamespace := "cm:ingestion:v1"
  ttlSeconds := 3
  maxEntries := 2
  redisTimeoutSeconds := 1 / 5
  redisClient := false
  ttlSeconds_nonneg := Nat.ofNat_nonneg 3
  maxEntries_pos := by norm_num

/-- The hit at 1 saves the first url from the eviction, and it expires at 3. -/
def threeUrls : List (Stamped ℚ (CacheCall ℕ)) :=
  [⟨0, .set "/pools/1" 1⟩, ⟨0, .set "/pools/2" 2⟩, ⟨1, .get "/pools/1"⟩, ⟨1, .set "/pools/3" 3⟩,
    ⟨2, .get "/pools/1"⟩, ⟨2, .get "/pools/2"⟩, ⟨3, .get "/pools/1"⟩]

theorem calls_lru_threeUrls :
    ∃ s, exec (@calls ℕ twoEntries) (started 0) threeUrls = some s ∧
      s.inner.log.map Prod.snd = [none, none, some 1, none, some 1, none, none] ∧
      s.inner.inner.responseCache.size ≤ 2 ∧
      Throughout (fun before e => ∀ url, e.1.act = .get url →
        Serves twoEntries before e.1.now url e.2) s.inner.log := by
  have hrun : (exec (@calls ℕ twoEntries) (started 0) threeUrls).map
      (fun s => s.inner.log.map Prod.snd) =
        some [none, none, some 1, none, some 1, none, none] := by decide +kernel
  have hclock : (0 :: threeUrls.map Stamped.now).Pairwise (· ≤ ·) := by decide +kernel
  obtain ⟨s, hs, -, hsize, hserves⟩ := @calls_lru ℕ twoEntries 0 threeUrls hclock
  rw [hs] at hrun
  exact ⟨s, hs, Option.some.inj hrun, hsize, hserves⟩

end Runs

end ChainMonitor.Ingestion
