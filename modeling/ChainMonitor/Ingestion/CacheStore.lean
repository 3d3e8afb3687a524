import ChainMonitor.ProofKit.Clock
import ChainMonitor.ProofKit.OrderedDict
import Mathlib.Algebra.Order.Floor.Semiring
import Mathlib.Data.Rat.Floor

/-! `ResponseCacheStore` of `ingestion/resilience/cache_store.py`: a memory cache in front of a
Redis that any number of stores share. The sections under the lock do not suspend, so each is one
step. A step that Redis takes part in is split at the awaits: a `GET` is sent, is executed by the
server at any later time, and its reply is received or lost; a `SETEX` is sent and is executed at
any later time, or never, also after `wait_for` has given it up. -/

namespace ChainMonitor.Ingestion

open ProofKit

/-- What the constructor of a store leaves. `redisClient` says whether there is a Redis client. -/
structure CacheConfig where
  chainId : String
  provider : String
  cacheNamespace : String
  ttlSeconds : ℚ
  maxEntries : ℕ
  redisTimeoutSeconds : ℚ
  redisClient : Bool
  ttlSeconds_nonneg : 0 ≤ ttlSeconds
  maxEntries_pos : 0 < maxEntries

namespace CacheConfig

/-- `_cache_key`. `sha256` is the hexadecimal digest of a text. -/
def cacheKey (sha256 : String → String) (c : CacheConfig) (url : String) : String :=
  let digest := sha256 (c.provider ++ ":" ++ c.chainId ++ ":" ++ url)
  c.cacheNamespace ++ ":" ++ c.provider ++ ":" ++ c.chainId ++ ":" ++ digest

/-- The TTL that `set` gives to `setex`. -/
def setexSeconds (c : CacheConfig) : ℕ := max 1 ⌊c.ttlSeconds⌋₊

/-- The stores ask the same provider about the same chain. -/
def SameSource (c d : CacheConfig) : Prop := c.provider = d.provider ∧ c.chainId = d.chainId

end CacheConfig

structure CacheEntry (P : Type*) where
  expireAt : ℚ
  payload : P
  deriving DecidableEq

/-- The memory of a store. -/
structure ResponseCacheStore (config : CacheConfig) (P : Type*) where
  responseCache : Dict String (CacheEntry P)
  size_le : responseCache.size ≤ config.maxEntries

namespace ResponseCacheStore

variable {P : Type*} {config : CacheConfig}

def init : ResponseCacheStore config P := ⟨Dict.empty, Nat.zero_le _⟩

def compactLocked (cache : Dict String (CacheEntry P)) : ResponseCacheStore config P :=
  ⟨cache.compact config.maxEntries, Dict.size_compact_le⟩

/-- The first section of `get` under the lock: a hit becomes the newest entry. -/
def lookup (now : ℚ) (url : String) (store : ResponseCacheStore config P) :
    Option P × ResponseCacheStore config P :=
  match h : store.responseCache.get? url with
  | none => (none, store)
  | some entry =>
    if entry.expireAt ≤ now then
      (none, ⟨store.responseCache.pop url, Dict.size_pop_le.trans store.size_le⟩)
    else
      (some entry.payload, ⟨(store.responseCache.pop url).set url entry,
        Dict.size_pop_set_le (.inl (by simp [h])) store.size_le⟩)

/-- The second section of `get` under the lock, after a hit in Redis. -/
def refill (now : ℚ) (url : String) (payload : P) (store : ResponseCacheStore config P) :
    ResponseCacheStore config P :=
  compactLocked (store.responseCache.set url ⟨now + config.ttlSeconds, payload⟩)

/-- The section of `set` under the lock. -/
def put (now : ℚ) (url : String) (payload : P) (store : ResponseCacheStore config P) :
    ResponseCacheStore config P :=
  compactLocked ((store.responseCache.pop url).set url ⟨now + config.ttlSeconds, payload⟩)

variable {now expireAt : ℚ} {url k : String} {payload p : P} {entry : CacheEntry P}
  {store : ResponseCacheStore config P}

/-- A hit is an entry that has not expired. -/
theorem lookup_eq_some : (store.lookup now url).1 = some p ↔
    ∃ entry, store.responseCache.get? url = some entry ∧ now < entry.expireAt ∧
      entry.payload = p := by
  unfold lookup
  split
  · rename_i hn
    simp [hn]
  · rename_i entry he
    split
    · rename_i hexp
      simp [he, hexp]
    · rename_i hexp
      simp [he, not_le.mp hexp]

/-- A lookup drops the entry of its url when that has expired, and keeps every other. -/
theorem get?_lookup : (store.lookup now url).2.responseCache.get? k = some entry ↔
    store.responseCache.get? k = some entry ∧ (k = url → now < entry.expireAt) := by
  unfold lookup
  split
  · rename_i hn
    constructor
    · intro h
      refine ⟨h, fun hk => ?_⟩
      rw [hk, hn] at h
      cases h
    · exact And.left
  · rename_i e he
    split
    · rename_i hexp
      simp only [Dict.get?_pop]
      split
      · rename_i hk
        subst hk
        simp only [he, Option.some.injEq, true_implies, reduceCtorEq, false_iff]
        rintro ⟨rfl, hlt⟩
        exact absurd hexp (not_le.mpr hlt)
      · rename_i hk
        simp [hk]
    · rename_i hexp
      simp only [Dict.get?_pop_set]
      split
      · rename_i hk
        subst hk
        simp only [he, Option.some.injEq, true_implies]
        constructor
        · rintro rfl
          exact ⟨rfl, not_le.mp hexp⟩
        · exact And.left
      · rename_i hk
        simp [hk]

/-- The assignment of a url evicts nothing. -/
def HasRoom (url : String) (store : ResponseCacheStore config P) : Prop :=
  (store.responseCache.get? url).isSome ∨ store.responseCache.size < config.maxEntries

/-- What a compaction leaves of an assignment is the new entry or an old one of another url. -/
theorem get?_of_compactLocked {cache : Dict String (CacheEntry P)} {new : CacheEntry P}
    (hset : cache.get? k = if k = url then some new else store.responseCache.get? k)
    (h : (compactLocked cache : ResponseCacheStore config P).responseCache.get? k = some entry) :
    k = url ∧ entry = new ∨ k ≠ url ∧ store.responseCache.get? k = some entry := by
  rw [Dict.get?_of_compact h] at hset
  split at hset
  · rename_i hk
    exact .inl ⟨hk, Option.some.inj hset⟩
  · rename_i hk
    exact .inr ⟨hk, hset.symm⟩

theorem get?_of_refill (h : (store.refill now url p).responseCache.get? k = some entry) :
    k = url ∧ entry = ⟨now + config.ttlSeconds, p⟩ ∨
      k ≠ url ∧ store.responseCache.get? k = some entry :=
  get?_of_compactLocked Dict.get?_set h

theorem get?_of_put (h : (store.put now url p).responseCache.get? k = some entry) :
    k = url ∧ entry = ⟨now + config.ttlSeconds, p⟩ ∨
      k ≠ url ∧ store.responseCache.get? k = some entry :=
  get?_of_compactLocked Dict.get?_pop_set h

theorem get?_refill_self : (store.refill now url p).responseCache.get? url =
    some ⟨now + config.ttlSeconds, p⟩ :=
  Dict.get?_compact_set config.maxEntries_pos store.size_le

theorem get?_put_self : (store.put now url p).responseCache.get? url =
    some ⟨now + config.ttlSeconds, p⟩ :=
  Dict.get?_compact_set config.maxEntries_pos (Dict.size_pop_le.trans store.size_le)

theorem get?_refill (h : store.HasRoom url) : (store.refill now url p).responseCache.get? k =
    if k = url then some ⟨now + config.ttlSeconds, p⟩ else store.responseCache.get? k := by
  show (Dict.compact _ config.maxEntries).get? k = _
  rw [Dict.compact_of_size_le (Dict.size_set_le h store.size_le), Dict.get?_set]

theorem get?_put (h : store.HasRoom url) : (store.put now url p).responseCache.get? k =
    if k = url then some ⟨now + config.ttlSeconds, p⟩ else store.responseCache.get? k := by
  show (Dict.compact _ config.maxEntries).get? k = _
  rw [Dict.compact_of_size_le (Dict.size_pop_set_le h store.size_le), Dict.get?_pop_set]

end ResponseCacheStore

/-! ### Stores that share a Redis -/

/-- A value of Redis and the time to which it is kept. Every value is the text of a `dict` that some
store dumped, from which `json.loads` reads the same `dict` again. -/
structure RedisValue (P : Type*) where
  payload : P
  expireAt : ℚ

/-- A `get` that awaits Redis. `raw` is what the server answered, once it has executed the `GET`. -/
structure RedisGet (ι P : Type*) where
  store : ι
  url : String
  asked : ℚ
  raw : Option (Option P)
  deriving DecidableEq

/-- A `SETEX` that was sent. -/
structure Setex (P : Type*) where
  key : String
  seconds : ℕ
  payload : P
  deriving DecidableEq

/-- A payload that a call on a store passed or returned. -/
structure Transfer (ι P : Type*) where
  time : ℚ
  store : ι
  url : String
  payload : P
  deriving DecidableEq

variable {ι P : Type*}

/-- The stores and their Redis. `sets` records the calls of `set`, `returns` what `get` returned. -/
structure CacheSystem (config : ι → CacheConfig) (P : Type*) where
  stores : (i : ι) → ResponseCacheStore (config i) P
  redis : String → Option (RedisValue P)
  gets : List (RedisGet ι P)
  setexes : List (Setex P)
  sets : List (Transfer ι P)
  returns : List (Transfer ι P)

inductive CacheAct (ι P : Type*)
  | get (i : ι) (url : String)
  | execGet (n : ℕ)
  | reply (n : ℕ)
  | lose (n : ℕ)
  | set (i : ι) (url : String) (payload : P)
  | execSetex (n : ℕ)

namespace CacheSystem

variable {config : ι → CacheConfig}

def init (config : ι → CacheConfig) : CacheSystem config P :=
  ⟨fun _ => .init, fun _ => none, [], [], [], []⟩

/-- What `GET` answers. -/
def redisGet (now : ℚ) (key : String) (s : CacheSystem config P) : Option P :=
  ((s.redis key).filter fun v => now < v.expireAt).map RedisValue.payload

variable [DecidableEq ι]

/-- `get`, up to its return or the `GET` that it sends. -/
def get (now : ℚ) (i : ι) (url : String) (s : CacheSystem config P) : CacheSystem config P :=
  if (config i).ttlSeconds ≤ 0 then s
  else
    match (s.stores i).lookup now url with
    | (some p, store) => { s with
        stores := Function.update s.stores i store
        returns := s.returns ++ [⟨now, i, url, p⟩] }
    | (none, store) => { s with
        stores := Function.update s.stores i store
        gets := if (config i).redisClient then s.gets ++ [⟨i, url, now, none⟩] else s.gets }

/-- The end of the `get` that is `gets[n]`, on what Redis has answered. -/
def reply (now : ℚ) (n : ℕ) (i : ι) (url : String) (raw : Option P) (s : CacheSystem config P) :
    CacheSystem config P :=
  match raw with
  | none => { s with gets := s.gets.eraseIdx n }
  | some p => { s with
      gets := s.gets.eraseIdx n
      stores := Function.update s.stores i ((s.stores i).refill now url p)
      returns := s.returns ++ [⟨now, i, url, p⟩] }

/-- `set`, up to the `SETEX` that it sends. -/
def set (sha256 : String → String) (now : ℚ) (i : ι) (url : String) (payload : P)
    (s : CacheSystem config P) : CacheSystem config P :=
  if (config i).ttlSeconds ≤ 0 then { s with sets := s.sets ++ [⟨now, i, url, payload⟩] }
  else { s with
    sets := s.sets ++ [⟨now, i, url, payload⟩]
    stores := Function.update s.stores i ((s.stores i).put now url payload)
    setexes :=
      if (config i).redisClient then
        s.setexes ++ [⟨(config i).cacheKey sha256 url, (config i).setexSeconds, payload⟩]
      else s.setexes }

def step (sha256 : String → String) (s : CacheSystem config P) (now : ℚ) :
    CacheAct ι P → Option (CacheSystem config P)
  | .get i url => some (s.get now i url)
  | .execGet n =>
    match s.gets[n]? with
    | some ⟨i, url, asked, none⟩ =>
      let raw := s.redisGet now ((config i).cacheKey sha256 url)
      some { s with gets := s.gets.set n ⟨i, url, asked, some raw⟩ }
    | _ => none
  | .reply n =>
    match s.gets[n]? with
    | some ⟨i, url, asked, some raw⟩ =>
      -- `wait_for` has not timed out
      if now ≤ asked + (config i).redisTimeoutSeconds then some (s.reply now n i url raw) else none
    | _ => none
  | .lose n => if n < s.gets.length then some { s with gets := s.gets.eraseIdx n } else none
  | .set i url payload => some (s.set sha256 now i url payload)
  | .execSetex n =>
    match s.setexes[n]? with
    | some ⟨key, seconds, payload⟩ => some { s with
        redis := Function.update s.redis key (some ⟨payload, now + seconds⟩)
        setexes := s.setexes.eraseIdx n }
    | none => none

/-- The steps of stores that share a Redis, each at the time that its label gives. -/
def run (config : ι → CacheConfig) (sha256 : String → String) :
    Clocked ℚ (CacheSystem config P) → Stamped ℚ (CacheAct ι P) →
      Option (Clocked ℚ (CacheSystem config P)) :=
  clocked (step sha256)

/-! ### What a step does -/

section Steps

variable {sha256 : String → String} {now : ℚ} {s s' : CacheSystem config P} {a : CacheAct ι P}
  {i j : ι} {url k : String} {payload p : P} {entry : CacheEntry P}

/-- What a step does, by the branch that it takes. -/
inductive Fires (sha256 : String → String) (now : ℚ) (s : CacheSystem config P) :
    CacheAct ι P → CacheSystem config P → Prop
  | disabled {i : ι} {url : String} (httl : (config i).ttlSeconds ≤ 0) :
      Fires sha256 now s (.get i url) s
  | hit {i : ι} {url : String} {p : P} (httl : 0 < (config i).ttlSeconds)
      (hp : ((s.stores i).lookup now url).1 = some p) :
      Fires sha256 now s (.get i url) { s with
        stores := Function.update s.stores i ((s.stores i).lookup now url).2
        returns := s.returns ++ [⟨now, i, url, p⟩] }
  | miss {i : ι} {url : String} (httl : 0 < (config i).ttlSeconds) {gets : List (RedisGet ι P)}
      (hgets : gets = s.gets ∨ gets = s.gets ++ [⟨i, url, now, none⟩]) :
      Fires sha256 now s (.get i url) { s with
        stores := Function.update s.stores i ((s.stores i).lookup now url).2
        gets := gets }
  | execGet {n : ℕ} {i : ι} {url : String} {asked : ℚ}
      (hn : s.gets[n]? = some ⟨i, url, asked, none⟩) (raw : Option P) :
      Fires sha256 now s (.execGet n) { s with gets := s.gets.set n ⟨i, url, asked, some raw⟩ }
  | replyNone {n : ℕ} : Fires sha256 now s (.reply n) { s with gets := s.gets.eraseIdx n }
  | replyHit {n : ℕ} {i : ι} {url : String} {asked : ℚ} {p : P}
      (hn : s.gets[n]? = some ⟨i, url, asked, some (some p)⟩) :
      Fires sha256 now s (.reply n) { s with
        gets := s.gets.eraseIdx n
        stores := Function.update s.stores i ((s.stores i).refill now url p)
        returns := s.returns ++ [⟨now, i, url, p⟩] }
  | lose {n : ℕ} : Fires sha256 now s (.lose n) { s with gets := s.gets.eraseIdx n }
  | ignored {i : ι} {url : String} {p : P} :
      Fires sha256 now s (.set i url p) { s with sets := s.sets ++ [⟨now, i, url, p⟩] }
  | set {i : ι} {url : String} {p : P} {setexes : List (Setex P)} :
      Fires sha256 now s (.set i url p) { s with
        sets := s.sets ++ [⟨now, i, url, p⟩]
        stores := Function.update s.stores i ((s.stores i).put now url p)
        setexes := setexes }
  | execSetex {n : ℕ} {redis : String → Option (RedisValue P)} {setexes : List (Setex P)} :
      Fires sha256 now s (.execSetex n) { s with redis := redis, setexes := setexes }

theorem get_of_hit (httl : 0 < (config i).ttlSeconds)
    (hp : ((s.stores i).lookup now url).1 = some p) : s.get now i url = { s with
      stores := Function.update s.stores i ((s.stores i).lookup now url).2
      returns := s.returns ++ [⟨now, i, url, p⟩] } := by
  rw [get, if_neg (not_le.mpr httl)]
  split
  · rename_i q store hq
    rw [hq] at hp ⊢
    rw [Option.some.inj hp]
  · rename_i store hq
    rw [hq] at hp
    cases hp

theorem fires_get : Fires sha256 now s (.get i url) (s.get now i url) := by
  by_cases httl : (config i).ttlSeconds ≤ 0
  · rw [get, if_pos httl]
    exact .disabled httl
  · have hpos := not_le.mp httl
    cases hp : ((s.stores i).lookup now url).1 with
    | some p =>
      rw [get_of_hit hpos hp]
      exact .hit hpos hp
    | none =>
      rw [get, if_neg httl]
      split
      · rename_i hq
        rw [hq] at hp
        cases hp
      · rename_i store hq
        obtain rfl : ((s.stores i).lookup now url).2 = store := by rw [hq]
        exact .miss hpos (by split <;> simp)

theorem fires_of_step (h : step sha256 s now a = some s') : Fires sha256 now s a s' := by
  cases a with
  | get i url =>
    cases h
    exact fires_get
  | execGet n =>
    simp only [step] at h
    split at h
    · rename_i hn
      cases h
      exact .execGet hn _
    · cases h
  | reply n =>
    simp only [step] at h
    split at h
    · rename_i i url asked raw hn
      split at h
      · cases h
        cases raw with
        | none => exact .replyNone
        | some p => exact .replyHit hn
      · cases h
    · cases h
  | lose n =>
    simp only [step] at h
    split at h
    · cases h
      exact .lose
    · cases h
  | set i url p =>
    simp only [step, CacheSystem.set] at h
    split at h
    · cases h
      exact .ignored
    · cases h
      exact .set
  | execSetex n =>
    simp only [step] at h
    split at h
    · cases h
      exact .execSetex
    · cases h

theorem get?_update {store : ResponseCacheStore (config i) P}
    (h : (Function.update s.stores i store j).responseCache.get? k = some entry) :
    (s.stores j).responseCache.get? k = some entry ∨
      ∃ he : j = i, (he ▸ store).responseCache.get? k = some entry := by
  by_cases hj : j = i
  · subst hj
    rw [Function.update_self] at h
    exact .inr ⟨rfl, h⟩
  · rw [Function.update_of_ne hj] at h
    exact .inl h

/-- Where an entry of a memory comes from: the state before, or a `set` or a reply of Redis, whose
TTL begins with the step. -/
theorem entry_of_step (h : step sha256 s now a = some s')
    (he : (s'.stores j).responseCache.get? k = some entry) :
    (s.stores j).responseCache.get? k = some entry ∨
      entry.expireAt = now + (config j).ttlSeconds ∧ (a = .set j k entry.payload ∨
        ∃ n asked, a = .reply n ∧ s.gets[n]? = some ⟨j, k, asked, some (some entry.payload)⟩) := by
  cases fires_of_step h with
  | disabled _ | execGet _ _ | replyNone | lose | ignored | execSetex => exact .inl he
  | hit httl _ | miss httl _ =>
    rcases get?_update he with he | ⟨rfl, he⟩
    · exact .inl he
    · exact .inl (ResponseCacheStore.get?_lookup.mp he).1
  | replyHit hn =>
    rcases get?_update he with he | ⟨rfl, he⟩
    · exact .inl he
    · rcases ResponseCacheStore.get?_of_refill he with ⟨rfl, rfl⟩ | ⟨-, he⟩
      · exact .inr ⟨rfl, .inr ⟨_, _, rfl, hn⟩⟩
      · exact .inl he
  | set =>
    rcases get?_update he with he | ⟨rfl, he⟩
    · exact .inl he
    · rcases ResponseCacheStore.get?_of_put he with ⟨rfl, rfl⟩ | ⟨-, he⟩
      · exact .inr ⟨rfl, .inl rfl⟩
      · exact .inl he

/-- What a step returns comes from the memory or from Redis. -/
theorem return_of_step (h : step sha256 s now a = some s') {r : Transfer ι P}
    (hr : r ∈ s'.returns) : r ∈ s.returns ∨ r.time = now ∧
      ((∃ entry, (s.stores r.store).responseCache.get? r.url = some entry ∧
          now < entry.expireAt ∧ entry.payload = r.payload) ∨
        ∃ n asked, a = .reply n ∧
          s.gets[n]? = some ⟨r.store, r.url, asked, some (some r.payload)⟩) := by
  cases fires_of_step h with
  | disabled _ | miss _ _ | execGet _ _ | replyNone | lose | ignored | set | execSetex =>
    exact .inl hr
  | hit httl hp =>
    rcases List.mem_append.mp hr with hr | hr
    · exact .inl hr
    · rw [List.mem_singleton.mp hr]
      exact .inr ⟨rfl, .inl (ResponseCacheStore.lookup_eq_some.mp hp)⟩
  | replyHit hn =>
    rcases List.mem_append.mp hr with hr | hr
    · exact .inl hr
    · rw [List.mem_singleton.mp hr]
      exact .inr ⟨rfl, .inr ⟨_, _, rfl, hn⟩⟩

/-- Only a store with a TTL awaits Redis. -/
theorem get_of_step (h : step sha256 s now a = some s') {g : RedisGet ι P} (hg : g ∈ s'.gets) :
    0 < (config g.store).ttlSeconds ∨ ∃ g' ∈ s.gets, g'.store = g.store := by
  cases fires_of_step h with
  | disabled _ | hit _ _ | ignored | set | execSetex => exact .inr ⟨g, hg, rfl⟩
  | miss httl hgets =>
    rcases hgets with rfl | rfl
    · exact .inr ⟨g, hg, rfl⟩
    · rcases List.mem_append.mp hg with hg | hg
      · exact .inr ⟨g, hg, rfl⟩
      · rw [List.mem_singleton.mp hg]
        exact .inl httl
  | execGet hn raw =>
    rcases List.mem_or_eq_of_mem_set hg with hg | rfl
    · exact .inr ⟨g, hg, rfl⟩
    · exact .inr ⟨_, List.mem_of_getElem? hn, rfl⟩
  | replyNone | replyHit _ | lose => exact .inr ⟨g, List.mem_of_mem_eraseIdx hg, rfl⟩

/-- A step records a call of `set` at its own time, and forgets none. -/
theorem sets_of_step (h : step sha256 s now a = some s') :
    s'.sets = s.sets ∨ ∃ i url p, a = .set i url p ∧ s'.sets = s.sets ++ [⟨now, i, url, p⟩] := by
  cases fires_of_step h with
  | disabled _ | hit _ _ | miss _ _ | execGet _ _ | replyNone | replyHit _ | lose | execSetex =>
    exact .inl rfl
  | ignored | set => exact .inr ⟨_, _, _, rfl, rfl⟩

end Steps

/-- `payload` was passed to `set` at `time` for the url, by a store of the source of store `i`. -/
def Passed (s : CacheSystem config P) (i : ι) (url : String) (payload : P) (time : ℚ) : Prop :=
  ∃ c ∈ s.sets, (config c.store).SameSource (config i) ∧ c.url = url ∧ c.payload = payload ∧
    c.time = time

/-- Whatever `get` returned was passed to `set`, less than the TTL of the store before. -/
def Fresh (s : CacheSystem config P) : Prop :=
  ∀ r ∈ s.returns, ∃ time, s.Passed r.store r.url r.payload time ∧
    r.time - (config r.store).ttlSeconds < time ∧ time ≤ r.time

/-- A payload that a reply of Redis brings was passed to `set` for the url at the same time. -/
def Unaged (s : Clocked ℚ (CacheSystem config P)) (a : Stamped ℚ (CacheAct ι P)) : Prop :=
  ∀ n i url asked p, a.act = .reply n → s.inner.gets[n]? = some ⟨i, url, asked, some (some p)⟩ →
    s.inner.Passed i url p a.now

section Runs

variable {sha256 : String → String} {s t : Clocked ℚ (CacheSystem config P)}
  {a : Stamped ℚ (CacheAct ι P)} {as : List (Stamped ℚ (CacheAct ι P))}
  {i : ι} {url : String} {p : P} {time start : ℚ}

/-- The calls of `set` lie in the past, and only a store with a TTL awaits Redis. -/
structure Timely (s : Clocked ℚ (CacheSystem config P)) : Prop where
  past : ∀ c ∈ s.inner.sets, c.time ≤ s.clock
  enabled : ∀ g ∈ s.inner.gets, 0 < (config g.store).ttlSeconds

/-- Every entry of a memory expires within a TTL of the call that passed its payload, and what was
returned was fresh. -/
structure Honest (s : Clocked ℚ (CacheSystem config P)) : Prop where
  entries : ∀ i url entry, (s.inner.stores i).responseCache.get? url = some entry →
    ∃ time, s.inner.Passed i url entry.payload time ∧
      entry.expireAt ≤ time + (config i).ttlSeconds
  fresh : s.inner.Fresh

theorem Passed.mono (hstep : run config sha256 s a = some t) (h : s.inner.Passed i url p time) :
    t.inner.Passed i url p time := by
  obtain ⟨c, hc, hpass⟩ := h
  refine ⟨c, ?_, hpass⟩
  rcases sets_of_step (clocked_eq_some.mp hstep).2.2 with hsets | ⟨_, _, _, -, hsets⟩
  · rwa [hsets]
  · rw [hsets]
    exact List.mem_append_left _ hc

theorem passed_of_set (hstep : run config sha256 s a = some t) (ha : a.act = .set i url p) :
    t.inner.Passed i url p a.now := by
  obtain ⟨-, -, hs⟩ := clocked_eq_some.mp hstep
  rw [ha] at hs
  have hmem : ⟨a.now, i, url, p⟩ ∈ t.inner.sets := by
    generalize t.inner = s' at hs ⊢
    cases fires_of_step hs <;> simp
  exact ⟨_, hmem, ⟨rfl, rfl⟩, rfl, rfl, rfl⟩

omit [DecidableEq ι] in
theorem timely_init : Timely (⟨start, init config⟩ : Clocked ℚ (CacheSystem config P)) :=
  ⟨(fun _ h => nomatch h), fun _ h => nomatch h⟩

omit [DecidableEq ι] in
theorem honest_init : Honest (⟨start, init config⟩ : Clocked ℚ (CacheSystem config P)) :=
  ⟨(fun _ _ _ h => nomatch h), fun _ h => nomatch h⟩

theorem Timely.step (hs : Timely s) (hstep : run config sha256 s a = some t) : Timely t := by
  obtain ⟨hle, hclock, hinner⟩ := clocked_eq_some.mp hstep
  constructor
  · intro c hc
    rw [hclock]
    rcases sets_of_step hinner with hsets | ⟨_, _, _, -, hsets⟩
    · rw [hsets] at hc
      exact (hs.past c hc).trans hle
    · rw [hsets] at hc
      rcases List.mem_append.mp hc with hc | hc
      · exact (hs.past c hc).trans hle
      · rw [List.mem_singleton.mp hc]
  · intro g hg
    rcases get_of_step hinner hg with hpos | ⟨g', hg', he⟩
    · exact hpos
    · rw [← he]
      exact hs.enabled g' hg'

theorem reachable_timely (h : exec (run config sha256) ⟨start, init config⟩ as = some s) :
    Timely s :=
  exec_invariant Timely timely_init (fun _ _ _ hs hstep => hs.step hstep) h

omit [DecidableEq ι] in
theorem Timely.passed_le (hs : Timely s) (h : s.inner.Passed i url p time) : time ≤ s.clock := by
  obtain ⟨c, hc, -, -, -, rfl⟩ := h
  exact hs.past c hc

theorem Honest.step (hs : Honest s) (htime : Timely s) (hok : Unaged s a)
    (hstep : run config sha256 s a = some t) : Honest t := by
  obtain ⟨hle, -, hinner⟩ := clocked_eq_some.mp hstep
  constructor
  · intro i url entry he
    rcases entry_of_step hinner he with he | ⟨hexp, hset | ⟨n, asked, hreply, hn⟩⟩
    · obtain ⟨time, hpass, hbound⟩ := hs.entries i url entry he
      exact ⟨time, hpass.mono hstep, hbound⟩
    · exact ⟨a.now, passed_of_set hstep hset, hexp.le⟩
    · exact ⟨a.now, (hok n i url asked _ hreply hn).mono hstep, hexp.le⟩
  · intro r hr
    rcases return_of_step hinner hr with hr | ⟨hnow, ⟨entry, he, hlt, hp⟩ | ⟨n, asked, ha, hn⟩⟩
    · obtain ⟨time, hpass, hbound⟩ := hs.fresh r hr
      exact ⟨time, hpass.mono hstep, hbound⟩
    · obtain ⟨time, hpass, hbound⟩ := hs.entries _ _ _ he
      have hpast := htime.passed_le hpass
      rw [hp] at hpass
      exact ⟨time, hpass.mono hstep, by linarith, by linarith⟩
    · have hpos := htime.enabled _ (List.mem_of_getElem? hn)
      exact ⟨a.now, (hok n _ _ asked _ ha hn).mono hstep, by linarith, hnow.ge⟩

/-- In a run in which Redis brings no payload that was passed earlier, `get` returns no payload that
was passed a TTL before or earlier. -/
theorem returns_fresh (hmeets : Meets (run config sha256) Unaged ⟨start, init config⟩ as)
    (h : exec (run config sha256) ⟨start, init config⟩ as = some s) :
    s.inner.Fresh := by
  have hs : Honest s := exec_induction (fun _ s => Honest s) honest_init
    (fun _ _ _ _ hrun hs hok hstep => hs.step (reachable_timely hrun) hok hstep) hmeets h
  exact hs.fresh

/-! ### What an aged payload leads to -/

/-- A time before `r` that no time of the list comes between. -/
theorem exists_last_before (times : List ℚ) {low r : ℚ} (h : low < r) :
    ∃ m, low ≤ m ∧ m < r ∧ ∀ x ∈ times, x < r → x ≤ m := by
  induction times with
  | nil => exact ⟨low, le_rfl, h, by simp⟩
  | cons y times ih =>
    obtain ⟨m, hlow, hr, hall⟩ := ih
    by_cases hy : y < r
    · refine ⟨max m y, hlow.trans (le_max_left m y), max_lt hr hy, ?_⟩
      intro x hx hxr
      rcases List.mem_cons.mp hx with rfl | hx
      · exact le_max_right m x
      · exact (hall x hx hxr).trans (le_max_left m y)
    · refine ⟨m, hlow, hr, ?_⟩
      intro x hx hxr
      rcases List.mem_cons.mp hx with rfl | hx
      · exact absurd hxr hy
      · exact hall x hx hxr

/-- The condition is exact: after a reply that does not meet it, the store that received it still
returns the payload when every call that passed it lies a TTL back. -/
theorem stale_of_aged (h : exec (run config sha256) ⟨start, init config⟩ as = some s)
    (hnot : ¬Unaged s a) (hstep : run config sha256 s a = some t) :
    ∃ later i url u, run config sha256 t ⟨later, .get i url⟩ = some u ∧ ¬u.inner.Fresh := by
  simp only [Unaged, not_forall] at hnot
  obtain ⟨n, i, url, asked, p, ha, hn, haged⟩ := hnot
  have htime := reachable_timely h
  have hpos : 0 < (config i).ttlSeconds := htime.enabled _ (List.mem_of_getElem? hn)
  obtain ⟨hle, hclock, hinner⟩ := clocked_eq_some.mp hstep
  rw [ha] at hinner
  have hafter : t.inner.sets = s.inner.sets ∧
      (t.inner.stores i).responseCache.get? url =
        some ⟨a.now + (config i).ttlSeconds, p⟩ := by
    simp only [CacheSystem.step, hn] at hinner
    split at hinner
    · rw [← Option.some.inj hinner]
      simp [reply, ResponseCacheStore.get?_refill_self]
    · cases hinner
  obtain ⟨hsets, hentry⟩ := hafter
  obtain ⟨m, hlow, hlt, hlast⟩ := exists_last_before (s.inner.sets.map Transfer.time)
    (show a.now - (config i).ttlSeconds < a.now by linarith)
  have hhit : ((t.inner.stores i).lookup (m + (config i).ttlSeconds) url).1 = some p :=
    ResponseCacheStore.lookup_eq_some.mpr ⟨_, hentry, by simpa using hlt, rfl⟩
  refine ⟨m + (config i).ttlSeconds, i, url, ⟨_, _⟩,
    clocked_eq_some.mpr ⟨by linarith, rfl, congrArg some (get_of_hit hpos hhit)⟩, ?_⟩
  intro hfresh
  obtain ⟨time, ⟨c, hc, hsame, hurl, hpay, rfl⟩, hbound, -⟩ :=
    hfresh ⟨m + (config i).ttlSeconds, i, url, p⟩ (List.mem_append_right _ List.mem_cons_self)
  have hmem : c ∈ s.inner.sets := hsets ▸ hc
  have hpass : s.inner.Passed i url p c.time := ⟨c, hmem, hsame, hurl, hpay, rfl⟩
  have hne : c.time ≠ a.now := fun he => haged (he ▸ hpass)
  have hbefore : c.time < a.now := lt_of_le_of_ne ((htime.passed_le hpass).trans hle) hne
  have hold : c.time ≤ m := hlast c.time (List.mem_map.mpr ⟨c, hmem, rfl⟩) hbefore
  have hyoung : m + (config i).ttlSeconds - (config i).ttlSeconds < c.time := hbound
  linarith

end Runs

end CacheSystem

/-! ### Two processes with one Redis -/

section Example

open CacheSystem

/-- The store of a process, with the settings' defaults. -/
def defaultCache : CacheConfig where
  chainId := "bsc"
  provider := "geckoterminal"
  cacheNamespace := "cm:ingestion:v1"
  ttlSeconds := 3
  maxEntries := 2000
  redisTimeoutSeconds := 1 / 5
  redisClient := true
  ttlSeconds_nonneg := by norm_num
  maxEntries_pos := by norm_num

def poolsUrl : String :=
  "https://api.geckoterminal.com/api/v2/search/pools?query=CAKE&network=bsc"

/-- SHA-256 of the one text that is hashed below, `geckoterminal:bsc:` and the url. -/
def poolsDigest (_ : String) : String :=
  "265d89ac9a618d63d6e39ced67c7440baad9bf3ed815e1b82e8c3ca8050be2e8"

/-- The first process sets a payload, the second finds it in Redis after 2 s, and still has it in
its memory 2 s later. -/
def refilledRun : List (Stamped ℚ (CacheAct Bool ℕ)) :=
  [⟨0, .set false poolsUrl 7⟩, ⟨0, .execSetex 0⟩, ⟨2, .get true poolsUrl⟩, ⟨2, .execGet 0⟩,
    ⟨2, .reply 0⟩, ⟨4, .get true poolsUrl⟩]

/-- With a TTL of 3 s, a payload is returned 4 s after its only `set`. -/
theorem refilled_payload_stale :
    ¬ ∀ (as : List (Stamped ℚ (CacheAct Bool ℕ))) (s : Clocked ℚ (CacheSystem _ ℕ)),
      exec (run (fun _ => defaultCache) poolsDigest) ⟨0, init _⟩ as = some s →
        s.inner.Fresh := by
  intro h
  have hrun : (exec (run (fun _ => defaultCache) poolsDigest) ⟨0, init _⟩ refilledRun).map
      (fun s => (s.inner.sets, s.inner.returns)) =
        some ([⟨0, false, poolsUrl, 7⟩], [⟨2, true, poolsUrl, 7⟩, ⟨4, true, poolsUrl, 7⟩]) := by
    decide +kernel
  obtain ⟨s, hs, he⟩ := Option.map_eq_some_iff.mp hrun
  obtain ⟨hsets, hreturns⟩ := Prod.mk.inj he
  obtain ⟨time, ⟨c, hc, -, -, -, rfl⟩, hbound, -⟩ := h refilledRun s hs ⟨4, true, poolsUrl, 7⟩
    (by rw [hreturns]; simp)
  rw [hsets, List.mem_singleton] at hc
  rw [hc] at hbound
  have : (4 : ℚ) - 3 < 0 := hbound
  norm_num at this

/-- The second process finds the payload in Redis as soon as the first has set it. -/
def sharedAtOnce : List (Stamped ℚ (CacheAct Bool ℕ)) :=
  [⟨0, .set false poolsUrl 7⟩, ⟨0, .execSetex 0⟩, ⟨0, .get true poolsUrl⟩, ⟨0, .execGet 0⟩]

/-- It is returned from Redis, and then from the memory. -/
def returnedTwice : List (Stamped ℚ (CacheAct Bool ℕ)) := [⟨0, .reply 0⟩, ⟨2, .get true poolsUrl⟩]

theorem meets_sharedAtOnce :
    Meets (run (fun _ => defaultCache) poolsDigest) Unaged ⟨0, init _⟩
      (sharedAtOnce ++ returnedTwice) := by
  refine meets_append.mpr ⟨meets_of_forall_mem ?_, fun s hs => ⟨?_, fun s' _ => ?_⟩⟩
  · intro a ha s n i url asked p hact
    simp only [sharedAtOnce, List.mem_cons, List.not_mem_nil, or_false] at ha
    rcases ha with rfl | rfl | rfl | rfl <;> cases hact
  · have hrun : (exec (run (fun _ => defaultCache) poolsDigest) ⟨0, init _⟩ sharedAtOnce).map
        (fun s => (s.inner.sets, s.inner.gets)) =
          some ([⟨0, false, poolsUrl, 7⟩], [⟨true, poolsUrl, 0, some (some 7)⟩]) := by
      decide +kernel
    rw [hs] at hrun
    obtain ⟨hsets, hgets⟩ := Prod.mk.inj (Option.some.inj hrun)
    intro n i url asked p hact hn
    cases hact
    rw [hgets] at hn
    cases hn
    exact ⟨⟨0, false, poolsUrl, 7⟩, by rw [hsets]; simp, ⟨rfl, rfl⟩, rfl, rfl, rfl⟩
  · refine meets_of_forall_mem ?_
    intro a ha s n i url asked p hact
    rw [List.mem_singleton.mp ha] at hact
    cases hact

theorem returns_fresh_sharedAtOnce :
    ∃ s, exec (run (fun _ => defaultCache) poolsDigest) ⟨0, init _⟩
      (sharedAtOnce ++ returnedTwice) = some s ∧ s.inner.returns.length = 2 ∧ s.inner.Fresh := by
  have hrun : (exec (run (fun _ => defaultCache) poolsDigest) ⟨0, init _⟩
      (sharedAtOnce ++ returnedTwice)).map (fun s => s.inner.returns.length) = some 2 := by
    decide +kernel
  obtain ⟨s, hs, hlen⟩ := Option.map_eq_some_iff.mp hrun
  exact ⟨s, hs, hlen, returns_fresh meets_sharedAtOnce hs⟩

end Example

end ChainMonitor.Ingestion
