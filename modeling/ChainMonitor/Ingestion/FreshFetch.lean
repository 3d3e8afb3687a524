import ChainMonitor.Ingestion.CacheStore
import ChainMonitor.Ingestion.SingleFlight

/-! `ResilientHttpClient.get_json` of `ingestion/resilience/resilient_http_client.py` with its
cache: the callers of `SingleFlight`, each of which looks its url up in the store of the client, and
in Redis, before it joins the group. What Redis holds is left open, for other clients write to it.
-/

namespace ChainMonitor.Ingestion

open ProofKit

/-- A request sequence upstream has started, or has succeeded and is about to be stored. -/
inductive FetchEvent
  | started (time : ℚ) (url : String)
  | succeeded (time : ℚ) (url : String)
  deriving DecidableEq

/-- The callers of one client and its cache. `asked` gives the time at which each caller has looked
its url up, `storing` the payload of each leader that awaits the `SETEX` of `cache.set`, and
`events` what happened upstream. -/
structure FetchClient (config : CacheConfig) (P ε : Type*) where
  store : ResponseCacheStore config P
  flight : SingleFlight.System P ε
  asked : List ℚ
  storing : ℕ → Option P
  events : List FetchEvent

/-- `requested i r` is the end of the requests of leader `i`, before `cache.set` where they have
succeeded. -/
inductive FetchAct (P ε : Type*)
  | getJson (url : String)
  | redisHit (i : ℕ) (payload : P)
  | redisMiss (i : ℕ)
  | requested (i : ℕ) (r : Except ε (Option P))
  | stored (i : ℕ)
  | wake (i : ℕ)
  | cancel (i : ℕ)

namespace FetchClient

variable {config : CacheConfig} {P ε : Type*}

def init : FetchClient config P ε := ⟨.init, SingleFlight.init, [], fun _ => none, []⟩

/-- A step of the callers alone. -/
def advance (a : SingleFlight.Act P ε) (s : FetchClient config P ε) :
    Option (FetchClient config P ε) :=
  (SingleFlight.step s.flight a).map fun flight => { s with flight := flight }

/-- The events after a caller of `url` has missed the cache: a leader starts its requests. -/
def joined (now : ℚ) (url : String) (s : FetchClient config P ε) : List FetchEvent :=
  if (s.flight.group.acquire url).1.2 then s.events ++ [.started now url] else s.events

/-- The cache has nothing for caller `i`. -/
def miss (now : ℚ) (i : ℕ) (s : FetchClient config P ε) : Option (FetchClient config P ε) :=
  match s.flight.callers[i]? with
  | some c => { s with events := s.joined now c.url }.advance (.missed i)
  | none => none

/-- A new caller, up to the `GET` that it sends to Redis. -/
def getJson (now : ℚ) (url : String) (s : FetchClient config P ε) :
    Option (FetchClient config P ε) :=
  let i := s.flight.callers.length
  ({ s with asked := s.asked ++ [now] }.advance (.getJson url)).bind fun s =>
    if config.ttlSeconds ≤ 0 then s.miss now i
    else
      match s.store.lookup now url with
      | (some p, store) => { s with store := store }.advance (.cached i p)
      | (none, store) =>
        if config.redisClient then some { s with store := store }
        else { s with store := store }.miss now i

/-- The requests of leader `i`, which is `c`, have brought `p`. -/
def succeed (now : ℚ) (i : ℕ) (c : SingleFlight.Caller P ε) (p : P)
    (s : FetchClient config P ε) : Option (FetchClient config P ε) :=
  let s := { s with events := s.events ++ [FetchEvent.succeeded now c.url] }
  if config.ttlSeconds ≤ 0 then s.advance (.answered i (.ok (some p)))
  else
    let s := { s with store := s.store.put now c.url p }
    if config.redisClient then some { s with storing := Function.update s.storing i (some p) }
    else s.advance (.answered i (.ok (some p)))

def step (s : FetchClient config P ε) (now : ℚ) :
    FetchAct P ε → Option (FetchClient config P ε)
  | .getJson url => s.getJson now url
  | .redisHit i p =>
    match s.flight.callers[i]?, s.asked[i]? with
    | some c, some asked =>
      -- `wait_for` has not timed out
      if now ≤ asked + config.redisTimeoutSeconds then
        { s with store := s.store.refill now c.url p }.advance (.cached i p)
      else none
    | _, _ => none
  | .redisMiss i => s.miss now i
  | .requested i r =>
    match s.flight.callers[i]?, s.storing i with
    | some c, none =>
      match c.phase, r with
      | .leading _, .ok (some p) => s.succeed now i c p
      | .leading _, r => s.advance (.answered i r)
      | _, _ => none
    | _, _ => none
  | .stored i =>
    match s.storing i with
    | some p => { s with storing := Function.update s.storing i none }.advance
        (.answered i (.ok (some p)))
    | none => none
  | .wake i => s.advance (.wake i)
  | .cancel i => { s with storing := Function.update s.storing i none }.advance (.cancel i)

/-- The steps of a client, each at the time that its label gives. -/
def run (config : CacheConfig) :
    Clocked ℚ (FetchClient config P ε) → Stamped ℚ (FetchAct P ε) →
      Option (Clocked ℚ (FetchClient config P ε)) :=
  clocked step

/-! ### What a step does -/

section Steps

variable {now : ℚ} {s t : FetchClient config P ε} {a : FetchAct P ε} {url : String} {i j : ℕ}
  {c d : SingleFlight.Caller P ε} {p : P}

/-- What a step does, by the branch that it takes. `flight` follows the steps of `SingleFlight`. -/
inductive Fires (now : ℚ) (s : FetchClient config P ε) :
    FetchAct P ε → FetchClient config P ε → Prop
  | hit {url : String} {p : P} {flight : SingleFlight.System P ε}
      (hp : (s.store.lookup now url).1 = some p)
      (hf : exec SingleFlight.step s.flight
        [.getJson url, .cached s.flight.callers.length p] = some flight) :
      Fires now s (.getJson url) { s with
        store := (s.store.lookup now url).2
        flight := flight
        asked := s.asked ++ [now] }
  | await {url : String} {flight : SingleFlight.System P ε} (httl : 0 < config.ttlSeconds)
      (hredis : config.redisClient = true) (hp : (s.store.lookup now url).1 = none)
      (hf : exec SingleFlight.step s.flight [.getJson url] = some flight) :
      Fires now s (.getJson url) { s with
        store := (s.store.lookup now url).2
        flight := flight
        asked := s.asked ++ [now] }
  | missAtOnce {url : String} {store : ResponseCacheStore config P}
      {flight : SingleFlight.System P ε}
      (hp : config.ttlSeconds ≤ 0 ∧ store = s.store ∨ s.store.lookup now url = (none, store))
      (hf : exec SingleFlight.step s.flight
        [.getJson url, .missed s.flight.callers.length] = some flight) :
      Fires now s (.getJson url) { s with
        store := store
        flight := flight
        asked := s.asked ++ [now]
        events := s.joined now url }
  | redisHit {i : ℕ} {p : P} {c : SingleFlight.Caller P ε} {flight : SingleFlight.System P ε}
      (hi : s.flight.callers[i]? = some c)
      (hf : exec SingleFlight.step s.flight [.cached i p] = some flight) :
      Fires now s (.redisHit i p) { s with
        store := s.store.refill now c.url p
        flight := flight }
  | redisMiss {i : ℕ} {c : SingleFlight.Caller P ε} {flight : SingleFlight.System P ε}
      (hi : s.flight.callers[i]? = some c)
      (hf : exec SingleFlight.step s.flight [.missed i] = some flight) :
      Fires now s (.redisMiss i) { s with flight := flight, events := s.joined now c.url }
  | succeeded {i : ℕ} {p : P} {c : SingleFlight.Caller P ε} {bs : List (SingleFlight.Act P ε)}
      {flight : SingleFlight.System P ε} {store : ResponseCacheStore config P}
      {storing : ℕ → Option P} (hi : s.flight.callers[i]? = some c)
      (hp : config.ttlSeconds ≤ 0 ∧ store = s.store ∨ store = s.store.put now c.url p)
      (hbs : bs = [] ∨ bs = [.answered i (.ok (some p))])
      (hf : exec SingleFlight.step s.flight bs = some flight) :
      Fires now s (.requested i (.ok (some p))) { s with
        store := store
        flight := flight
        storing := storing
        events := s.events ++ [.succeeded now c.url] }
  | failed {i : ℕ} {r : Except ε (Option P)} {flight : SingleFlight.System P ε}
      (hr : ∀ p, r ≠ .ok (some p))
      (hf : exec SingleFlight.step s.flight [.answered i r] = some flight) :
      Fires now s (.requested i r) { s with flight := flight }
  | stored {i : ℕ} {p : P} {flight : SingleFlight.System P ε} {storing : ℕ → Option P}
      (hf : exec SingleFlight.step s.flight [.answered i (.ok (some p))] = some flight) :
      Fires now s (.stored i) { s with flight := flight, storing := storing }
  | wake {i : ℕ} {flight : SingleFlight.System P ε}
      (hf : exec SingleFlight.step s.flight [.wake i] = some flight) :
      Fires now s (.wake i) { s with flight := flight }
  | cancel {i : ℕ} {flight : SingleFlight.System P ε} {storing : ℕ → Option P}
      (hf : exec SingleFlight.step s.flight [.cancel i] = some flight) :
      Fires now s (.cancel i) { s with flight := flight, storing := storing }

theorem advance_eq_some {b : SingleFlight.Act P ε} : s.advance b = some t ↔
    ∃ flight, exec SingleFlight.step s.flight [b] = some flight ∧
      { s with flight := flight } = t := by
  simp [advance, exec]

theorem miss_eq_some : s.miss now i = some t ↔
    ∃ c flight, s.flight.callers[i]? = some c ∧
      exec SingleFlight.step s.flight [.missed i] = some flight ∧
      { s with flight := flight, events := s.joined now c.url } = t := by
  unfold miss
  cases hi : s.flight.callers[i]? with
  | none => simp
  | some c => simp [advance_eq_some]

theorem exec_getJson {bs : List (SingleFlight.Act P ε)} {flight : SingleFlight.System P ε}
    (h : exec SingleFlight.step { s.flight with
      callers := s.flight.callers ++ [⟨url, .lookingUp, false⟩] } bs = some flight) :
    exec SingleFlight.step s.flight (.getJson url :: bs) = some flight :=
  exec_cons_eq_some.mpr ⟨_, rfl, h⟩

theorem fires_getJson (h : s.getJson now url = some t) : Fires now s (.getJson url) t := by
  have hmiss : ∀ store, (config.ttlSeconds ≤ 0 ∧ store = s.store ∨
        s.store.lookup now url = (none, store)) →
      miss now s.flight.callers.length { s with
        store := store
        asked := s.asked ++ [now]
        flight := { s.flight with
          callers := s.flight.callers ++ [⟨url, .lookingUp, false⟩] } } = some t →
      Fires now s (.getJson url) t := by
    intro store hp hm
    obtain ⟨c, flight, hi, hf, rfl⟩ := miss_eq_some.mp hm
    simp only [List.getElem?_concat_length, Option.some.injEq] at hi
    subst hi
    exact .missAtOnce hp (exec_getJson hf)
  simp only [getJson, advance, SingleFlight.step, Option.map_some, Option.bind_some] at h
  split at h
  · rename_i httl
    exact hmiss s.store (.inl ⟨httl, rfl⟩) h
  · rename_i httl
    split at h
    · rename_i p store hp
      obtain ⟨flight, hf, rfl⟩ := Option.map_eq_some_iff.mp h
      obtain rfl : (s.store.lookup now url).2 = store := by rw [hp]
      exact .hit (by rw [hp]) (exec_getJson (exec_cons_eq_some.mpr ⟨flight, hf, rfl⟩))
    · rename_i store hp
      split at h
      · rename_i hredis
        cases h
        obtain rfl : (s.store.lookup now url).2 = store := by rw [hp]
        exact .await (not_le.mp httl) hredis (by rw [hp]) rfl
      · exact hmiss store (.inr hp) h

theorem fires_succeed (hi : s.flight.callers[i]? = some c) (h : s.succeed now i c p = some t) :
    Fires now s (.requested i (.ok (some p))) t := by
  unfold succeed at h
  dsimp only at h
  split at h
  · rename_i httl
    obtain ⟨flight, hf, rfl⟩ := advance_eq_some.mp h
    exact .succeeded hi (.inl ⟨httl, rfl⟩) (.inr rfl) hf
  · split at h
    · cases h
      exact .succeeded hi (.inr rfl) (.inl rfl) rfl
    · obtain ⟨flight, hf, rfl⟩ := advance_eq_some.mp h
      exact .succeeded hi (.inr rfl) (.inr rfl) hf

theorem fires_of_step (h : step s now a = some t) : Fires now s a t := by
  cases a with
  | getJson url => exact fires_getJson h
  | redisHit i p =>
    simp only [step] at h
    split at h
    · rename_i c asked hi _
      split at h
      · obtain ⟨flight, hf, rfl⟩ := advance_eq_some.mp h
        exact .redisHit hi hf
      · cases h
    · cases h
  | redisMiss i =>
    obtain ⟨c, flight, hi, hf, rfl⟩ := miss_eq_some.mp h
    exact .redisMiss hi hf
  | requested i r =>
    simp only [step] at h
    split at h
    · rename_i c hi _
      split at h
      · exact fires_succeed hi h
      · rename_i hr
        obtain ⟨flight, hf, rfl⟩ := advance_eq_some.mp h
        exact .failed hr hf
      · cases h
    · cases h
  | stored i =>
    simp only [step] at h
    split at h
    · obtain ⟨flight, hf, rfl⟩ := advance_eq_some.mp h
      exact .stored hf
    · cases h
  | wake i =>
    obtain ⟨flight, hf, rfl⟩ := advance_eq_some.mp h
    exact .wake hf
  | cancel i =>
    obtain ⟨flight, hf, rfl⟩ := advance_eq_some.mp h
    exact .cancel hf

/-- Every step of a client is a step or two of its callers, or none. -/
theorem flight_of_step (h : step s now a = some t) :
    ∃ bs, exec SingleFlight.step s.flight bs = some t.flight := by
  cases fires_of_step h with
  | hit _ hf | await _ _ _ hf | missAtOnce _ hf | redisHit _ hf | redisMiss _ hf
  | succeeded _ _ _ hf | failed _ hf | stored hf | wake hf | cancel hf => exact ⟨_, hf⟩

/-- Caller `j` of the url awaits Redis. -/
def Awaits (s : FetchClient config P ε) (j : ℕ) (url : String) : Prop :=
  ∃ c, s.flight.callers[j]? = some c ∧ c.url = url ∧ c.phase = .lookingUp

section Flights

variable {b : SingleFlight.Act P ε} {flight : SingleFlight.System P ε}

/-- Who looks its url up after one step of the callers awaited Redis before, or is new. -/
theorem awaits_of_exec (hf : exec SingleFlight.step s.flight [b] = some flight)
    (hd : flight.callers[j]? = some d) (hphase : d.phase = .lookingUp) :
    s.Awaits j d.url ∨ b = .getJson d.url := by
  obtain ⟨f, hf, hnil⟩ := exec_cons_eq_some.mp hf
  cases hnil
  rcases SingleFlight.lookingUp_of_step hf hd hphase with ⟨hold, -⟩ | ⟨rfl, -⟩
  · exact .inl ⟨d, hold, rfl, hphase⟩
  · exact .inr rfl

/-- A caller that comes and finds out at once what the cache has for it awaits nothing. -/
theorem awaits_of_exec_getJson
    (hb : (∃ p, b = .cached s.flight.callers.length p) ∨ b = .missed s.flight.callers.length)
    (hf : exec SingleFlight.step s.flight [.getJson url, b] = some flight)
    (hd : flight.callers[j]? = some d) (hphase : d.phase = .lookingUp) : s.Awaits j d.url := by
  obtain ⟨f, hf, hrest⟩ := exec_cons_eq_some.mp hf
  obtain ⟨g, hg, hnil⟩ := exec_cons_eq_some.mp hrest
  cases hnil
  rcases SingleFlight.lookingUp_of_step hg hd hphase with ⟨hold, hcached, hmissed⟩ | ⟨rfl, -⟩
  · rcases SingleFlight.lookingUp_of_step hf hold hphase with ⟨hold, -⟩ | ⟨-, rfl⟩
    · exact ⟨d, hold, rfl, hphase⟩
    · rcases hb with ⟨p, rfl⟩ | rfl
      · exact absurd rfl (hcached p)
      · exact absurd rfl hmissed
  · rcases hb with ⟨p, hb⟩ | hb <;> cases hb

end Flights

/-- Who awaits Redis after a step did so before, or has just missed the memory. -/
theorem awaits_of_step (h : step s now a = some t) (hj : t.Awaits j url) :
    s.Awaits j url ∨ a = .getJson url ∧ 0 < config.ttlSeconds ∧ config.redisClient = true ∧
      (s.store.lookup now url).1 = none := by
  obtain ⟨d, hd, rfl, hphase⟩ := hj
  cases fires_of_step h with
  | hit hp hf => exact .inl (awaits_of_exec_getJson (.inl ⟨_, rfl⟩) hf hd hphase)
  | await httl hredis hp hf =>
    rcases awaits_of_exec hf hd hphase with hold | hnew
    · exact .inl hold
    · cases hnew
      exact .inr ⟨rfl, httl, hredis, hp⟩
  | missAtOnce hp hf => exact .inl (awaits_of_exec_getJson (.inr rfl) hf hd hphase)
  | succeeded hi hp hbs hf =>
    rcases hbs with rfl | rfl
    · cases hf
      exact .inl ⟨d, hd, rfl, hphase⟩
    · exact .inl ((awaits_of_exec hf hd hphase).resolve_right (by simp))
  | redisHit _ hf | redisMiss _ hf | failed _ hf | stored hf | wake hf | cancel hf =>
    exact .inl ((awaits_of_exec hf hd hphase).resolve_right (by simp))

/-- What a step records. -/
theorem events_of_step (h : step s now a = some t) :
    t.events = s.events ∨
    (∃ i p c, a = .requested i (.ok (some p)) ∧ s.flight.callers[i]? = some c ∧
      t.events = s.events ++ [.succeeded now c.url] ∧
      (0 < config.ttlSeconds → t.store = s.store.put now c.url p)) ∨
    ∃ url, t.events = s.events ++ [.started now url] ∧
      (config.ttlSeconds ≤ 0 ∨ (s.store.lookup now url).1 = none ∨ ∃ i, s.Awaits i url) := by
  have hjoined : ∀ url, s.joined now url = s.events ∨
      s.joined now url = s.events ++ [.started now url] := by
    intro url
    unfold joined
    split
    · exact .inr rfl
    · exact .inl rfl
  cases fires_of_step h with
  | hit _ _ | await _ _ _ _ | redisHit _ _ | failed _ _ | stored _ | wake _ | cancel _ =>
    exact .inl rfl
  | succeeded hi hp _ _ =>
    exact .inr (.inl ⟨_, _, _, rfl, hi, rfl,
      fun httl => hp.resolve_left fun hoff => absurd httl (not_lt.mpr hoff.1)⟩)
  | @missAtOnce url _ _ hp _ =>
    refine (hjoined url).imp_right fun hnew => .inr ⟨url, hnew, ?_⟩
    rcases hp with ⟨httl, -⟩ | hp
    · exact .inl httl
    · exact .inr (.inl (by rw [hp]))
  | @redisMiss i c flight hi hf =>
    refine (hjoined c.url).imp_right fun hnew => .inr ⟨c.url, hnew, .inr (.inr ⟨i, c, hi, rfl, ?_⟩)⟩
    obtain ⟨f, hf, -⟩ := exec_cons_eq_some.mp hf
    cases SingleFlight.fires_of_step hf with
    | missed hi' hc =>
      rw [hi] at hi'
      cases hi'
      exact hc

/-- A success that a step has not brought was recorded before. -/
theorem success_of_step (h : step s now a = some t) {x : ℚ}
    (hx : .succeeded x url ∈ t.events) :
    .succeeded x url ∈ s.events ∨ x = now ∧ ∃ i p c, a = .requested i (.ok (some p)) ∧
      s.flight.callers[i]? = some c ∧ url = c.url ∧
      (0 < config.ttlSeconds → t.store = s.store.put now c.url p) := by
  rcases events_of_step h with he | ⟨i, p, c, ha, hi, he, hstore⟩ | ⟨url', he, -⟩ <;> rw [he] at hx
  · exact .inl hx
  · rcases List.mem_append.mp hx with hx | hx
    · exact .inl hx
    · cases List.mem_singleton.mp hx
      exact .inr ⟨rfl, i, p, c, ha, hi, rfl, hstore⟩
  · rcases List.mem_append.mp hx with hx | hx
    · exact .inl hx
    · cases List.mem_singleton.mp hx

/-- What a step assigns to the memory evicts nothing. -/
def HasRoom (a : FetchAct P ε) (s : FetchClient config P ε) : Prop :=
  ∀ i p c, a = .redisHit i p ∨ a = .requested i (.ok (some p)) →
    s.flight.callers[i]? = some c → s.store.HasRoom c.url

/-- An entry that has not expired stays, or gives way to one that begins with the step. -/
theorem entry_of_step (h : step s now a = some t) (hroom : s.HasRoom a) {entry : CacheEntry P}
    (he : s.store.responseCache.get? url = some entry) (hlt : now < entry.expireAt) :
    ∃ entry', t.store.responseCache.get? url = some entry' ∧
      (entry' = entry ∨ entry'.expireAt = now + config.ttlSeconds) := by
  have hlookup : ∀ other,
      (s.store.lookup now other).2.responseCache.get? url = some entry := fun other =>
    ResponseCacheStore.get?_lookup.mpr ⟨he, fun _ => hlt⟩
  cases fires_of_step h with
  | hit _ _ | await _ _ _ _ => exact ⟨entry, hlookup _, .inl rfl⟩
  | @missAtOnce other store _ hp _ =>
    refine ⟨entry, ?_, .inl rfl⟩
    rcases hp with ⟨-, rfl⟩ | hp
    · exact he
    · have hstore := hlookup other
      rw [hp] at hstore
      exact hstore
  | redisHit hi _ =>
    show ∃ entry', (s.store.refill now _ _).responseCache.get? url = some entry' ∧ _
    rw [ResponseCacheStore.get?_refill (hroom _ _ _ (.inl rfl) hi)]
    split
    · exact ⟨_, rfl, .inr rfl⟩
    · exact ⟨entry, he, .inl rfl⟩
  | @succeeded i p c _ _ store _ hi hp _ _ =>
    rcases hp with ⟨-, rfl⟩ | rfl
    · exact ⟨entry, he, .inl rfl⟩
    · show ∃ entry', (s.store.put now _ _).responseCache.get? url = some entry' ∧ _
      rw [ResponseCacheStore.get?_put (hroom _ _ _ (.inr rfl) hi)]
      split
      · exact ⟨_, rfl, .inr rfl⟩
      · exact ⟨entry, he, .inl rfl⟩
  | redisMiss _ _ | failed _ _ | stored _ | wake _ | cancel _ => exact ⟨entry, he, .inl rfl⟩

/-! ### Runs -/

/-- Of the leaders at most one is in flight for each url. -/
def OneInFlight (s : FetchClient config P ε) : Prop :=
  ∀ (i j : ℕ) (c d : SingleFlight.Caller P ε) (h k : ℕ), s.flight.callers[i]? = some c →
    s.flight.callers[j]? = some d → c.phase = .leading h → d.phase = .leading k →
    c.url = d.url → i = j

/-- After a success no request sequence of its url starts within a TTL. -/
def Spaced (ttl : ℚ) (events : List FetchEvent) : Prop :=
  events.Pairwise fun e e' => ∀ x y url, e = .succeeded x url → e' = .started y url → x + ttl ≤ y

theorem Spaced.concat {ttl : ℚ} {events : List FetchEvent} {e : FetchEvent}
    (hs : Spaced ttl events)
    (he : ∀ x y url, .succeeded x url ∈ events → e = .started y url → x + ttl ≤ y) :
    Spaced ttl (events ++ [e]) := by
  refine List.pairwise_append.mpr ⟨hs, List.pairwise_singleton _ _, ?_⟩
  intro e₁ h₁ e₂ h₂ x y url hx hy
  rw [List.mem_singleton.mp h₂] at hy
  exact he x y url (hx ▸ h₁) hy

/-- A step that stores nothing while another caller of the url awaits Redis. -/
def Unraced (s : Clocked ℚ (FetchClient config P ε)) (a : Stamped ℚ (FetchAct P ε)) : Prop :=
  ∀ i p c j, a.act = .requested i (.ok (some p)) → s.inner.flight.callers[i]? = some c →
    ¬s.inner.Awaits j c.url

/-- A step that evicts no entry. -/
def Roomy (s : Clocked ℚ (FetchClient config P ε)) (a : Stamped ℚ (FetchAct P ε)) : Prop :=
  s.inner.HasRoom a.act

variable {u v : Clocked ℚ (FetchClient config P ε)} {b : Stamped ℚ (FetchAct P ε)}
  {as : List (Stamped ℚ (FetchAct P ε))} {start : ℚ}

/-- While a success is younger than the TTL, the memory has an entry of its url that outlives it,
and nobody awaits Redis for the url. -/
structure Settled (u : Clocked ℚ (FetchClient config P ε)) : Prop where
  past : ∀ x url, .succeeded x url ∈ u.inner.events → x ≤ u.clock
  held : ∀ x url, .succeeded x url ∈ u.inner.events → u.clock < x + config.ttlSeconds →
    ∃ entry, u.inner.store.responseCache.get? url = some entry ∧
      x + config.ttlSeconds ≤ entry.expireAt
  quiet : ∀ x url i, .succeeded x url ∈ u.inner.events → u.clock < x + config.ttlSeconds →
    ¬u.inner.Awaits i url
  spaced : Spaced config.ttlSeconds u.inner.events

theorem settled_init : Settled (⟨start, init⟩ : Clocked ℚ (FetchClient config P ε)) where
  past := fun _ _ h => nomatch h
  held := fun _ _ h => nomatch h
  quiet := fun _ _ _ h => nomatch h
  spaced := List.Pairwise.nil

/-- A lookup within the TTL of a success is a hit. -/
theorem Settled.hit (hu : Settled u) {x : ℚ} (hx : .succeeded x url ∈ u.inner.events)
    (hclock : u.clock ≤ now) (hnow : now < x + config.ttlSeconds) :
    (u.inner.store.lookup now url).1 ≠ none := by
  obtain ⟨entry, he, hexp⟩ := hu.held x url hx (hclock.trans_lt hnow)
  have hhit : (u.inner.store.lookup now url).1 = some entry.payload :=
    ResponseCacheStore.lookup_eq_some.mpr ⟨entry, he, hnow.trans_le hexp, rfl⟩
  rw [hhit]
  exact Option.some_ne_none _

/-- Nothing starts within the TTL of a success. -/
theorem Settled.spaced_step (hu : Settled u) (hle : u.clock ≤ now)
    (h : FetchClient.step u.inner now a = some t) : Spaced config.ttlSeconds t.events := by
  rcases events_of_step h with he | ⟨i, p, c, -, -, he, -⟩ | ⟨url, he, hwhy⟩ <;> rw [he]
  · exact hu.spaced
  · exact hu.spaced.concat fun _ _ _ _ hy => nomatch hy
  · refine hu.spaced.concat fun x y url' hx hy => ?_
    cases hy
    have hpast := hu.past x url hx
    by_contra hlate
    have hlt := not_le.mp hlate
    rcases hwhy with httl | hmiss | ⟨i, hawait⟩
    · linarith
    · exact hu.hit hx hle hlt hmiss
    · exact hu.quiet x url i hx (hle.trans_lt hlt) hawait

theorem Settled.step (hu : Settled u) (hroom : Roomy u b) (hok : Unraced u b)
    (hstep : run config u b = some v) : Settled v := by
  obtain ⟨hle, hclock, hinner⟩ := clocked_eq_some.mp hstep
  refine ⟨fun x url hx => ?_, fun x url hx hlt => ?_, fun x url j hx hlt hawait => ?_,
    hu.spaced_step hle hinner⟩
  · rw [hclock]
    rcases success_of_step hinner hx with hx | ⟨rfl, -⟩
    · exact (hu.past x url hx).trans hle
    · exact le_rfl
  · rw [hclock] at hlt
    rcases success_of_step hinner hx with hx | ⟨rfl, i, p, c, ha, hi, rfl, hstore⟩
    · obtain ⟨entry, he, hexp⟩ := hu.held x url hx (hle.trans_lt hlt)
      obtain ⟨entry', he', rfl | hnew⟩ := entry_of_step hinner hroom he (hlt.trans_le hexp)
      · exact ⟨entry', he', hexp⟩
      · have := hu.past x url hx
        exact ⟨entry', he', by linarith⟩
    · rw [hstore (by linarith)]
      exact ⟨_, ResponseCacheStore.get?_put_self, le_rfl⟩
  · rw [hclock] at hlt
    rcases awaits_of_step hinner hawait with hold | ⟨ha, -, -, hmiss⟩
    · rcases success_of_step hinner hx with hx | ⟨rfl, i, p, c, ha, hi, rfl, -⟩
      · exact hu.quiet x url j hx (hle.trans_lt hlt) hold
      · exact hok i p c j ha hi hold
    · rcases success_of_step hinner hx with hx | ⟨-, i, p, c, ha', -⟩
      · exact hu.hit hx hle hlt hmiss
      · rw [ha] at ha'
        cases ha'

/-- The callers of a client behave as in `SingleFlight`. -/
theorem flight_of_run (h : exec (run config) ⟨start, init⟩ as = some u) :
    ∃ bs, exec SingleFlight.step SingleFlight.init bs = some u.inner.flight := by
  refine exec_invariant (fun u => ∃ bs, exec SingleFlight.step SingleFlight.init bs =
    some u.inner.flight) ⟨[], rfl⟩ ?_ h
  rintro u b v ⟨bs, hbs⟩ hstep
  obtain ⟨cs, hcs⟩ := flight_of_step (clocked_eq_some.mp hstep).2.2
  exact ⟨bs ++ cs, exec_append_eq_some.mpr ⟨_, hbs, hcs⟩⟩

theorem one_in_flight (h : exec (run config) ⟨start, init⟩ as = some u) :
    u.inner.OneInFlight := by
  obtain ⟨bs, hbs⟩ := flight_of_run h
  have hex := SingleFlight.reachable_exclusive hbs
  intro i j c d h k hi hj hc hd hurl
  have hsame : h = k := by
    have hlead := hex.leads i c h hi hc
    rw [hurl, hex.leads j d k hj hd] at hlead
    exact (Option.some.inj hlead).symm
  subst hsame
  exact hex.unique i j c d h hi hj hc hd

/-- While no entry is evicted, at most one request sequence of a url is in flight, and if none
succeeds while another caller of its url awaits Redis, none of a url starts within a TTL of a
success. -/
theorem fetched_once (hroom : Meets (run config) Roomy ⟨start, init⟩ as)
    (h : exec (run config) ⟨start, init⟩ as = some u) :
    u.inner.OneInFlight ∧
      (Meets (run config) Unraced ⟨start, init⟩ as →
        Spaced config.ttlSeconds u.inner.events) := by
  refine ⟨one_in_flight h, fun hmeets => ?_⟩
  have hboth := exec_induction (fun as u => Meets (run config) Roomy ⟨start, init⟩ as → Settled u)
    (fun _ => settled_init) ?_ hmeets h
  · exact (hboth hroom).spaced
  · intro as u b v hu hs hok hstep hroom
    obtain ⟨hbefore, hlast⟩ := meets_concat.mp hroom
    exact (hs hbefore).step (hlast u hu) hok hstep

/-! ### What a race leads to -/

/-- Only a client with a TTL and a Redis has callers that await Redis. -/
theorem awaits_redis (h : exec (run config) ⟨start, init⟩ as = some u)
    (hj : u.inner.Awaits j url) : 0 < config.ttlSeconds ∧ config.redisClient = true := by
  revert j url
  refine exec_invariant (fun u => ∀ {url j}, u.inner.Awaits j url →
    0 < config.ttlSeconds ∧ config.redisClient = true) ?_ ?_ h
  · rintro url j ⟨c, hc, -⟩
    cases hc
  · intro u b v hu hstep url j hj
    rcases awaits_of_step (clocked_eq_some.mp hstep).2.2 hj with hold | ⟨-, httl, hredis, -⟩
    · exact hu hold
    · exact ⟨httl, hredis⟩

/-- The leader of a url is answered, and then a caller of the url misses the cache: it leads. -/
theorem started_after_answer {holder : ℕ} {r : Except ε (Option P)}
    (hs : SingleFlight.Exclusive s.flight) (hi : s.flight.callers[i]? = some c)
    (hc : c.phase = .leading holder) (hj : s.Awaits j c.url) :
    ∃ t t', s.advance (.answered i r) = some t ∧ t.miss now j = some t' ∧
      t'.events = s.events ++ [.started now c.url] := by
  obtain ⟨d, hd, hurl, hphase⟩ := hj
  have hne : i ≠ j := by
    rintro rfl
    rw [hi] at hd
    cases hd
    rw [hc] at hphase
    cases hphase
  let settled := s.flight.settle c holder (.ofAttempt r)
  let flight : SingleFlight.System P ε := { settled.move i c (.ended (.ofAttempt r)) with
    attempts := s.flight.attempts ++ [(c.url, r)] }
  have hanswered : SingleFlight.step s.flight (.answered i r) = some flight := by
    simp [SingleFlight.step, hi, hc, flight, settled]
  have hstill : flight.callers[j]? = some d := by
    show (s.flight.callers.set i _)[j]? = some d
    rw [List.getElem?_set_ne hne, hd]
  have hfree : flight.group.inflightRequests d.url = none := by
    rw [hurl]
    exact SingleFlight.Group.release_self (hs.leads i c holder hi hc)
  have hmissed : SingleFlight.step flight (.missed j) =
      some (SingleFlight.missed j d flight) := by
    simp [SingleFlight.step, hstill, hphase]
  let t : FetchClient config P ε := { s with flight := flight }
  have hjoined : t.joined now d.url = s.events ++ [.started now c.url] := by
    rw [joined, if_pos (SingleFlight.Group.acquire_leads hfree), hurl]
  refine ⟨t, { t with
    flight := SingleFlight.missed j d flight
    events := t.joined now d.url }, ?_, ?_, hjoined⟩
  · rw [advance, hanswered]
    rfl
  · exact miss_eq_some.mpr ⟨d, _, hstill, exec_cons_eq_some.mpr ⟨_, hmissed, rfl⟩, rfl⟩

theorem succeed_of_step (hi : s.flight.callers[i]? = some c)
    (h : step s now (.requested i (.ok (some p))) = some t) :
    (∃ holder, c.phase = .leading holder) ∧ s.succeed now i c p = some t := by
  simp only [step, hi] at h
  split at h
  · rename_i c' hc' hstoring
    cases hc'
    split at h
    · rename_i holder p' hc hp
      cases hp
      exact ⟨⟨holder, hc⟩, h⟩
    · rename_i hnot
      exact absurd rfl (hnot p)
    · cases h
  · cases h

/-- The condition is exact: after a success while another caller of the url awaits Redis, that
caller can start a second request sequence at once. -/
theorem restarted_of_raced (h : exec (run config) ⟨start, init⟩ as = some u)
    (hnot : ¬Unraced u b) (hstep : run config u b = some v) :
    ∃ bs w, exec (run config) v bs = some w ∧ ¬Spaced config.ttlSeconds w.inner.events := by
  simp only [Unraced, not_forall, not_not] at hnot
  obtain ⟨i, p, c, j, ha, hi, hj⟩ := hnot
  obtain ⟨httl, hredis⟩ := awaits_redis h hj
  obtain ⟨-, hclock, hinner⟩ := clocked_eq_some.mp hstep
  obtain ⟨bs, hbs⟩ := flight_of_run h
  have hex := SingleFlight.reachable_exclusive hbs
  rw [ha] at hinner
  obtain ⟨⟨holder, hc⟩, hv⟩ := succeed_of_step hi hinner
  simp only [succeed, if_neg (not_le.mpr httl), hredis, if_true, Option.some.injEq] at hv
  let s : FetchClient config P ε :=
    { v.inner with storing := Function.update v.inner.storing i none }
  have hflight : s.flight = u.inner.flight := by
    show v.inner.flight = _
    rw [← hv]
  have hevents : s.events = u.inner.events ++ [.succeeded b.now c.url] := by
    show v.inner.events = _
    rw [← hv]
  obtain ⟨t, t', ht, ht', he⟩ : ∃ t t', s.advance (.answered i (.ok (some p))) = some t ∧
      t.miss b.now j = some t' ∧ t'.events = s.events ++ [.started b.now c.url] := by
    apply started_after_answer _ _ hc
    · rw [Awaits, hflight]
      exact hj
    · rw [hflight]
      exact hex
    · rw [hflight]
      exact hi
  have hstored : FetchClient.step v.inner b.now (.stored i) = some t := by
    have hi : v.inner.storing i = some p := by
      rw [← hv]
      exact Function.update_self _ _ _
    simp only [FetchClient.step, hi]
    exact ht
  refine ⟨[⟨b.now, .stored i⟩, ⟨b.now, .redisMiss j⟩], ⟨b.now, t'⟩, ?_, ?_⟩
  · refine exec_cons_eq_some.mpr ⟨⟨b.now, t⟩, ?_, exec_cons_eq_some.mpr ⟨⟨b.now, t'⟩, ?_, rfl⟩⟩
    · exact clocked_eq_some.mpr ⟨hclock.le, rfl, hstored⟩
    · exact clocked_eq_some.mpr ⟨le_rfl, rfl, ht'⟩
  · intro hspaced
    rw [Spaced, he, hevents, List.append_assoc] at hspaced
    have hpair := (List.pairwise_append.mp hspaced).2.1
    have hlate := (List.pairwise_pair.mp hpair) b.now b.now c.url rfl rfl
    linarith

end Steps

/-! ### Two callers of one url -/

section Example

/-- Both miss the memory, and the first misses Redis and leads. -/
def racedStart : List (Stamped ℚ (FetchAct ℕ String)) :=
  [⟨0, .getJson poolsUrl⟩, ⟨0, .getJson poolsUrl⟩, ⟨1 / 20, .redisMiss 0⟩]

/-- The first ends before the second misses Redis. -/
def racedEnd : List (Stamped ℚ (FetchAct ℕ String)) :=
  [⟨1 / 10, .requested 0 (.ok (some 7))⟩, ⟨1 / 10, .stored 0⟩, ⟨3 / 20, .redisMiss 1⟩]

/-- A run that assigns to the memory once, when that is empty. -/
theorem roomy_of_once {bs cs : List (Stamped ℚ (FetchAct ℕ String))}
    {b : Stamped ℚ (FetchAct ℕ String)}
    (hbs : ∀ a ∈ bs, ∀ i p, a.act ≠ .redisHit i p ∧ a.act ≠ .requested i (.ok (some p)))
    (hcs : ∀ a ∈ cs, ∀ i p, a.act ≠ .redisHit i p ∧ a.act ≠ .requested i (.ok (some p)))
    (h : (exec (run defaultCache) ⟨0, init⟩ bs).map
      (fun u => u.inner.store.responseCache.size) = some 0) :
    Meets (run defaultCache) Roomy ⟨0, init⟩ (bs ++ b :: cs) := by
  have hquiet : ∀ as : List (Stamped ℚ (FetchAct ℕ String)),
      (∀ a ∈ as, ∀ i p, a.act ≠ .redisHit i p ∧ a.act ≠ .requested i (.ok (some p))) →
      ∀ u, Meets (run defaultCache) Roomy u as := by
    intro as has u
    apply meets_of_forall_mem
    intro a ha u i p c hact
    rcases hact with hact | hact
    · exact absurd hact (has a ha i p).1
    · exact absurd hact (has a ha i p).2
  refine meets_append.mpr ⟨hquiet bs hbs _, fun u hu => ⟨?_, fun v _ => hquiet cs hcs v⟩⟩
  intro i p c _ _
  rw [hu] at h
  have hsize : u.inner.store.responseCache.size = 0 := Option.some.inj h
  refine .inr ?_
  rw [hsize]
  exact defaultCache.maxEntries_pos

theorem roomy_raced : Meets (run defaultCache) Roomy ⟨0, init⟩ (racedStart ++ racedEnd) := by
  refine roomy_of_once ?_ ?_ (by decide +kernel)
  · simp [racedStart]
  · simp

/-- The second caller's requests start 0.05 s after those of the first have succeeded, with a TTL of
3 s. -/
theorem fetched_twice :
    ¬ ∀ (as : List (Stamped ℚ (FetchAct ℕ String))) (u : Clocked ℚ (FetchClient _ ℕ String)),
      Meets (run defaultCache) Roomy ⟨0, init⟩ as →
      exec (run defaultCache) ⟨0, init⟩ as = some u →
        u.inner.OneInFlight ∧ Spaced defaultCache.ttlSeconds u.inner.events := by
  intro h
  have hrun : (exec (run defaultCache) ⟨0, init⟩ (racedStart ++ racedEnd)).map
      (fun u => u.inner.events) = some [.started (1 / 20) poolsUrl, .succeeded (1 / 10) poolsUrl,
        .started (3 / 20) poolsUrl] := by
    decide +kernel
  obtain ⟨u, hu, he⟩ := Option.map_eq_some_iff.mp hrun
  have hspaced := (h _ u roomy_raced hu).2
  rw [he] at hspaced
  have hpair := (List.pairwise_cons.mp hspaced).2
  have hlate := (List.pairwise_pair.mp hpair) (1 / 10) (3 / 20) poolsUrl rfl rfl
  have : (1 / 10 : ℚ) + 3 ≤ 3 / 20 := hlate
  norm_num at this

/-- One caller misses and leads. -/
def loneStart : List (Stamped ℚ (FetchAct ℕ String)) :=
  [⟨0, .getJson poolsUrl⟩, ⟨1 / 20, .redisMiss 0⟩]

/-- A second caller hits the memory, a third comes after the entry has expired and leads again. -/
def loneEnd : List (Stamped ℚ (FetchAct ℕ String)) :=
  [⟨1 / 10, .requested 0 (.ok (some 7))⟩, ⟨1 / 10, .stored 0⟩, ⟨1, .getJson poolsUrl⟩,
    ⟨4, .getJson poolsUrl⟩, ⟨4, .redisMiss 2⟩]

theorem roomy_lone : Meets (run defaultCache) Roomy ⟨0, init⟩ (loneStart ++ loneEnd) := by
  refine roomy_of_once ?_ ?_ (by decide +kernel)
  · simp [loneStart]
  · simp

theorem unraced_lone : Meets (run defaultCache) Unraced ⟨0, init⟩ (loneStart ++ loneEnd) := by
  refine meets_append.mpr ⟨meets_of_forall_mem ?_, fun u hu => ⟨?_, fun v _ =>
    meets_of_forall_mem ?_⟩⟩
  · intro a ha u i p c j hact
    simp only [loneStart, List.mem_cons, List.not_mem_nil, or_false] at ha
    rcases ha with rfl | rfl <;> cases hact
  · have hrun : (exec (run defaultCache) ⟨0, init⟩ loneStart).map
        (fun u => u.inner.flight.callers) = some [⟨poolsUrl, .leading 0, false⟩] := by
      decide +kernel
    rw [hu] at hrun
    have hcallers : u.inner.flight.callers = [⟨poolsUrl, .leading 0, false⟩] :=
      Option.some.inj hrun
    rintro i p c j - - ⟨d, hd, -, hphase⟩
    rw [hcallers] at hd
    rw [List.mem_singleton.mp (List.mem_of_getElem? hd)] at hphase
    cases hphase
  · intro a ha u i p c j hact
    simp only [List.mem_cons, List.not_mem_nil, or_false] at ha
    rcases ha with rfl | rfl | rfl | rfl <;> cases hact

theorem fetched_once_lone :
    ∃ u, exec (run defaultCache) ⟨0, init⟩ (loneStart ++ loneEnd) = some u ∧
      u.inner.events = [.started (1 / 20) poolsUrl, .succeeded (1 / 10) poolsUrl,
        .started 4 poolsUrl] ∧
      u.inner.OneInFlight ∧ Spaced defaultCache.ttlSeconds u.inner.events := by
  have hrun : (exec (run defaultCache) ⟨0, init⟩ (loneStart ++ loneEnd)).map
      (fun u => u.inner.events) = some [.started (1 / 20) poolsUrl, .succeeded (1 / 10) poolsUrl,
        .started 4 poolsUrl] := by
    decide +kernel
  obtain ⟨u, hu, he⟩ := Option.map_eq_some_iff.mp hrun
  obtain ⟨hone, hspaced⟩ := fetched_once roomy_lone hu
  exact ⟨u, hu, he, hone, hspaced unraced_lone⟩

end Example

end FetchClient

end ChainMonitor.Ingestion
