import ChainMonitor.ProofKit.Dict
import ChainMonitor.ProofKit.Json
import ChainMonitor.ProofKit.Ranking

/-! `fetch_pairs_by_addresses` of the provider adapters in `ingestion/adapters`: DexScreener asks
for many addresses at a time and groups the pairs of the answer by their base token, GeckoTerminal
asks for the pools of each address, and Birdeye for its market data. -/

namespace ChainMonitor.Adapters

open ProofKit

structure NormalizedPair where
  chainId : String
  symbol : String
  source : String
  priceUsd : Float
  volume5m : Float
  liquidityUsd : Float
  buys5m : ℤ
  sells5m : ℤ
  pairCreatedAtMs : Option ℤ
  dexId : String
  pairAddress : String
  url : String
  baseTokenAddress : Option String
  deriving DecidableEq

/-- How a call of `get_json` ends: in a payload, in `None`, or in an exception. -/
abbrev Answer := Except PyError (Option Json)

/-! ### What the adapters share -/

section Shared

variable (T : Text)

def safeFloat (value : Json) (default : Option Float) : Except PyError (Option Float) :=
  match value with
  | .null => .ok default
  | value => excepting default
      ((fun parsed => if PyFloat.isFinite parsed then some parsed else default) <$>
        value.toFloat T.float)

def normalizeAddress (address : String) : String :=
  if address.startsWith "0x" then T.lower address else address

/-- `not address.strip()`. -/
def isBlank (address : String) : Bool := address.toList.all T.isSpace

/-- `address or None`. -/
def orNone (address : String) : Option String := if address = "" then none else some address

/-- `value or 0.0`. -/
def orZero (value : Option Float) : Float :=
  match value with
  | some x => if PyFloat.truthy x then x else 0
  | none => 0

/-- `candidates.sort(key=key, reverse=True)` and `candidates[0]`. -/
def pickBest (key : Json → Except PyError Float) (candidates : List Json) :
    Except PyError Json := do
  let keyed ← candidates.mapM fun item => do return (← key item, item)
  match keyed with
  | [] => .error .indexError
  | k :: ks => return (firstMax Prod.fst k ks).2

/-- The finite value that `int` truncates, as a count. -/
def count (x : Float) : Except PyError ℤ := do return max 0 (← PyFloat.toInt x)

/-- `_extract_created_at_ms`: the first of the candidates that is a number, in milliseconds. -/
def createdAtMs : List Json → Except PyError (Option ℤ)
  | [] => .ok none
  | candidate :: rest => do
    match ← safeFloat T candidate none with
    | none => createdAtMs rest
    | some parsed =>
      if parsed > 10000000000 then return some (← PyFloat.toInt parsed)
      else return some (← PyFloat.toInt (parsed * 1000))

/-- `results.update(rows)`. -/
def update (results rows : Dict String NormalizedPair) : Dict String NormalizedPair :=
  Table.upsertAll rows.rows results

end Shared

/-! ### DexScreener -/

structure DexScreener where
  chainId : String
  dsChainId : String

namespace DexScreener

variable (T : Text) (a : DexScreener)

/-- `{self._normalize_address(address): symbol.upper()}` over the addresses that are not blank. -/
def normalized (map : Dict String String) : Dict String String :=
  Dict.ofPairs ((map.rows.filter fun e => !isBlank T e.2).map fun e =>
    (normalizeAddress T e.2, T.upper e.1))

def chunk (items : List String) (size : ℕ) : List (List String) :=
  (List.range ((items.length + size - 1) / size)).map fun i => (items.drop (i * size)).take size

def baseAddress (raw : Json) : Except PyError String := do
  let baseToken ← raw.get "baseToken" .empty
  return normalizeAddress T ((← baseToken.get "address" (.str "")).text T)

/-- The count of the last five minutes on one side. -/
def trades (raw : Json) (side : String) : Except PyError (Option Float) := do
  let m5 ← (← raw.get "txns" .empty).get "m5" .empty
  safeFloat T (← m5.get side .null) none

def liquidity (raw : Json) (default : Option Float) : Except PyError (Option Float) := do
  safeFloat T (← (← raw.get "liquidity" .empty).get "usd" .null) default

def pairCreatedAt (raw : Json) : Except PyError (Option ℤ) := do
  match ← raw.get "pairCreatedAt" .null with
  | .null => return none
  | value => excepting none (do return some (← PyFloat.toInt (← value.toFloat T.float)))

def normalizePair (raw : Json) (symbol : String) : Except PyError (Option NormalizedPair) := do
  let priceUsd ← safeFloat T (← raw.get "priceUsd" .null) none
  let volume5m ← safeFloat T (← (← raw.get "volume" .empty).get "m5" .null) none
  let liquidityUsd ← liquidity T raw none
  let buys5m ← trades T raw "buys"
  let sells5m ← trades T raw "sells"
  match priceUsd, volume5m, liquidityUsd, buys5m, sells5m with
  | some priceUsd, some volume5m, some liquidityUsd, some buys5m, some sells5m =>
    let pairCreatedAtMs ← pairCreatedAt T raw
    return some
      { chainId := a.chainId
        symbol := symbol
        source := "dexscreener"
        priceUsd := priceUsd
        volume5m := volume5m
        liquidityUsd := liquidityUsd
        buys5m := ← count buys5m
        sells5m := ← count sells5m
        pairCreatedAtMs := pairCreatedAtMs
        dexId := (← raw.get "dexId" (.str "")).text T
        pairAddress := (← raw.get "pairAddress" (.str "")).text T
        url := (← raw.get "url" (.str "")).text T
        baseTokenAddress := orNone (← baseAddress T raw) }
  | _, _, _, _, _ => return none

/-- The sort key of `_pick_best_pair`. -/
def pairKey (raw : Json) : Except PyError Float := do return orZero (← liquidity T raw (some 0))

/-- The mapped address whose group an element of the answer goes into, if it does. -/
def groupOf (addresses : Dict String String) (raw : Json) : Except PyError (Option String) := do
  if (← raw.get "chainId" .null).isStr a.dsChainId then
    let address ← baseAddress T raw
    return if address ≠ "" ∧ (addresses.get? address).isSome then some address else none
  else return none

/-- `grouped.setdefault(address, []).append(raw)`. -/
def append (grouped : Dict String (List Json)) (address : String) (raw : Json) :
    Dict String (List Json) :=
  grouped.set address ((grouped.get? address).getD [] ++ [raw])

def grouped (addresses : Dict String String) (pairs : List Json) :
    Except PyError (Dict String (List Json)) :=
  pairs.foldlM (fun groups raw => do
    match ← groupOf T a addresses raw with
    | none => return groups
    | some address => return append groups address raw) Dict.empty

/-- The rows of one answer. -/
def chunkRows (addresses : Dict String String) (answer : Answer) :
    Except PyError (Dict String NormalizedPair) := do
  match ← answer with
  | none => return Dict.empty
  | some payload =>
    match ← payload.get "pairs" (.list []) with
    | .list pairs =>
      let groups ← grouped T a addresses pairs
      groups.rows.foldlM (fun rows group => do
        let symbol := (addresses.get? group.1).getD ""
        return rows.setSome symbol
          (← normalizePair T a (← pickBest (pairKey T) group.2) symbol)) Dict.empty
    | _ => return Dict.empty

/-- The rows of the chunks. A chunk that raised is left out. -/
def merge (results : List (Except PyError (Dict String NormalizedPair))) :
    Dict String NormalizedPair :=
  results.foldl (fun rows result =>
    match result with
    | .error _ => rows
    | .ok more => update rows more) Dict.empty

def fetchPairsByAddresses (map : Dict String String) (client : List String → Answer) :
    Dict String NormalizedPair :=
  let addresses := normalized T map
  merge ((chunk addresses.keys 20).map fun c => chunkRows T a addresses (client c))

end DexScreener

/-! ### GeckoTerminal -/

structure GeckoTerminal where
  chainId : String

namespace GeckoTerminal

variable (T : Text) (a : GeckoTerminal)

/-- `f"{obj.get('type', '')}:{obj.get('id', '')}"`. -/
def relKey (obj : Json) : Except PyError String := do
  return (← obj.get "type" (.str "")).text T ++ ":" ++ (← obj.get "id" (.str "")).text T

def buildTokenLookup : Json → Except PyError (Dict String Json)
  | .list included => included.foldlM (fun lookup item => do
      if item.isDict then
        let key ← relKey T item
        let attrs ← item.get "attributes" .empty
        return if attrs.isDict then lookup.set key attrs else lookup
      else return lookup) Dict.empty
  | _ => .ok Dict.empty

/-- The sort key of `_pick_best_pool`. -/
def poolScore (item : Json) : Except PyError Float := do
  let attrs ← item.get "attributes" .empty
  if attrs.isDict then
    return orZero (← safeFloat T (← attrs.get "reserve_in_usd" .null) (some 0))
  else return 0

/-- The first of the windows of `volume_usd` that is a number, as five minutes of it. -/
def windowVolume (volumeUsd : Json) : List (String × Float) → Except PyError (Option Float)
  | [] => .ok none
  | (window, fiveMinutes) :: rest => do
    match ← safeFloat T (← volumeUsd.get window .null) none with
    | none => windowVolume volumeUsd rest
    | some parsed => return some (parsed / fiveMinutes)

def extractVolume5m (attributes : Json) : Except PyError (Option Float) := do
  let volumeUsd ← attributes.get "volume_usd" .null
  let byWindow ←
    if volumeUsd.isDict then
      windowVolume T volumeUsd [("m5", 1), ("h1", 12), ("h6", 72), ("h24", 288)]
    else pure none
  match byWindow with
  | some volume => return some volume
  | none =>
    let parsed ← safeFloat T (← attributes.get "volume_usd_h24" .null) none
    return parsed.map (· / 288)

/-- The trades of one window of `transactions`, as five minutes of it. -/
def windowTx (txns : Json) (window : String) (fiveMinutes : Float) :
    Except PyError (Option (ℤ × ℤ)) := do
  let counts ← txns.get window .null
  if counts.isDict then
    let buys ← safeFloat T (← counts.get "buys" .null) none
    let sells ← safeFloat T (← counts.get "sells" .null) none
    match buys, sells with
    | some buys, some sells =>
      return some (← count (buys / fiveMinutes), ← count (sells / fiveMinutes))
    | _, _ => return none
  else return none

def extractTx5m (attributes : Json) : Except PyError (Option (ℤ × ℤ)) := do
  let txns ← attributes.get "transactions" .null
  if txns.isDict then
    match ← windowTx T txns "m5" 1 with
    | some counts => return some counts
    | none => windowTx T txns "h1" 12
  else return none

def extractCreatedAtMs (attributes : Json) : Except PyError (Option ℤ) := do
  createdAtMs T [← attributes.get "pool_created_at_unix" .null,
    ← attributes.get "pool_created_at" .null, ← attributes.get "created_at" .null]

def resolveBaseTokenAddress (pool attributes : Json) (tokenLookup : Dict String Json) :
    Except PyError (Option String) := do
  let addr := (← attributes.get "base_token_address" (.str "")).text T
  if addr ≠ "" then return some (normalizeAddress T addr)
  else
    let relationships ← pool.get "relationships" .empty
    let rel ← (← relationships.get "base_token" .empty).get "data" .empty
    let tokenObj := (tokenLookup.get? (← relKey T rel)).getD .empty
    let tokenAddress := (← tokenObj.get "address" (.str "")).text T
    return if tokenAddress = "" then none else some (normalizeAddress T tokenAddress)

def normalizePool (pool : Json) (symbol : String) (tokenLookup : Dict String Json) :
    Except PyError (Option NormalizedPair) := do
  let attributes ← pool.get "attributes" .empty
  if attributes.isDict then
    let priceUsd ← safeFloat T (← attributes.get "base_token_price_usd" .null) none
    let volume5m ← extractVolume5m T attributes
    let liquidityUsd ← safeFloat T (← attributes.get "reserve_in_usd" .null) none
    let tx5m ← extractTx5m T attributes
    match priceUsd, volume5m, liquidityUsd, tx5m with
    | some priceUsd, some volume5m, some liquidityUsd, some (buys5m, sells5m) =>
      return some
        { chainId := a.chainId
          symbol := symbol
          source := "geckoterminal"
          priceUsd := priceUsd
          volume5m := volume5m
          liquidityUsd := liquidityUsd
          buys5m := buys5m
          sells5m := sells5m
          dexId := (← attributes.get "dex_id" (.str "")).text T
          pairAddress := (← attributes.get "address" (.str "")).text T
          url := (← attributes.get "pool_url" (.str "")).text T
          pairCreatedAtMs := ← extractCreatedAtMs T attributes
          baseTokenAddress := ← resolveBaseTokenAddress T pool attributes tokenLookup }
    | _, _, _, _ => return none
  else return none

def fetchTokenPools (symbol : String) (answer : Answer) :
    Except PyError (Option NormalizedPair) := do
  match ← answer with
  | none => return none
  | some payload =>
    match ← payload.get "data" (.list []) with
    | .list [] => return none
    | .list pools =>
      let tokenLookup ← buildTokenLookup T (← payload.get "included" (.list []))
      normalizePool T a (← pickBest (poolScore T) pools) symbol tokenLookup
    | _ => return none

end GeckoTerminal

/-! ### Birdeye -/

structure Birdeye where
  chainId : String

namespace Birdeye

variable (T : Text) (a : Birdeye)

/-- `max(0.0, x)`. -/
def nonnegative (x : Float) : Float := if x > 0 then x else 0

def fetchMarketData (symbol address : String) (answer : Answer) :
    Except PyError (Option NormalizedPair) := do
  match ← answer with
  | none => return none
  | some payload =>
    let data ← payload.get "data" .empty
    if data.isDict then
      let priceUsd ← safeFloat T (← data.get "price" .null) none
      let liquidityUsd ← safeFloat T (← data.get "liquidity" .null)
        (← safeFloat T (← data.get "liquidity_usd" .null) none)
      let volume24h ← safeFloat T (← data.get "volume24h" .null) none
      let trade24h ← safeFloat T (← data.get "trade24h" .null) none
      match priceUsd, liquidityUsd, volume24h, trade24h with
      | some priceUsd, some liquidityUsd, some volume24h, some trade24h =>
        let tx5m ← count (trade24h / 288)
        let pairCreatedAtMs ← createdAtMs T [← data.get "createdAt" .null,
          ← data.get "createTime" .null, ← data.get "listedAt" .null]
        return some
          { chainId := a.chainId
            symbol := symbol
            source := "birdeye"
            priceUsd := priceUsd
            volume5m := nonnegative (volume24h / 288)
            liquidityUsd := nonnegative liquidityUsd
            buys5m := max 0 (tx5m / 2)
            sells5m := max 0 (tx5m - tx5m / 2)
            pairCreatedAtMs := pairCreatedAtMs
            dexId := (← data.get "dex" (.str "birdeye")).text T
            pairAddress := address
            url := (← data.get "url" (.str "")).text T
            baseTokenAddress := some address }
      | _, _, _, _ => return none
    else return none

end Birdeye

/-! ### One request for each address -/

/-- The requests of an adapter that asks for one address at a time: the symbol, its upper case and
the normalized address. -/
def tasks (T : Text) (map : Dict String String) : List (String × String) :=
  (map.rows.filter fun e => !isBlank T e.2).map fun e => (T.upper e.1, normalizeAddress T e.2)

/-- The pairs of the tasks that return one. A task that raises is left out. -/
def gather (task : String × String → Except PyError (Option NormalizedPair))
    (requests : List (String × String)) : Dict String NormalizedPair :=
  requests.foldl (fun rows request => rows.setSome request.1 (given (task request))) Dict.empty

def GeckoTerminal.fetchPairsByAddresses (T : Text) (a : GeckoTerminal) (map : Dict String String)
    (client : String → Answer) : Dict String NormalizedPair :=
  gather (fun request => a.fetchTokenPools T request.1 (client request.2)) (tasks T map)

def Birdeye.fetchPairsByAddresses (T : Text) (a : Birdeye) (map : Dict String String)
    (client : String → Answer) : Dict String NormalizedPair :=
  gather (fun request => a.fetchMarketData T request.1 request.2 (client request.2)) (tasks T map)

/-! ### Requests that are cancelled

`gather` returns the `CancelledError` of a task whose request is cancelled. It is no `Exception`, so
the loops over the results take it for the rows of a chunk, or for a symbol and its pair, and raise
a `TypeError`. -/

/-- How a request ends, and with it its task. -/
inductive Ending (α : Type)
  | returned (result : Except PyError α)
  | cancelledError

/-- What the loop over the results makes of the task that awaits the request. -/
def Ending.taken {α β σ : Type} (task : Except PyError α → Except PyError β)
    (take : σ → Except PyError β → σ) (rows : σ) : Ending α → Except PyError σ
  | .returned answer => .ok (take rows (task answer))
  | .cancelledError => .error .typeError

/-- What a request that is not cancelled answers. -/
def Ending.answer {α : Type} : Ending (Option α) → Except PyError (Option α)
  | .returned answer => answer
  | .cancelledError => .ok none

/-- `fetch_pairs_by_addresses` with such requests. -/
def DexScreener.gatherPairsByAddresses (T : Text) (a : DexScreener) (map : Dict String String)
    (client : List String → Ending (Option Json)) : Except PyError (Dict String NormalizedPair) :=
  let addresses := normalized T map
  (chunk addresses.keys 20).foldlM (fun rows c =>
    (client c).taken (chunkRows T a addresses) (fun rows result =>
      match result with
      | .error _ => rows
      | .ok more => update rows more) rows) Dict.empty

/-- The loop of the adapters that ask for one address at a time. -/
def gatherTasks (task : String × String → Answer → Except PyError (Option NormalizedPair))
    (client : String → Ending (Option Json)) (requests : List (String × String)) :
    Except PyError (Dict String NormalizedPair) :=
  requests.foldlM (fun rows request =>
    (client request.2).taken (task request) (fun rows result =>
      rows.setSome request.1 (given result)) rows) Dict.empty

def GeckoTerminal.gatherPairsByAddresses (T : Text) (a : GeckoTerminal) (map : Dict String String)
    (client : String → Ending (Option Json)) : Except PyError (Dict String NormalizedPair) :=
  gatherTasks (fun request => a.fetchTokenPools T request.1) client (tasks T map)

def Birdeye.gatherPairsByAddresses (T : Text) (a : Birdeye) (map : Dict String String)
    (client : String → Ending (Option Json)) : Except PyError (Dict String NormalizedPair) :=
  gatherTasks (fun request => a.fetchMarketData T request.1 request.2) client (tasks T map)

theorem Ending.taken_eq_ok {α β σ : Type} {task : Except PyError (Option α) → Except PyError β}
    {take : σ → Except PyError β → σ} {rows more : σ} {ending : Ending (Option α)} :
    ending.taken task take rows = .ok more ↔
      ending ≠ .cancelledError ∧ take rows (task ending.answer) = more := by
  cases ending with
  | returned answer => simp [taken, Ending.answer]
  | cancelledError => simp [taken]

/-- The rows come back when no request is cancelled. -/
theorem DexScreener.gatherPairsByAddresses_eq_ok {T : Text} {a : DexScreener}
    {map : Dict String String} {client : List String → Ending (Option Json)}
    {rows : Dict String NormalizedPair} :
    a.gatherPairsByAddresses T map client = .ok rows ↔
      (∀ c ∈ chunk (normalized T map).keys 20, client c ≠ .cancelledError) ∧
        a.fetchPairsByAddresses T map (fun c => (client c).answer) = rows := by
  rw [fetchPairsByAddresses, merge, List.foldl_map]
  exact foldlM_eq_ok_of_guarded fun _ _ _ => Ending.taken_eq_ok

theorem gatherTasks_eq_ok
    {task : String × String → Answer → Except PyError (Option NormalizedPair)}
    {client : String → Ending (Option Json)} {requests : List (String × String)}
    {rows : Dict String NormalizedPair} :
    gatherTasks task client requests = .ok rows ↔
      (∀ request ∈ requests, client request.2 ≠ .cancelledError) ∧
        gather (fun request => task request (client request.2).answer) requests = rows :=
  foldlM_eq_ok_of_guarded fun _ _ _ => Ending.taken_eq_ok

/-! ### What they return -/

section Spec

variable {T : Text}

theorem keyed_eq_ok {key : Json → Except PyError Float} {item : Json} {k : Float × Json} :
    (do return (← key item, item) : Except PyError (Float × Json)) = .ok k ↔
      key item = .ok k.1 ∧ k.2 = item := by
  obtain ⟨x, raw⟩ := k
  rw [bind_eq_ok]
  constructor
  · rintro ⟨y, hy, h⟩
    obtain ⟨rfl, rfl⟩ := Prod.mk.inj (Except.ok.inj h)
    exact ⟨hy, rfl⟩
  · rintro ⟨hx, rfl⟩
    exact ⟨x, hx, rfl⟩

/-- When every candidate has a key, the first of those with the greatest one is picked. -/
theorem pickBest_cons {key : Json → Except PyError Float} {value : Json → Float} {c : Json}
    {cs : List Json} (h : ∀ x ∈ c :: cs, key x = .ok (value x)) :
    pickBest key (c :: cs) = .ok (firstMax value c cs) := by
  have hkeyed : (c :: cs).mapM (fun item => do return (← key item, item)) =
      .ok ((c :: cs).map fun x => (value x, x)) := by
    rw [mapM_eq_ok, List.forall₂_map_right_iff]
    exact List.forall₂_same.mpr fun x hx => keyed_eq_ok.mpr ⟨h x hx, rfl⟩
  unfold pickBest
  rw [hkeyed]
  show Except.ok (firstMax Prod.fst (value c, c) (cs.map fun x => (value x, x))).2 = _
  rw [firstMax_map (fun x => (value x, x))]

/-- A pick needs a candidate, and a key of each. -/
theorem pickBest_eq_ok {key : Json → Except PyError Float} {candidates : List Json} {best : Json}
    (h : pickBest key candidates = .ok best) :
    candidates ≠ [] ∧ ∀ x ∈ candidates, ∃ k, key x = .ok k := by
  rw [pickBest, bind_eq_ok] at h
  obtain ⟨keyed, hkeyed, h⟩ := h
  constructor
  · rintro rfl
    rw [List.forall₂_nil_left_iff.mp (mapM_eq_ok.mp hkeyed)] at h
    cases h
  · intro x hx
    obtain ⟨k, hk⟩ := exists_of_mapM_eq_ok hkeyed x hx
    exact ⟨k.1, (keyed_eq_ok.mp hk).1⟩

theorem pickBest_mem {key : Json → Except PyError Float} {candidates : List Json} {best : Json}
    (h : pickBest key candidates = .ok best) : best ∈ candidates := by
  obtain ⟨hne, hkeys⟩ := pickBest_eq_ok h
  obtain ⟨c, cs, rfl⟩ := List.exists_cons_of_ne_nil hne
  choose! value hvalue using hkeys
  rw [pickBest_cons hvalue] at h
  exact Except.ok.inj h ▸ firstMax_mem value c cs

theorem get?_gather {task : String × String → Except PyError (Option NormalizedPair)}
    {requests : List (String × String)} {symbol : String} :
    (gather task requests).get? symbol =
      requests.reverse.findSome? fun request =>
        if request.1 = symbol then given (task request) else none := by
  show (Dict.collect Prod.fst (fun request => given (task request)) requests Dict.empty).get? _ = _
  rw [Dict.get?_collect, Dict.get?_empty, Option.or_none]

/-- The last task of a symbol that returns a pair gives the symbol its row. -/
theorem get?_gather_eq_some {task : String × String → Except PyError (Option NormalizedPair)}
    {requests : List (String × String)} {symbol : String} {pair : NormalizedPair} :
    (gather task requests).get? symbol = some pair ↔
      Dict.IsLast (fun request p => request.1 = symbol ∧ task request = .ok (some p))
        requests pair := by
  rw [get?_gather, Dict.findSome?_reverse_eq_some]
  apply Dict.isLast_congr
  intro request _ p
  rw [Option.ite_none_right_eq_some, given_eq_some]

theorem mem_tasks {map : Dict String String} {request : String × String} :
    request ∈ tasks T map ↔ ∃ key address, map.get? key = some address ∧ isBlank T address = false ∧
      request = (T.upper key, normalizeAddress T address) := by
  simp only [tasks, List.mem_map, List.mem_filter, Prod.exists, Dict.get?_eq_some]
  constructor
  · rintro ⟨key, address, ⟨hmem, hblank⟩, rfl⟩
    exact ⟨key, address, hmem, by simpa using hblank, rfl⟩
  · rintro ⟨key, address, hmem, hblank, rfl⟩
    exact ⟨key, address, ⟨hmem, by simpa using hblank⟩, rfl⟩

namespace DexScreener

variable {a : DexScreener} {addresses : Dict String String}

theorem get?_normalized {map : Dict String String} {address symbol : String}
    (h : (normalized T map).get? address = some symbol) :
    ∃ key mapped, map.get? key = some mapped ∧ isBlank T mapped = false ∧
      T.upper key = symbol ∧ normalizeAddress T mapped = address := by
  rw [normalized, Dict.get?_ofPairs, Option.map_eq_some_iff] at h
  obtain ⟨row, hrow, rfl⟩ := h
  have hmem := List.mem_reverse.mp (List.mem_of_find?_eq_some hrow)
  have haddress : row.1 = address := by simpa using List.find?_some hrow
  obtain ⟨⟨key, mapped⟩, he, rfl⟩ := List.mem_map.mp hmem
  obtain ⟨he, hblank⟩ := List.mem_filter.mp he
  exact ⟨key, mapped, Dict.get?_eq_some.mpr he, by simpa using hblank, rfl, haddress⟩

/-- The elements of the answer that go into the group of an address. -/
def group (T : Text) (a : DexScreener) (addresses : Dict String String) (address : String)
    (pairs : List Json) : List Json :=
  pairs.filter fun raw => given (groupOf T a addresses raw) = some address

theorem mem_group {address : String} {pairs : List Json} {raw : Json} :
    raw ∈ group T a addresses address pairs ↔
      raw ∈ pairs ∧ groupOf T a addresses raw = .ok (some address) := by
  rw [group, List.mem_filter, decide_eq_true_iff, given_eq_some]

/-- What the loop adds to the groups that it starts with. -/
theorem get?_grouped_from {pairs : List Json} {groups₀ groups : Dict String (List Json)}
    (h : pairs.foldlM (fun groups raw => do
      match ← groupOf T a addresses raw with
      | none => return groups
      | some address => return append groups address raw) groups₀ = .ok groups) (address : String) :
    groups.get? address =
      if group T a addresses address pairs = [] then groups₀.get? address
      else some ((groups₀.get? address).getD [] ++ group T a addresses address pairs) := by
  induction pairs generalizing groups₀ with
  | nil =>
    rw [← Except.ok.inj h]
    rfl
  | cons raw pairs ih =>
    rw [List.foldlM_cons, bind_eq_ok] at h
    obtain ⟨groups₁, hstep, hrest⟩ := h
    rw [bind_eq_ok] at hstep
    obtain ⟨target, htarget, hstep⟩ := hstep
    rw [ih hrest]
    have hgroup : group T a addresses address (raw :: pairs) =
        if target = some address then raw :: group T a addresses address pairs
        else group T a addresses address pairs := by
      simp [group, List.filter_cons, htarget, given]
    rw [hgroup]
    cases target with
    | none =>
      have hsame : groups₀ = groups₁ := Except.ok.inj hstep
      simp [hsame]
    | some found =>
      rw [← Except.ok.inj hstep, append, Dict.get?_set]
      by_cases hfound : address = found
      · subst hfound
        by_cases hnil : group T a addresses address pairs = []
        · simp [hnil]
        · simp [hnil]
      · have hne : ¬some found = some address := by simpa [eq_comm] using hfound
        rw [if_neg hfound, if_neg hne]

theorem get?_grouped {pairs : List Json} {groups : Dict String (List Json)}
    (h : grouped T a addresses pairs = .ok groups) (address : String) :
    groups.get? address =
      if group T a addresses address pairs = [] then none
      else some (group T a addresses address pairs) :=
  get?_grouped_from h address

/-- The list under `pairs` of the answer. An answer without one counts as empty. -/
def elements (answer : Answer) : Except PyError (List Json) := do
  match ← answer with
  | none => return []
  | some payload =>
    match ← payload.get "pairs" (.list []) with
    | .list pairs => return pairs
    | _ => return []

/-- The pair that a group makes. -/
def groupPair (T : Text) (a : DexScreener) (addresses : Dict String String)
    (group : String × List Json) : Except PyError (Option NormalizedPair) := do
  normalizePair T a (← pickBest (pairKey T) group.2) ((addresses.get? group.1).getD "")

theorem chunkRows_eq (answer : Answer) : chunkRows T a addresses answer = (do
    let pairs ← elements answer
    let groups ← grouped T a addresses pairs
    groups.rows.foldlM (fun rows group => do
      return rows.setSome ((addresses.get? group.1).getD "")
        (← groupPair T a addresses group)) Dict.empty) := by
  unfold chunkRows elements
  match answer with
  | .error _ => rfl
  | .ok none => rfl
  | .ok (some payload) =>
    simp only [groupPair, bind_assoc]
    show _ = (payload.get "pairs" (.list []) >>= _) >>= _
    rw [bind_assoc]
    show payload.get "pairs" (.list []) >>= _ = _
    congr 1
    funext value
    cases value with
    | list pairs => rfl
    | _ => rfl

/-- The rows of an answer are the pairs of its groups. The answer raises where an element of it does
in its grouping, or a group in making its pair. -/
theorem chunkRows_eq_ok {answer : Answer} {rows : Dict String NormalizedPair} :
    chunkRows T a addresses answer = .ok rows ↔
      ∃ pairs groups, elements answer = .ok pairs ∧ grouped T a addresses pairs = .ok groups ∧
        (∀ group ∈ groups.rows, ∃ made, groupPair T a addresses group = .ok made) ∧
        Dict.collect (fun group => (addresses.get? group.1).getD "")
          (fun group => given (groupPair T a addresses group)) groups.rows Dict.empty = rows := by
  rw [chunkRows_eq]
  simp only [bind_eq_ok]
  constructor
  · rintro ⟨pairs, hpairs, groups, hgroups, hrows⟩
    exact ⟨pairs, groups, hpairs, hgroups, Dict.foldlM_eq_ok.mp hrows⟩
  · rintro ⟨pairs, groups, hpairs, hgroups, hrows⟩
    exact ⟨pairs, hpairs, groups, hgroups, Dict.foldlM_eq_ok.mpr hrows⟩

theorem mem_grouped {pairs : List Json} {groups : Dict String (List Json)}
    (h : grouped T a addresses pairs = .ok groups) {g : String × List Json} :
    g ∈ groups.rows ↔
      group T a addresses g.1 pairs ≠ [] ∧ g.2 = group T a addresses g.1 pairs := by
  obtain ⟨address, raws⟩ := g
  rw [← Dict.get?_eq_some, get?_grouped h]
  by_cases hnil : group T a addresses address pairs = []
  · simp [hnil]
  · simp [hnil, eq_comm]

/-- A raw pair is in the group of its own base token. -/
theorem groupOf_eq_some {raw : Json} {address : String}
    (h : groupOf T a addresses raw = .ok (some address)) :
    baseAddress T raw = .ok address ∧ (addresses.get? address).isSome := by
  unfold groupOf at h
  rw [bind_eq_ok] at h
  obtain ⟨chain, -, h⟩ := h
  split at h
  · rw [bind_eq_ok] at h
    obtain ⟨found, hfound, h⟩ := h
    have hgroup := Except.ok.inj h
    split at hgroup
    · rename_i hmapped
      obtain rfl := Option.some.inj hgroup
      exact ⟨hfound, hmapped.2⟩
    · cases hgroup
  · cases h

/-- A row comes from the group of an address that the symbol is mapped to. -/
theorem chunkRows_row {answer : Answer} {rows : Dict String NormalizedPair} {symbol : String}
    {pair : NormalizedPair} (h : chunkRows T a addresses answer = .ok rows)
    (hpair : rows.get? symbol = some pair) :
    ∃ address pairs, addresses.get? address = some symbol ∧ elements answer = .ok pairs ∧
      groupPair T a addresses (address, group T a addresses address pairs) = .ok (some pair) := by
  obtain ⟨pairs, groups, hpairs, hgroups, -, rfl⟩ := chunkRows_eq_ok.mp h
  rw [Dict.get?_collect, Dict.get?_empty, Option.or_none] at hpair
  obtain ⟨⟨address, raws⟩, hg, hrow⟩ := List.exists_of_findSome?_eq_some hpair
  rw [Option.ite_none_right_eq_some, given_eq_some] at hrow
  obtain ⟨hsymbol, hmade⟩ := hrow
  obtain ⟨hne, hraws⟩ := (mem_grouped hgroups).mp (List.mem_reverse.mp hg)
  obtain ⟨raw, hraw⟩ := List.exists_mem_of_ne_nil _ hne
  obtain ⟨known, hknown⟩ :=
    Option.isSome_iff_exists.mp (groupOf_eq_some (mem_group.mp hraw).2).2
  refine ⟨address, pairs, ?_, hpairs, hraws ▸ hmade⟩
  rw [← hsymbol, hknown, Option.getD_some]

/-- The row of a symbol in the merged answers is that of the last answer that has one. -/
theorem get?_merge {results : List (Except PyError (Dict String NormalizedPair))}
    {symbol : String} : (merge results).get? symbol =
      results.reverse.findSome? fun result => given ((·.get? symbol) <$> result) := by
  suffices h : ∀ rows : Dict String NormalizedPair,
      (results.foldl (fun rows result =>
        match result with
        | .error _ => rows
        | .ok more => update rows more) rows).get? symbol =
      (results.reverse.findSome? fun result => given ((·.get? symbol) <$> result)).or
        (rows.get? symbol) by
    rw [merge, h, Dict.get?_empty, Option.or_none]
  intro rows
  induction results generalizing rows with
  | nil => rfl
  | cons result results ih =>
    rw [List.foldl_cons, ih, List.reverse_cons, List.findSome?_append, Option.or_assoc]
    congr 1
    cases result with
    | error e => rfl
    | ok more =>
      show Dict.get? (Table.upsertAll more.rows rows) symbol = _
      rw [Dict.get?_upsertAll_rows]
      congr 1
      show _ = List.findSome? _ [_]
      rw [List.findSome?_singleton]
      rfl

theorem normalizePair_base {raw : Json} {symbol : String} {pair : NormalizedPair}
    (h : a.normalizePair T raw symbol = .ok (some pair)) :
    ∃ address, baseAddress T raw = .ok address ∧ pair.baseTokenAddress = orNone address := by
  unfold normalizePair at h
  simp only [bind_eq_ok] at h
  obtain ⟨_, -, _, -, _, -, _, -, _, -, _, -, _, -, _, -, h⟩ := h
  split at h
  · simp only [bind_eq_ok] at h
    obtain ⟨_, -, _, -, _, -, _, -, _, -, _, -, address, haddress, h⟩ := h
    exact ⟨address, haddress, by rw [← Option.some.inj (Except.ok.inj h)]⟩
  · cases h

end DexScreener

namespace GeckoTerminal

variable {a : GeckoTerminal} {symbol : String} {answer : Answer} {pair : NormalizedPair}

/-- `pool` is the one that `_pick_best_pool` picks from the answer, and `tokens` are those that the
answer includes. -/
def BestPool (T : Text) (answer : Answer) (pool : Json) (tokens : Dict String Json) : Prop :=
  ∃ payload pools included, answer = .ok (some payload) ∧
    payload.get "data" (.list []) = .ok (.list pools) ∧
    payload.get "included" (.list []) = .ok included ∧ buildTokenLookup T included = .ok tokens ∧
    pickBest (poolScore T) pools = .ok pool

/-- The best pool of the answer has the numbers of a pair. -/
def Priced (T : Text) (a : GeckoTerminal) (symbol : String) (answer : Answer) : Prop :=
  ∃ pool tokens pair, BestPool T answer pool tokens ∧
    a.normalizePool T pool symbol tokens = .ok (some pair)

theorem fetchTokenPools_eq_some :
    a.fetchTokenPools T symbol answer = .ok (some pair) ↔
      ∃ pool tokens, BestPool T answer pool tokens ∧
        a.normalizePool T pool symbol tokens = .ok (some pair) := by
  unfold fetchTokenPools
  constructor
  · intro h
    rw [bind_eq_ok] at h
    obtain ⟨payload, hanswer, h⟩ := h
    split at h
    · cases h
    · rw [bind_eq_ok] at h
      obtain ⟨data, hdata, h⟩ := h
      split at h
      · cases h
      · simp only [bind_eq_ok] at h
        obtain ⟨included, hincluded, tokens, htokens, pool, hpool, hpair⟩ := h
        exact ⟨pool, tokens, ⟨_, _, included, hanswer, hdata, hincluded, htokens, hpool⟩, hpair⟩
      · cases h
  · rintro ⟨pool, tokens, ⟨payload, pools, included, rfl, hdata, hincluded, htokens, hpool⟩, hpair⟩
    rw [bind_eq_ok]
    refine ⟨some payload, rfl, ?_⟩
    rw [bind_eq_ok]
    refine ⟨.list pools, hdata, ?_⟩
    obtain ⟨item, items, rfl⟩ := List.exists_cons_of_ne_nil (pickBest_eq_ok hpool).1
    simp only [bind_eq_ok]
    exact ⟨included, hincluded, tokens, htokens, pool, hpool, hpair⟩

theorem BestPool.unique {pool pool' : Json} {tokens tokens' : Dict String Json}
    (h : BestPool T answer pool tokens) (h' : BestPool T answer pool' tokens') :
    pool = pool' ∧ tokens = tokens' := by
  obtain ⟨payload, pools, included, rfl, hdata, hincluded, htokens, hpool⟩ := h
  obtain ⟨payload', pools', included', hpayload, hdata', hincluded', htokens', hpool'⟩ := h'
  obtain rfl := Option.some.inj (Except.ok.inj hpayload)
  obtain rfl : pools = pools' := JsonValue.list.inj (Except.ok.inj (hdata.symm.trans hdata'))
  obtain rfl := Except.ok.inj (hincluded.symm.trans hincluded')
  exact ⟨Except.ok.inj (hpool.symm.trans hpool'), Except.ok.inj (htokens.symm.trans htokens')⟩

theorem priced_iff :
    a.Priced T symbol answer ↔ ∃ pair, a.fetchTokenPools T symbol answer = .ok (some pair) := by
  simp only [fetchTokenPools_eq_some]
  constructor
  · rintro ⟨pool, tokens, pair, hpool, hpair⟩
    exact ⟨pair, pool, tokens, hpool, hpair⟩
  · rintro ⟨pair, pool, tokens, hpool, hpair⟩
    exact ⟨pool, tokens, pair, hpool, hpair⟩

end GeckoTerminal

end Spec

end ChainMonitor.Adapters
