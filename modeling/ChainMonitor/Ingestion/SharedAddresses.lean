import ChainMonitor.Ingestion.MalformedEntries

/-! Symbols that share an address. GeckoTerminal and Birdeye ask once for each symbol; DexScreener
inverts the map, so that an address keeps the last of its symbols only. All three lose every symbol
when a request of theirs is cancelled. -/

namespace ChainMonitor.Adapters

open ProofKit

variable {T : Text} {map : Dict String String}

/-- Every symbol of an address that has a usable pair has a row in the rows that are returned. -/
def SymbolsKept (T : Text) (map : Dict String String) (usable : String → String → Prop)
    (result : Except PyError (Dict String NormalizedPair)) : Prop :=
  ∀ key address, map.get? key = some address → isBlank T address = false →
    usable (T.upper key) (normalizeAddress T address) →
      ∃ rows, result = .ok rows ∧ (rows.get? (T.upper key)).isSome = true

/-- The last entry of the map with the address has the symbol. -/
def LastNamed (T : Text) (map : Dict String String) (base symbol : String) : Prop :=
  Dict.IsLast (fun e s => isBlank T e.2 = false ∧ normalizeAddress T e.2 = base ∧ T.upper e.1 = s)
    map.rows symbol

/-! ### DexScreener -/

namespace DexScreener

variable {a : DexScreener} {client : List String → Answer} {symbol address : String}

theorem normalized_eq_some :
    (normalized T map).get? address = some symbol ↔ LastNamed T map address symbol := by
  rw [normalized, Dict.ofPairs_filter, Dict.get?_collect, Dict.get?_empty, Option.or_none,
    Dict.findSome?_reverse_eq_some]
  apply Dict.isLast_congr
  intro e _ s
  by_cases haddress : normalizeAddress T e.2 = address
  · by_cases hblank : isBlank T e.2 = false
    · simp [haddress, hblank]
    · simp [haddress, hblank]
  · simp [haddress]

/-- An element of the answer makes a pair of the address. -/
def Usable (T : Text) (a : DexScreener) (map : Dict String String) (address : String)
    (answer : Answer) : Prop :=
  ∃ pairs raw pair, elements answer = .ok pairs ∧ raw ∈ pairs ∧
    groupOf T a (normalized T map) raw = .ok (some address) ∧
    a.normalizePair T raw "" = .ok (some pair)

/-- Nothing in the answer raises, and the best of its elements of the address has the numbers of a
pair. -/
def Makes (T : Text) (a : DexScreener) (map : Dict String String) (address : String)
    (answer : Answer) : Prop :=
  ∃ pairs pair, elements answer = .ok pairs ∧ Survives T a (normalized T map) pairs ∧
    groupPair T a (normalized T map) (address, group T a (normalized T map) address pairs) =
      .ok (some pair)

theorem fetch_isSome_iff : ((a.fetchPairsByAddresses T map client).get? symbol).isSome = true ↔
    ∃ base, LastNamed T map base symbol ∧ ∃ c ∈ chunks T map, Makes T a map base (client c) := by
  have hrow : ((a.fetchPairsByAddresses T map client).get? symbol).isSome = true ↔
      ∃ c ∈ chunks T map, ∃ rows, chunkRows T a (normalized T map) (client c) = .ok rows ∧
        (rows.get? symbol).isSome = true := by
    rw [fetchPairsByAddresses, get?_merge, List.isSome_findSome?, List.any_reverse, List.any_map,
      List.any_eq_true]
    refine exists_congr fun c => and_congr_right fun _ => ?_
    show (given ((·.get? symbol) <$> chunkRows T a (normalized T map) (client c))).isSome = true ↔ _
    cases chunkRows T a (normalized T map) (client c) with
    | error e => simp [given]
    | ok rows => simp [given]
  rw [hrow]
  constructor
  · rintro ⟨c, hc, rows, hrows, hsome⟩
    obtain ⟨base, pairs, hmapped, hpairs, pair, hmade⟩ := (chunkRows_isSome hrows).mp hsome
    have hsurvives := (chunkRows_isOk hpairs).mp ⟨rows, hrows⟩
    exact ⟨base, normalized_eq_some.mp hmapped, c, hc, pairs, pair, hpairs, hsurvives, hmade⟩
  · rintro ⟨base, hlast, c, hc, pairs, pair, hpairs, hsurvives, hmade⟩
    obtain ⟨rows, hrows⟩ := (chunkRows_isOk hpairs).mpr hsurvives
    refine ⟨c, hc, rows, hrows, (chunkRows_isSome hrows).mpr ?_⟩
    exact ⟨base, pairs, normalized_eq_some.mpr hlast, hpairs, pair, hmade⟩

end DexScreener

/-- The request is answered, and the answer is as `P` says. -/
def Replied (P : Answer → Prop) (ending : Ending (Option Json)) : Prop :=
  ∃ answer, ending = .returned answer ∧ P answer

theorem replied_iff {P : Answer → Prop} {ending : Ending (Option Json)} :
    Replied P ending ↔ ending ≠ .cancelledError ∧ P ending.answer := by
  cases ending with
  | returned answer => simp [Replied, Ending.answer]
  | cancelledError => simp [Replied]

namespace DexScreener

variable {a : DexScreener} {client : List String → Ending (Option Json)} {symbol : String}

/-- Some answer has a usable pair of the address. -/
def Answered (T : Text) (a : DexScreener) (map : Dict String String)
    (client : List String → Ending (Option Json)) (address : String) : Prop :=
  ∃ c ∈ chunks T map, Replied (Usable T a map address) (client c)

theorem gather_isSome_iff :
    (∃ rows, a.gatherPairsByAddresses T map client = .ok rows ∧
      (rows.get? symbol).isSome = true) ↔
    (∀ c ∈ chunks T map, client c ≠ .cancelledError) ∧
      ∃ base, LastNamed T map base symbol ∧
        ∃ c ∈ chunks T map, Replied (Makes T a map base) (client c) := by
  have hmakes : (∀ c ∈ chunks T map, client c ≠ .cancelledError) → ∀ base,
      ((∃ c ∈ chunks T map, Replied (Makes T a map base) (client c)) ↔
        ∃ c ∈ chunks T map, Makes T a map base (client c).answer) := by
    intro hnone base
    refine exists_congr fun c => and_congr_right fun hc => ?_
    rw [replied_iff]
    exact and_iff_right (hnone c hc)
  simp only [gatherPairsByAddresses_eq_ok]
  constructor
  · rintro ⟨rows, ⟨hnone, rfl⟩, hsome⟩
    refine ⟨hnone, ?_⟩
    simpa only [hmakes hnone] using fetch_isSome_iff.mp hsome
  · rintro ⟨hnone, hlast⟩
    refine ⟨_, ⟨hnone, rfl⟩, fetch_isSome_iff.mpr ?_⟩
    simpa only [hmakes hnone] using hlast

/-- A symbol keeps its row when no request is cancelled, and it is the last one of an address, its
own or another one, whose pair an answer makes. -/
theorem symbolsKept_iff :
    SymbolsKept T map (fun _ address => Answered T a map client address)
      (a.gatherPairsByAddresses T map client) ↔
    ∀ key address, map.get? key = some address → isBlank T address = false →
      Answered T a map client (normalizeAddress T address) →
        (∀ c ∈ chunks T map, client c ≠ .cancelledError) ∧
          ∃ base, LastNamed T map base (T.upper key) ∧
            ∃ c ∈ chunks T map, Replied (Makes T a map base) (client c) := by
  unfold SymbolsKept
  refine forall₂_congr fun key address => ?_
  rw [gather_isSome_iff]

end DexScreener

/-! ### One request for each symbol -/

theorem gather_isSome {task : String × String → Except PyError (Option NormalizedPair)}
    {requests : List (String × String)} {request : String × String} {pair : NormalizedPair}
    (hmem : request ∈ requests) (htask : task request = .ok (some pair)) :
    ((gather task requests).get? request.1).isSome = true := by
  rw [get?_gather, List.isSome_findSome?, List.any_eq_true]
  refine ⟨request, List.mem_reverse.mpr hmem, ?_⟩
  rw [if_pos rfl, htask]
  rfl

/-- A task for each symbol loses no symbol when no request is cancelled. -/
theorem gatherTasks_kept
    (task : String × String → Answer → Except PyError (Option NormalizedPair))
    {client : String → Ending (Option Json)} :
    SymbolsKept T map (fun symbol address =>
        Replied (fun answer => ∃ pair, task (symbol, address) answer = .ok (some pair))
          (client address)) (gatherTasks task client (tasks T map)) ↔
      ∀ key address, map.get? key = some address → isBlank T address = false →
        Replied (fun answer => ∃ pair, task (T.upper key, normalizeAddress T address) answer =
          .ok (some pair)) (client (normalizeAddress T address)) →
        ∀ request ∈ tasks T map, client request.2 ≠ .cancelledError := by
  unfold SymbolsKept
  refine forall_congr' fun key => forall_congr' fun address => forall_congr' fun hkey =>
    forall_congr' fun hblank => forall_congr' fun hreplied => ?_
  simp only [gatherTasks_eq_ok]
  constructor
  · rintro ⟨rows, ⟨hnone, -⟩, -⟩
    exact hnone
  · intro hnone
    obtain ⟨-, pair, hpair⟩ := replied_iff.mp hreplied
    exact ⟨_, ⟨hnone, rfl⟩, gather_isSome (mem_tasks.mpr ⟨key, address, hkey, hblank, rfl⟩) hpair⟩

/-- A pair of the token. -/
def bonkPair : Json :=
  .dict [("chainId", .str "solana"), ("baseToken", .dict [("address", .str "DezXAZ8z")]),
    ("priceUsd", .str "1.5"), ("volume", .dict [("m5", .int 1200)]),
    ("liquidity", .dict [("usd", .int 90000)]),
    ("txns", .dict [("m5", .dict [("buys", .int 4), ("sells", .int 3)])])]

def bonkAnswer (_ : List String) : Ending (Option Json) :=
  .returned (.ok (some (.dict [("pairs", .list [bonkPair])])))

/-- Two symbols of one address. -/
def bonkTwice : Dict String String := Dict.ofPairs [("BONK", "DezXAZ8z"), ("WBONK", "DezXAZ8z")]

end ChainMonitor.Adapters
