import ChainMonitor.Ingestion.Adapters
import ChainMonitor.Ingestion.FallbackChain
import Mathlib.Algebra.Order.Floor.Defs
import Mathlib.Data.Finset.Sort
import Mathlib.Data.Rat.Defs
import Mathlib.Algebra.Order.Field.Rat
import Mathlib.Order.Lattice
import Mathlib.Data.String.Basic
import Mathlib.Tactic.Positivity

/-! The live strategies of `ingestion/strategies`. Each resolves the symbols to pairs by the mapped
addresses and then one by one, checks how many it has resolved, and makes the rows of the pairs that
the quality policy accepts. -/

namespace ChainMonitor.Ingestion

open ProofKit Adapters

/-- Python's `float` as the ratio uses it: an exact value is rounded, in order, and 0 and 1 stay. -/
structure Floats where
  round : ℚ → ℚ
  monotone : Monotone round
  round_zero : round 0 = 0
  round_one : round 1 = 1
  /-- `f"{x:.3f}"`. -/
  fixed : ℚ → String

/-- The settings of a chain. -/
structure Settings where
  chainId : String
  chainSymbols : String
  chainTokenAddresses : Dict String String
  minSuccessRatio : ℚ
  requiredAddressSymbols : Finset String
  isProduction : Bool
  requireAddressMappingInProduction : Bool

/-- What an adapter answers in one call: to the address map, and to the `n`-th symbol task. -/
structure ProviderAdapter where
  fetchPairsByAddresses : Dict String String → Except Failure (Dict String NormalizedPair)
  fetchPairBySymbol : ℕ → String → Except Failure (Option NormalizedPair)

/-- `DefaultPairQualityPolicy`, with what the settings hold for its chain. -/
structure DefaultPairQualityPolicy where
  dexBlacklistIds : Finset String
  routeBlacklistKeywords : List String
  minPairAgeSeconds : ℤ
  maxVolumeLiquidityRatio : Float

def DefaultPairQualityPolicy.isAcceptable (T : Text) (policy : DefaultPairQualityPolicy)
    (now : Float) (pair : NormalizedPair) : Bool :=
  let dexId := T.lower (.ofList (strip T pair.dexId.toList))
  let routeSignal := T.lower pair.pairAddress ++ "|" ++ T.lower pair.url
  if dexId ≠ "" ∧ dexId ∈ policy.dexBlacklistIds then false
  else if policy.routeBlacklistKeywords.any fun keyword =>
      keyword.toList <:+: routeSignal.toList then
    false
  else
    match pair.pairCreatedAtMs with
    | none => false
    | some pairCreatedAtMs =>
      let ageSeconds := now - Float.ofInt pairCreatedAtMs / 1000
      if ageSeconds < Float.ofInt policy.minPairAgeSeconds then false
      else if pair.priceUsd ≤ 0 then false
      else if pair.volume5m < 0 ∨ pair.liquidityUsd < 0 ∨ pair.buys5m < 0 ∨ pair.sells5m < 0 then
        false
      else if pair.liquidityUsd > 0 ∧
          pair.volume5m / pair.liquidityUsd > policy.maxVolumeLiquidityRatio then false
      else true

/-- One call of a live strategy. -/
structure LiveSource where
  adapter : ProviderAdapter
  /-- `is_acceptable` of the quality policy, on this chain. -/
  isAcceptable : NormalizedPair → Bool
  traceId : String
  noValidRows : String

def DexScreenerSourceStrategy (adapter : ProviderAdapter) (isAcceptable : NormalizedPair → Bool)
    (traceId : String) : LiveSource where
  adapter := adapter
  isAcceptable := isAcceptable
  traceId := traceId
  noValidRows := "all pairs filtered by quality gates"

def GeckoTerminalSourceStrategy (adapter : ProviderAdapter) (isAcceptable : NormalizedPair → Bool)
    (traceId : String) : LiveSource where
  adapter := adapter
  isAcceptable := isAcceptable
  traceId := traceId
  noValidRows := "all geckoterminal pairs filtered by quality gates"

def BirdeyeSourceStrategy (adapter : ProviderAdapter) (isAcceptable : NormalizedPair → Bool)
    (traceId : String) : LiveSource where
  adapter := adapter
  isAcceptable := isAcceptable
  traceId := traceId
  noValidRows := "all birdeye pairs filtered by quality gates"

/-- `int(n / 5)`. -/
def fifth (n : ℤ) : Except PyError ℤ := do return max 0 (← PyFloat.toInt (← PyFloat.divInt n 5))

namespace LiveSource

variable (T : Text) (floats : Floats) (settings : Settings) (live : LiveSource)

def fail {α : Type} (reason detail : String) : Except Failure α :=
  .error (.fetch
    { reason := reason
      detail := detail
      chainId := settings.chainId
      traceId := live.traceId })

/-- `f"symbols={','.join(sorted(names))}"`. -/
def listing (names : Finset String) : String := "symbols=" ++ ",".intercalate (names.sort (· ≤ ·))

/-- `_required_address_symbols`. -/
def required (names : List String) : Finset String :=
  if settings.requiredAddressSymbols ≠ ∅ then settings.requiredAddressSymbols ∩ names.toFinset
  else if settings.isProduction ∧ settings.requireAddressMappingInProduction then names.toFinset
  else ∅

end LiveSource

/-- `_symbols()`. -/
abbrev Settings.names (T : Text) (settings : Settings) : List String :=
  symbols T settings.chainSymbols

abbrev Settings.needed (T : Text) (settings : Settings) : Finset String :=
  LiveSource.required settings (settings.names T)

namespace LiveSource

variable (T : Text) (floats : Floats) (settings : Settings) (live : LiveSource)

def validateRequiredMappings (required : Finset String) : Except Failure Unit :=
  let missing := required.filter fun symbol =>
    (settings.chainTokenAddresses.get? symbol).isNone
  if missing ≠ ∅ then live.fail settings "required_mapping_missing" (listing missing) else .ok ()

/-- The pairs of the mapped addresses. -/
def addressPairs : Except Failure (Dict String NormalizedPair) :=
  if settings.chainTokenAddresses.rows = [] then .ok Dict.empty
  else do
    return update Dict.empty
      (← live.adapter.fetchPairsByAddresses settings.chainTokenAddresses)

/-- The symbols that are asked for one by one. -/
def remaining (names : List String) (required : Finset String)
    (pairs : Dict String NormalizedPair) : List String :=
  names.filter fun symbol => (pairs.get? symbol).isNone ∧ symbol ∉ required

def collectPairs (names : List String) (required : Finset String) :
    Except Failure (Dict String NormalizedPair) := do
  let pairs ← live.addressPairs settings
  let unresolved := required.filter fun symbol => (pairs.get? symbol).isNone
  if unresolved ≠ ∅ then
    live.fail settings "required_symbol_unresolved" (listing unresolved)
  else
    return Dict.collect Prod.fst (fun task => given (live.adapter.fetchPairBySymbol task.2 task.1))
      (remaining names required pairs).zipIdx pairs

/-- `len(pairs) / max(1, len(symbols))`. -/
def share (count total : ℕ) : ℚ := floats.round (count / max 1 total)

def validateSuccessRatio (names : List String) (pairs : Dict String NormalizedPair) :
    Except Failure Unit :=
  let successRatio := share floats pairs.size names.length
  if successRatio < settings.minSuccessRatio then
    live.fail settings "insufficient_coverage" ("ratio=" ++ floats.fixed successRatio ++
      ", threshold=" ++ floats.fixed settings.minSuccessRatio)
  else .ok ()

def toRow (ts : ℤ) (symbol : String) (pair : NormalizedPair) : Except PyError MarketTickInput := do
  let buys1m ← fifth pair.buys5m
  let sells1m ← fifth pair.sells5m
  let txCount1m ← fifth (pair.buys5m + pair.sells5m)
  return {
    chainId := settings.chainId
    tokenId := tokenId T settings.chainId symbol
    tsMinute := ts
    priceUsd := pair.priceUsd
    volume1m := Birdeye.nonnegative (pair.volume5m / 5)
    volume5m := Birdeye.nonnegative pair.volume5m
    liquidityUsd := Birdeye.nonnegative pair.liquidityUsd
    buys1m := buys1m
    sells1m := sells1m
    txCount1m := txCount1m }

/-- The row of a symbol, if it has a pair that is acceptable. -/
def rowOf (ts : ℤ) (pairs : Dict String NormalizedPair) (symbol : String) :
    Except Failure (Option MarketTickInput) :=
  match (pairs.get? symbol).filter live.isAcceptable with
  | none => .ok none
  | some pair =>
    match toRow T settings ts symbol pair with
    | .ok row => .ok (some row)
    | .error _ => .error .other

def toRows (ts : ℤ) (names : List String) (pairs : Dict String NormalizedPair) :
    Except Failure (List MarketTickInput) := do
  return (← names.mapM (live.rowOf T settings ts pairs)).reduceOption

def validateRequiredRows (required : Finset String) (rows : List MarketTickInput) :
    Except Failure Unit :=
  let missing := required.filter fun symbol =>
    tokenId T settings.chainId symbol ∉ rows.map (·.tokenId)
  if missing ≠ ∅ then live.fail settings "required_symbol_invalid" (listing missing) else .ok ()

def fetchMarketTicks (ts : ℤ) : Except Failure (List MarketTickInput) := do
  let required := settings.needed T
  live.validateRequiredMappings settings required
  let pairs ← live.collectPairs settings (settings.names T) required
  live.validateSuccessRatio floats settings (settings.names T) pairs
  let rows ← live.toRows T settings ts (settings.names T) pairs
  live.validateRequiredRows T settings required rows
  if rows = [] then live.fail settings "no_valid_rows" live.noValidRows else return rows

end LiveSource

/-! ### What a call returns -/

namespace LiveSource

variable {T : Text} {floats : Floats} {settings : Settings} {live : LiveSource} {ts : ℤ}
  {names : List String} {needed : Finset String} {pairs found : Dict String NormalizedPair}
  {rows : List MarketTickInput}

theorem fail_ne_ok {α : Type} {reason detail : String} {x : α} :
    live.fail settings reason detail ≠ .ok x := by
  intro h
  cases h

theorem validateRequiredMappings_eq_ok {u : Unit} :
    live.validateRequiredMappings settings needed = .ok u ↔
      ∀ symbol ∈ needed, (settings.chainTokenAddresses.get? symbol).isSome = true := by
  have hmissing : (needed.filter fun symbol =>
      (settings.chainTokenAddresses.get? symbol).isNone) = ∅ ↔
      ∀ symbol ∈ needed, (settings.chainTokenAddresses.get? symbol).isSome = true := by
    simp [Finset.filter_eq_empty_iff, Option.isSome_iff_ne_none]
  rw [← hmissing, validateRequiredMappings]
  split
  · rename_i h
    exact ⟨fun hok => absurd hok fail_ne_ok, fun hnil => absurd hnil h⟩
  · rename_i h
    exact ⟨fun _ => not_not.mp h, fun _ => rfl⟩

theorem validateRequiredRows_eq_ok {u : Unit} :
    live.validateRequiredRows T settings needed rows = .ok u ↔
      ∀ symbol ∈ needed, tokenId T settings.chainId symbol ∈ rows.map (·.tokenId) := by
  have hmissing : (needed.filter fun symbol =>
      tokenId T settings.chainId symbol ∉ rows.map (·.tokenId)) = ∅ ↔
      ∀ symbol ∈ needed, tokenId T settings.chainId symbol ∈ rows.map (·.tokenId) := by
    simp [Finset.filter_eq_empty_iff]
  rw [← hmissing, validateRequiredRows]
  split
  · rename_i h
    exact ⟨fun hok => absurd hok fail_ne_ok, fun hnil => absurd hnil h⟩
  · rename_i h
    exact ⟨fun _ => not_not.mp h, fun _ => rfl⟩

theorem validateSuccessRatio_eq_ok {u : Unit} :
    live.validateSuccessRatio floats settings names pairs = .ok u ↔
      settings.minSuccessRatio ≤ share floats pairs.size names.length := by
  rw [validateSuccessRatio, ← not_lt]
  split
  · rename_i h
    exact ⟨fun hok => absurd hok fail_ne_ok, fun hge => absurd h hge⟩
  · rename_i h
    exact ⟨fun _ => h, fun _ => rfl⟩

/-- A required symbol is one of the list. -/
theorem mem_names_of_needed {symbol : String} (h : symbol ∈ settings.needed T) :
    symbol ∈ settings.names T := by
  unfold Settings.needed required at h
  split at h
  · exact List.mem_toFinset.mp (Finset.mem_inter.mp h).2
  · split at h
    · exact List.mem_toFinset.mp h
    · simp at h

theorem tokenId_of_toRow {symbol : String} {pair : NormalizedPair}
    {row : MarketTickInput}
    (h : toRow T settings ts symbol pair = .ok row) :
    row.tokenId = tokenId T settings.chainId symbol := by
  simp only [toRow, bind_eq_ok] at h
  obtain ⟨_, -, _, -, _, -, h⟩ := h
  rw [← Except.ok.inj h]

/-- A pair makes a row when its counts are in the range of a float. -/
theorem toRow_isOk_iff {symbol : String} {pair : NormalizedPair} :
    (∃ row, toRow T settings ts symbol pair = .ok row) ↔
      ∀ n ∈ [pair.buys5m, pair.sells5m, pair.buys5m + pair.sells5m], ∃ m, fifth n = .ok m := by
  simp only [toRow, bind_eq_ok]
  constructor
  · rintro ⟨row, buys, hbuys, sells, hsells, all, hall, -⟩
    simp [hbuys, hsells, hall]
  · intro h
    obtain ⟨buys, hbuys⟩ := h pair.buys5m (by simp)
    obtain ⟨sells, hsells⟩ := h pair.sells5m (by simp)
    obtain ⟨all, hall⟩ := h (pair.buys5m + pair.sells5m) (by simp)
    exact ⟨_, buys, hbuys, sells, hsells, all, hall, rfl⟩

/-- The pairs are those of the addresses, and over them those of the symbol tasks. -/
theorem collectPairs_eq_ok : live.collectPairs settings names needed = .ok pairs ↔
    ∃ found, live.addressPairs settings = .ok found ∧
      (∀ symbol ∈ needed, (found.get? symbol).isSome = true) ∧
      Dict.collect Prod.fst (fun task => given (live.adapter.fetchPairBySymbol task.2 task.1))
        (remaining names needed found).zipIdx found = pairs := by
  rw [collectPairs, bind_eq_ok]
  refine exists_congr fun found => and_congr_right fun _ => ?_
  have hunresolved : (needed.filter fun symbol => (found.get? symbol).isNone) = ∅ ↔
      ∀ symbol ∈ needed, (found.get? symbol).isSome = true := by
    simp [Finset.filter_eq_empty_iff, Option.isSome_iff_ne_none]
  rw [← hunresolved]
  dsimp only
  split
  · rename_i h
    exact ⟨fun hok => absurd hok fail_ne_ok, fun hnil => absurd hnil.1 h⟩
  · rename_i h
    exact ⟨fun hok => ⟨not_not.mp h, Except.ok.inj hok⟩, fun hok => congrArg Except.ok hok.2⟩

/-- A call that passes every check, with the pairs that it collects and the rows that it makes of
them. -/
structure Passes (T : Text) (floats : Floats) (settings : Settings) (live : LiveSource) (ts : ℤ)
    (pairs : Dict String NormalizedPair) (rows : List MarketTickInput) : Prop where
  mapped : ∀ symbol ∈ settings.needed T,
    (settings.chainTokenAddresses.get? symbol).isSome = true
  collected : live.collectPairs settings (settings.names T)
    (settings.needed T) = .ok pairs
  covered : settings.minSuccessRatio ≤
    share floats pairs.size (settings.names T).length
  made : live.toRows T settings ts (settings.names T) pairs = .ok rows
  valid : ∀ symbol ∈ settings.needed T,
    tokenId T settings.chainId symbol ∈ rows.map (·.tokenId)
  nonempty : rows ≠ []

theorem fetchMarketTicks_eq_ok : live.fetchMarketTicks T floats settings ts = .ok rows ↔
    ∃ pairs, live.Passes T floats settings ts pairs rows := by
  have hend : ∀ more : List MarketTickInput,
      (if more = [] then live.fail settings "no_valid_rows" live.noValidRows else .ok more) =
        .ok rows ↔ more = rows ∧ rows ≠ [] := by
    intro more
    split
    · rename_i h
      exact ⟨fun hok => absurd hok fail_ne_ok, fun hne => absurd (hne.1 ▸ h) hne.2⟩
    · rename_i h
      exact ⟨fun hok => Except.ok.inj hok ▸ ⟨rfl, h⟩, fun hne => congrArg Except.ok hne.1⟩
  simp only [fetchMarketTicks, bind_eq_ok, validateRequiredMappings_eq_ok,
    validateSuccessRatio_eq_ok, validateRequiredRows_eq_ok]
  constructor
  · rintro ⟨_, hmapped, pairs, hpairs, _, hratio, more, hrows, _, hrequired, hlast⟩
    obtain ⟨rfl, hne⟩ := (hend more).mp hlast
    exact ⟨pairs, hmapped, hpairs, hratio, hrows, hrequired, hne⟩
  · rintro ⟨pairs, hmapped, hpairs, hratio, hrows, hrequired, hne⟩
    exact ⟨(), hmapped, pairs, hpairs, (), hratio, rows, hrows, (), hrequired,
      (hend rows).mpr ⟨rfl, hne⟩⟩

/-! ### The coverage gate -/

/-- The adapter has a pair for the symbol: at its address, or in a task of the symbol. `found` are
the pairs of the addresses. -/
def resolves (live : LiveSource) (names : List String) (needed : Finset String)
    (found : Dict String NormalizedPair) (symbol : String) : Bool :=
  (found.get? symbol).isSome || (remaining names needed found).zipIdx.any fun task =>
    task.1 = symbol && (given (live.adapter.fetchPairBySymbol task.2 task.1)).isSome

/-- The tokens outside the symbol list for which the address map has brought a pair. -/
def foreign (names : List String) (found : Dict String NormalizedPair) : List String :=
  found.keys.filter fun key => key ∉ names

theorem get?_isSome_iff (h : live.collectPairs settings names needed = .ok pairs)
    (hfound : live.addressPairs settings = .ok found) (symbol : String) :
    (pairs.get? symbol).isSome = live.resolves names needed found symbol := by
  obtain ⟨found', hfound', -, rfl⟩ := collectPairs_eq_ok.mp h
  obtain rfl := Except.ok.inj (hfound.symm.trans hfound')
  rw [Dict.get?_collect, Option.isSome_or, List.isSome_findSome?, List.any_reverse, resolves,
    Bool.or_comm]
  congr 2
  funext task
  by_cases hsymbol : task.1 = symbol
  · simp [hsymbol]
  · simp [hsymbol]

/-- Only a symbol of the list has a task. -/
theorem resolves_of_notMem {symbol : String} (h : symbol ∉ names) :
    live.resolves names needed found symbol = (found.get? symbol).isSome := by
  rw [resolves, Bool.or_eq_left_iff_imp]
  intro hany
  obtain ⟨⟨name, n⟩, hmem, htask⟩ := List.any_eq_true.mp hany
  have hname : name = symbol := by simpa using (Bool.and_eq_true_iff.mp htask).1
  have hremaining := List.fst_mem_of_mem_zipIdx hmem
  exact absurd (hname ▸ (List.mem_filter.mp hremaining).1) h

/-- The symbols of the list that the adapter has a pair for. -/
def resolved (live : LiveSource) (names : List String) (needed : Finset String)
    (found : Dict String NormalizedPair) : List String :=
  names.filter fun symbol => live.resolves names needed found symbol

/-- The pairs are those of the different symbols that are resolved, and the foreign ones. -/
theorem size_eq (h : live.collectPairs settings names needed = .ok pairs)
    (hfound : live.addressPairs settings = .ok found) :
    pairs.size =
      (live.resolved names needed found).dedup.length + (foreign names found).length := by
  have hresolved : (names.filter fun symbol => (pairs.get? symbol).isSome) =
      live.resolved names needed found :=
    List.filter_congr fun symbol _ => get?_isSome_iff h hfound symbol
  have hforeign : (pairs.keys.filter fun key => key ∉ names).Perm (foreign names found) := by
    refine (List.perm_ext_iff_of_nodup (pairs.nodup_keys.filter _)
      (found.nodup_keys.filter _)).mpr ?_
    intro key
    rw [List.mem_filter, List.mem_filter, decide_eq_true_iff, Dict.mem_keys, Dict.mem_keys,
      get?_isSome_iff h hfound]
    exact and_congr_left fun hnot => by rw [resolves_of_notMem hnot]
  rw [pairs.size_eq_add names, hresolved, hforeign.length_eq]

theorem share_mono {m n total : ℕ} (h : m ≤ n) : share floats m total ≤ share floats n total := by
  apply floats.monotone
  apply div_le_div_of_nonneg_right
  · exact_mod_cast h
  · exact_mod_cast Nat.zero_le _

theorem share_nonneg {n total : ℕ} : 0 ≤ share floats n total := by
  rw [← floats.round_zero]
  apply floats.monotone
  positivity

theorem share_le_one {n total : ℕ} (h : n ≤ total) : share floats n total ≤ 1 := by
  rw [← floats.round_one]
  apply floats.monotone
  apply div_le_one_of_le₀
  · exact_mod_cast h.trans (Nat.le_max_right 1 total)
  · positivity

/-- At least the least share of the requested symbols has a pair, and the ratio that is tested is a
share. -/
def Measured (T : Text) (floats : Floats) (settings : Settings) (live : LiveSource) : Prop :=
  ∀ pairs, live.collectPairs settings (settings.names T) (settings.needed T) = .ok pairs →
    settings.minSuccessRatio ≤ share floats
      ((settings.names T).filter fun symbol => (pairs.get? symbol).isSome).length
      (settings.names T).length ∧
    0 ≤ share floats pairs.size (settings.names T).length ∧
    share floats pairs.size (settings.names T).length ≤ 1

/-- The gate measures the requested symbols exactly when the address map brings no pair of another
token, or so few that the ratio stays a share and the requested symbols reach the threshold without
them. -/
theorem measured_iff (T : Text) (floats : Floats) (settings : Settings) (live : LiveSource)
    (ts : ℤ) :
    (∀ rows, live.fetchMarketTicks T floats settings ts = .ok rows →
      live.Measured T floats settings) ↔
    ∀ pairs rows found, live.Passes T floats settings ts pairs rows →
      live.addressPairs settings = .ok found →
      foreign (settings.names T) found = [] ∨
      share floats ((live.resolved (settings.names T) (settings.needed T) found).dedup.length +
        (foreign (settings.names T) found).length) (settings.names T).length ≤ 1 ∧
      settings.minSuccessRatio ≤ share floats
        (live.resolved (settings.names T) (settings.needed T) found).length
        (settings.names T).length := by
  have hresolved : ∀ pairs found,
      live.collectPairs settings (settings.names T) (settings.needed T) = .ok pairs →
      live.addressPairs settings = .ok found →
      ((settings.names T).filter fun symbol => (pairs.get? symbol).isSome) =
        live.resolved (settings.names T) (settings.needed T) found := by
    intro pairs found hpairs hfound
    exact List.filter_congr fun symbol _ => get?_isSome_iff hpairs hfound symbol
  constructor
  · intro h pairs rows found hpasses hfound
    obtain ⟨hrequested, -, hle⟩ := h rows (fetchMarketTicks_eq_ok.mpr ⟨pairs, hpasses⟩) pairs
      hpasses.collected
    rw [hresolved pairs found hpasses.collected hfound] at hrequested
    rw [size_eq hpasses.collected hfound] at hle
    exact .inr ⟨hle, hrequested⟩
  · intro h rows hrows pairs' hpairs'
    obtain ⟨pairs, hpasses⟩ := fetchMarketTicks_eq_ok.mp hrows
    obtain rfl := Except.ok.inj (hpasses.collected.symm.trans hpairs')
    obtain ⟨found, hfound, -⟩ := collectPairs_eq_ok.mp hpasses.collected
    have hsize := size_eq hpasses.collected hfound
    rw [hresolved pairs found hpasses.collected hfound]
    rcases h pairs rows found hpasses hfound with hnone | ⟨hle, hrequested⟩
    · rw [hnone, List.length_nil, Nat.add_zero] at hsize
      have hdedup := (live.resolved (settings.names T) (settings.needed T) found).dedup_sublist
      have hcount := hdedup.length_le
      have htotal : (live.resolved (settings.names T) (settings.needed T) found).length ≤
          (settings.names T).length := List.length_filter_le _ _
      refine ⟨hpasses.covered.trans ?_, share_nonneg, share_le_one ?_⟩
      · rw [hsize]
        exact share_mono hcount
      · omega
    · rw [hsize]
      exact ⟨hrequested, share_nonneg, hle⟩

end LiveSource

/-- Ratios that need no rounding. -/
def Floats.exact : Floats where
  round := id
  monotone := monotone_id
  round_zero := rfl
  round_one := rfl
  fixed x :=
    let thousandths := (x * 1000 + 1 / 2).floor
    toString (thousandths / 1000) ++ "." ++
      .ofList ((toString (thousandths % 1000 + 1000)).toList.drop 1)

/-- Two symbols, and a map that names two other tokens as well. -/
def foreignSettings : Settings where
  chainId := "bsc"
  chainSymbols := "BNB,CAKE"
  chainTokenAddresses := Dict.ofPairs [("BNB", "0xb"), ("DOGE", "0xd"), ("SHIB", "0xs")]
  minSuccessRatio := 3 / 5
  requiredAddressSymbols := ∅
  isProduction := false
  requireAddressMappingInProduction := true

def pairOf (symbol : String) : NormalizedPair where
  chainId := "bsc"
  symbol := symbol
  source := "dexscreener"
  priceUsd := 2
  volume5m := 500
  liquidityUsd := 90000
  buys5m := 10
  sells5m := 5
  pairCreatedAtMs := some 0
  dexId := ""
  pairAddress := ""
  url := ""
  baseTokenAddress := none

/-- An adapter that has a pair for each mapped token but `CAKE`. -/
def foreignAdapter : ProviderAdapter where
  fetchPairsByAddresses _ := .ok (Dict.ofPairs
    [("BNB", pairOf "BNB"), ("DOGE", pairOf "DOGE"), ("SHIB", pairOf "SHIB")])
  fetchPairBySymbol _ _ := .ok none

/-- Three pairs pass for two symbols, of which one is resolved. -/
theorem LiveSource.foreign_pairs_counted :
    ¬∀ rows, (DexScreenerSourceStrategy foreignAdapter (fun _ => true) "t1").fetchMarketTicks
        Text.plain Floats.exact foreignSettings 0 = .ok rows →
      (DexScreenerSourceStrategy foreignAdapter (fun _ => true) "t1").Measured
        Text.plain Floats.exact foreignSettings := by
  intro h
  have hrows : ((DexScreenerSourceStrategy foreignAdapter (fun _ => true) "t1").fetchMarketTicks
      Text.plain Floats.exact foreignSettings 0).toOption.isSome = true := by
    decide +kernel
  have hratio : ((DexScreenerSourceStrategy foreignAdapter (fun _ => true) "t1").collectPairs
      foreignSettings (foreignSettings.names Text.plain)
      (foreignSettings.needed Text.plain)).toOption.map (fun pairs => decide
        (share Floats.exact pairs.size (foreignSettings.names Text.plain).length ≤ 1)) =
      some false := by
    decide +kernel
  obtain ⟨rows, hrows⟩ := Option.isSome_iff_exists.mp hrows
  obtain ⟨pairs, hpairs, hgt⟩ := Option.map_eq_some_iff.mp hratio
  have hle := (h rows (toOption_eq_some.mp hrows) pairs (toOption_eq_some.mp hpairs)).2.2
  exact absurd hle (of_decide_eq_false hgt)

end ChainMonitor.Ingestion
