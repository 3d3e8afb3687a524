import ChainMonitor.Ingestion.Adapters

/-! Whose price the pairs carry that `fetch_pairs_by_addresses` returns. DexScreener groups the
pairs of an answer by their base token and Birdeye asks for one token's own data. GeckoTerminal
takes the pool with the greatest reserve, whichever side of it the token is on. -/

namespace ChainMonitor.Adapters

open ProofKit

variable {T : Text} {map : Dict String String}

/-- The map gives the symbol an address that `base` is the normal form of. -/
def Names (T : Text) (map : Dict String String) (symbol base : String) : Prop :=
  ∃ key address, map.get? key = some address ∧ T.upper key = symbol ∧
    normalizeAddress T address = base

/-- The pairs are those of their symbols' own tokens, where their base tokens are known. -/
def Attributed (T : Text) (map : Dict String String) (rows : Dict String NormalizedPair) : Prop :=
  ∀ symbol pair base, rows.get? symbol = some pair → pair.baseTokenAddress = some base →
    Names T map symbol base

theorem eq_of_orNone {address base : String} (h : orNone address = some base) : address = base := by
  unfold orNone at h
  split at h
  · cases h
  · exact Option.some.inj h

/-! ### DexScreener -/

namespace DexScreener

variable {a : DexScreener} {addresses : Dict String String}

/-- The rows of an answer belong to mapped addresses, each to the base token of its pair. -/
theorem chunkRows_attributed {answer : Answer} {rows : Dict String NormalizedPair} {symbol base}
    {pair : NormalizedPair} (h : chunkRows T a addresses answer = .ok rows)
    (hpair : rows.get? symbol = some pair) (hbase : pair.baseTokenAddress = some base) :
    addresses.get? base = some symbol := by
  obtain ⟨address, pairs, hmapped, -, hmade⟩ := chunkRows_row h hpair
  rw [groupPair, bind_eq_ok] at hmade
  obtain ⟨best, hbest, hnormal⟩ := hmade
  have hgroup := (mem_group.mp (pickBest_mem hbest)).2
  obtain ⟨known, hknown, hpairBase⟩ := normalizePair_base hnormal
  obtain rfl := Except.ok.inj ((groupOf_eq_some hgroup).1.symm.trans hknown)
  rw [hpairBase] at hbase
  rw [← eq_of_orNone hbase, hmapped]

theorem attributed (client : List String → Answer) :
    Attributed T map (a.fetchPairsByAddresses T map client) := by
  intro symbol pair base hpair hbase
  rw [fetchPairsByAddresses, get?_merge] at hpair
  obtain ⟨result, hmem, hrow⟩ := List.exists_of_findSome?_eq_some hpair
  rw [given_eq_some, map_eq_ok] at hrow
  obtain ⟨rows, rfl, hrow⟩ := hrow
  obtain ⟨c, -, hrows⟩ := List.mem_map.mp (List.mem_reverse.mp hmem)
  obtain ⟨key, mapped, hkey, -, hsymbol, hbase⟩ :=
    get?_normalized (chunkRows_attributed hrows hrow hbase)
  exact ⟨key, mapped, hkey, hsymbol, hbase⟩

end DexScreener

/-! ### Birdeye -/

namespace Birdeye

variable {a : Birdeye}

theorem fetchMarketData_base {symbol address : String} {answer : Answer} {pair : NormalizedPair}
    (h : a.fetchMarketData T symbol address answer = .ok (some pair)) :
    pair.baseTokenAddress = some address := by
  unfold fetchMarketData at h
  rw [bind_eq_ok] at h
  obtain ⟨payload, -, h⟩ := h
  split at h
  · cases h
  · rw [bind_eq_ok] at h
    obtain ⟨data, -, h⟩ := h
    split at h
    · simp only [bind_eq_ok] at h
      obtain ⟨_, -, _, -, _, -, _, -, _, -, _, -, _, -, _, -, _, -, _, -, h⟩ := h
      split at h
      · simp only [bind_eq_ok] at h
        obtain ⟨_, -, _, -, _, -, _, -, _, -, _, -, _, -, h⟩ := h
        rw [← Option.some.inj (Except.ok.inj h)]
      · cases h
    · cases h

theorem attributed (client : String → Answer) :
    Attributed T map (a.fetchPairsByAddresses T map client) := by
  intro symbol pair base hpair hbase
  obtain ⟨before, request, after, hsplit, ⟨rfl, htask⟩, -⟩ := get?_gather_eq_some.mp hpair
  have hmem : request ∈ tasks T map := by simp [hsplit]
  obtain ⟨key, address, hkey, -, rfl⟩ := mem_tasks.mp hmem
  rw [fetchMarketData_base htask] at hbase
  exact ⟨key, address, hkey, rfl, Option.some.inj hbase⟩

end Birdeye

/-! ### GeckoTerminal -/

namespace GeckoTerminal

variable {a : GeckoTerminal}

/-- The base token of a pool, if it is known. -/
def baseToken (T : Text) (pool : Json) (tokens : Dict String Json) :
    Except PyError (Option String) := do
  resolveBaseTokenAddress T pool (← pool.get "attributes" .empty) tokens

theorem normalizePool_base {pool : Json} {symbol : String} {tokens : Dict String Json}
    {pair : NormalizedPair} (h : a.normalizePool T pool symbol tokens = .ok (some pair)) :
    baseToken T pool tokens = .ok pair.baseTokenAddress := by
  unfold normalizePool at h
  rw [bind_eq_ok] at h
  obtain ⟨attributes, hattributes, h⟩ := h
  split at h
  · simp only [bind_eq_ok] at h
    obtain ⟨_, -, _, -, _, -, _, -, _, -, _, -, h⟩ := h
    split at h
    · simp only [bind_eq_ok] at h
      obtain ⟨_, -, _, -, _, -, _, -, base, hbase, h⟩ := h
      rw [← Option.some.inj (Except.ok.inj h), baseToken, bind_eq_ok]
      exact ⟨attributes, hattributes, hbase⟩
    · cases h
  · cases h

/-- The pairs are those of their own tokens when each best pool that makes the pair of a symbol has
the mapped token as its base token, or none that is known. -/
theorem attributed_iff (client : String → Answer) :
    Attributed T map (a.fetchPairsByAddresses T map client) ↔
      ∀ before request after pool tokens base, tasks T map = before ++ request :: after →
        (∀ later ∈ after, later.1 = request.1 → ¬a.Priced T later.1 (client later.2)) →
        a.Priced T request.1 (client request.2) → BestPool T (client request.2) pool tokens →
        baseToken T pool tokens = .ok (some base) → Names T map request.1 base := by
  constructor
  · rintro h before request after pool tokens base hsplit hafter
      ⟨pool', tokens', pair, hpool, hpair⟩ hbest hbase
    obtain ⟨rfl, rfl⟩ := hpool.unique hbest
    have htask := fetchTokenPools_eq_some.mpr ⟨pool', tokens', hpool, hpair⟩
    have hrow : (a.fetchPairsByAddresses T map client).get? request.1 = some pair := by
      refine get?_gather_eq_some.mpr ⟨before, request, after, hsplit, ⟨rfl, htask⟩, ?_⟩
      rintro later hlater p ⟨hsymbol, hp⟩
      exact hafter later hlater hsymbol (priced_iff.mpr ⟨p, hp⟩)
    exact h request.1 pair base hrow (Except.ok.inj ((normalizePool_base hpair).symm.trans hbase))
  · intro h symbol pair base hpair hbase
    obtain ⟨before, request, after, hsplit, ⟨rfl, htask⟩, hafter⟩ := get?_gather_eq_some.mp hpair
    obtain ⟨pool, tokens, hpool, hnormal⟩ := fetchTokenPools_eq_some.mp htask
    refine h before request after pool tokens base hsplit ?_ ⟨pool, tokens, pair, hpool, hnormal⟩
      hpool ?_
    · intro later hlater hsymbol hlast
      obtain ⟨p, hp⟩ := priced_iff.mp hlast
      exact hafter later hlater p ⟨hsymbol, hp⟩
    · rw [normalizePool_base hnormal, hbase]

end GeckoTerminal

/-! ### The three adapters -/

/-- Two of the adapters keep to the mapped tokens. GeckoTerminal does when the base token of each
pool that prices a symbol is the mapped one. -/
theorem price_attribution (T : Text) (map : Dict String String) :
    (∀ (a : DexScreener) client, Attributed T map (a.fetchPairsByAddresses T map client)) ∧
    (∀ (a : Birdeye) client, Attributed T map (a.fetchPairsByAddresses T map client)) ∧
    ∀ (a : GeckoTerminal) client, Attributed T map (a.fetchPairsByAddresses T map client) ↔
      ∀ before request after pool tokens base, tasks T map = before ++ request :: after →
        (∀ later ∈ after, later.1 = request.1 → ¬a.Priced T later.1 (client later.2)) →
        a.Priced T request.1 (client request.2) →
        GeckoTerminal.BestPool T (client request.2) pool tokens →
        GeckoTerminal.baseToken T pool tokens = .ok (some base) → Names T map request.1 base :=
  ⟨fun _ client => DexScreener.attributed client, fun _ client => Birdeye.attributed client,
    fun _ client => GeckoTerminal.attributed_iff client⟩

/-- The pools of a token: one in which it is quoted against another. -/
def quotedPool : Json :=
  .dict [("data", .list [.dict [("attributes", .dict
    [("base_token_price_usd", .str "3000.5"), ("base_token_address", .str "0xWETH"),
      ("volume_usd", .dict [("m5", .str "1200")]), ("reserve_in_usd", .str "900000"),
      ("transactions", .dict [("m5", .dict [("buys", .int 4), ("sells", .int 3)])])])]])]

/-- The row of the quoted token has the price of the other token of the pool. -/
theorem quoted_token_mispriced :
    ¬Attributed Text.plain (Dict.ofPairs [("pepe", "0xPEPE")])
      ((GeckoTerminal.mk "eth").fetchPairsByAddresses Text.plain
        (Dict.ofPairs [("pepe", "0xPEPE")]) fun _ => .ok (some quotedPool)) := by
  intro h
  have hrow : (((GeckoTerminal.mk "eth").fetchPairsByAddresses Text.plain
      (Dict.ofPairs [("pepe", "0xPEPE")]) fun _ => .ok (some quotedPool)).get? "PEPE").map
        (fun pair => (pair.priceUsd, pair.baseTokenAddress)) = some (3000.5, some "0xweth") := by
    decide +kernel
  obtain ⟨pair, hpair, hbase⟩ := Option.map_eq_some_iff.mp hrow
  obtain ⟨key, address, hkey, -, haddress⟩ := h "PEPE" pair "0xweth" hpair (congrArg Prod.snd hbase)
  have hmem := Dict.get?_eq_some.mp hkey
  obtain ⟨rfl, rfl⟩ := Prod.mk.inj (List.mem_singleton.mp hmem)
  revert haddress
  decide +kernel

end ChainMonitor.Adapters
