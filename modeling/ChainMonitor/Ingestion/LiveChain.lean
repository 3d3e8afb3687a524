import ChainMonitor.Ingestion.LiveTasks

/-! A fallback chain of live strategies. A strategy hands on its rows only when its own coverage
reaches the threshold, so a later one fills the gaps of those that do. -/

namespace ChainMonitor.Ingestion

open ProofKit Adapters

variable {T : Text} {floats : Floats} {settings : Settings} {live : LiveSource} {ts : ℤ}

/-- The chain of some strategies, on the settings that they share. -/
def liveChain (T : Text) (floats : Floats) (settings : Settings) (lives : List LiveTasks)
    (h : lives ≠ []) : FallbackSourceChain where
  chainId := settings.chainId
  chainSymbols := settings.chainSymbols
  sources := lives.map fun tasks => tasks.fetchMarketTicks T floats settings
  sources_ne_nil := by simpa using h

namespace LiveSource

/-- What a strategy relies on: its adapter answers the address map or raises an
`IngestionFetchError`, and the counts of the pairs that it accepts are in the range of a float. -/
structure Faithful (T : Text) (settings : Settings) (live : LiveSource) : Prop where
  answers : live.addressPairs settings ≠ .error .other
  counts : ∀ pairs symbol pair,
    live.collectPairs settings (settings.names T) (settings.needed T) = .ok pairs →
    pairs.get? symbol = some pair → live.isAcceptable pair = true →
      ∀ n ∈ [pair.buys5m, pair.sells5m, pair.buys5m + pair.sells5m], ∃ m, fifth n = .ok m

/-- The pair of the symbol is acceptable. -/
def Accepts (live : LiveSource) (pairs : Dict String NormalizedPair) (symbol : String) : Prop :=
  ∃ pair, pairs.get? symbol = some pair ∧ live.isAcceptable pair = true

/-- The strategy has an acceptable pair of the symbol, its own coverage reaches the threshold, and
it fails no rule about required symbols. -/
structure Serves (T : Text) (floats : Floats) (settings : Settings) (live : LiveSource)
    (pairs : Dict String NormalizedPair) (symbol : String) : Prop where
  mapped : ∀ s ∈ settings.needed T, (settings.chainTokenAddresses.get? s).isSome = true
  collected : live.collectPairs settings (settings.names T) (settings.needed T) = .ok pairs
  covered : settings.minSuccessRatio ≤ share floats pairs.size (settings.names T).length
  valid : ∀ s ∈ settings.needed T, live.Accepts pairs s
  accepts : live.Accepts pairs symbol

variable {pairs : Dict String NormalizedPair} {rows : List MarketTickInput} {symbol : String}

theorem Faithful.toRow_isOk (h : live.Faithful T settings) (ts : ℤ) {pair : NormalizedPair}
    (hpairs : live.collectPairs settings (settings.names T) (settings.needed T) = .ok pairs)
    (hpair : pairs.get? symbol = some pair) (hacceptable : live.isAcceptable pair = true) :
    ∃ row, toRow T settings ts symbol pair = .ok row :=
  toRow_isOk_iff.mpr (h.counts pairs symbol pair hpairs hpair hacceptable)

theorem Faithful.rowOf_isOk (h : live.Faithful T settings) (ts : ℤ)
    (hpairs : live.collectPairs settings (settings.names T) (settings.needed T) = .ok pairs)
    (symbol : String) : ∃ row, live.rowOf T settings ts pairs symbol = .ok row := by
  unfold rowOf
  cases hpair : (pairs.get? symbol).filter live.isAcceptable with
  | none => exact ⟨none, rfl⟩
  | some pair =>
    obtain ⟨hget, hacceptable⟩ := Option.filter_eq_some_iff.mp hpair
    obtain ⟨row, hrow⟩ := h.toRow_isOk ts hpairs hget hacceptable
    exact ⟨some row, by simp only [hrow]⟩

/-- An acceptable pair of a symbol of the list makes a row. -/
theorem Faithful.mem_toRows (h : live.Faithful T settings)
    (hpairs : live.collectPairs settings (settings.names T) (settings.needed T) = .ok pairs)
    (hrows : live.toRows T settings ts (settings.names T) pairs = .ok rows)
    (hsymbol : symbol ∈ settings.names T) (haccepts : live.Accepts pairs symbol) :
    ∃ row ∈ rows, row.tokenId = tokenId T settings.chainId symbol := by
  obtain ⟨pair, hpair, hacceptable⟩ := haccepts
  obtain ⟨row, hrow⟩ := h.toRow_isOk ts hpairs hpair hacceptable
  have hrowOf : live.rowOf T settings ts pairs symbol = .ok (some row) := by
    have hfilter : (pairs.get? symbol).filter live.isAcceptable = some pair :=
      Option.filter_eq_some_iff.mpr ⟨hpair, hacceptable⟩
    simp only [rowOf, hfilter, hrow]
  obtain ⟨made, hmade, hreduce⟩ := bind_eq_ok.mp hrows
  obtain ⟨other, hmem, hother⟩ := forall₂_mem_left (mapM_eq_ok.mp hmade) hsymbol
  obtain rfl := Except.ok.inj (hrowOf.symm.trans hother)
  rw [← Except.ok.inj hreduce]
  exact ⟨row, List.reduceOption_mem_iff.mpr hmem, tokenId_of_toRow hrow⟩

theorem Faithful.toRows_isOk (h : live.Faithful T settings) (ts : ℤ)
    (hpairs : live.collectPairs settings (settings.names T) (settings.needed T) = .ok pairs) :
    ∃ rows, live.toRows T settings ts (settings.names T) pairs = .ok rows := by
  obtain ⟨made, hmade⟩ := exists_forall₂.mpr fun s (_ : s ∈ settings.names T) =>
    h.rowOf_isOk ts hpairs s
  exact ⟨_, bind_eq_ok.mpr ⟨made, mapM_eq_ok.mpr hmade, rfl⟩⟩

/-- A strategy that serves a symbol returns a row of it. -/
theorem Serves.supplies (h : live.Serves T floats settings pairs symbol) (ts : ℤ)
    (hfaithful : live.Faithful T settings) (hsymbol : symbol ∈ settings.names T) :
    ∃ rows, live.fetchMarketTicks T floats settings ts = .ok rows ∧
      ∃ row ∈ rows, row.tokenId = tokenId T settings.chainId symbol := by
  obtain ⟨rows, hrows⟩ := hfaithful.toRows_isOk ts h.collected
  have hrow := hfaithful.mem_toRows h.collected hrows hsymbol h.accepts
  refine ⟨rows, fetchMarketTicks_eq_ok.mpr ⟨pairs, h.mapped, h.collected, h.covered, hrows, ?_, ?_⟩,
    hrow⟩
  · intro s hs
    obtain ⟨row, hmem, htoken⟩ :=
      hfaithful.mem_toRows h.collected hrows (mem_names_of_needed hs) (h.valid s hs)
    exact List.mem_map.mpr ⟨row, hmem, htoken⟩
  · obtain ⟨row, hmem, -⟩ := hrow
    exact List.ne_nil_of_mem hmem

theorem ite_fail_ne_other {c : Prop} [Decidable c] {α : Type} {reason detail : String} {x : α} :
    (if c then live.fail settings reason detail else .ok x) ≠ .error .other := by
  split
  · intro h
    cases h
  · intro h
    cases h

/-- A faithful strategy raises nothing but an `IngestionFetchError`. -/
theorem Faithful.fetch_ne_other (h : live.Faithful T settings) :
    live.fetchMarketTicks T floats settings ts ≠ .error .other := by
  intro hfetch
  simp only [fetchMarketTicks, bind_eq_error] at hfetch
  rcases hfetch with hmapped | ⟨_, -, hpairs | ⟨pairs, hcollected, hratio | ⟨_, -, hrows |
    ⟨rows, -, hvalid | ⟨_, -, hlast⟩⟩⟩⟩⟩
  · exact ite_fail_ne_other hmapped
  · rw [collectPairs, bind_eq_error] at hpairs
    rcases hpairs with haddresses | ⟨found, -, hunresolved⟩
    · exact h.answers haddresses
    · exact ite_fail_ne_other hunresolved
  · exact ite_fail_ne_other hratio
  · obtain ⟨made, hmade⟩ := h.toRows_isOk ts hcollected
    rw [hmade] at hrows
    cases hrows
  · exact ite_fail_ne_other hvalid
  · exact ite_fail_ne_other hlast

end LiveSource

/-- Where each symbol has an acceptable pair at a strategy whose own coverage reaches the threshold
and whose rules about required symbols hold, the chain returns a row for each symbol. -/
theorem liveChain_fills_gaps (T : Text) (floats : Floats) (settings : Settings)
    (lives : List LiveTasks) (hlives : lives ≠ []) (now : ℤ) (tsMinute : Option ℤ)
    (hfaithful : ∀ tasks ∈ lives, tasks.live.Faithful T settings)
    (huncancelled : ∀ tasks ∈ lives,
      tasks.Uncancelled settings (settings.names T) (settings.needed T))
    (hserved : ∀ symbol ∈ settings.names T, ∃ tasks ∈ lives, ∃ pairs,
      tasks.live.Serves T floats settings pairs symbol) :
    ∃ rows, (liveChain T floats settings lives hlives).fetchMarketTicks T now tsMinute = .ok rows ∧
      rows.map (·.tokenId) = (settings.names T).map (tokenId T settings.chainId) := by
  have hhandled : Handled (normalizeTs now tsMinute)
      (liveChain T floats settings lives hlives).sources := by
    intro source hsource
    obtain ⟨tasks, htasks, rfl⟩ := List.mem_map.mp hsource
    rw [LiveTasks.fetchMarketTicks_of_uncancelled (huncancelled tasks htasks)]
    exact (hfaithful tasks htasks).fetch_ne_other
  have hearliest : ∀ symbol ∈ settings.names T, ∃ row,
      (liveChain T floats settings lives hlives).EarliestRow (normalizeTs now tsMinute)
        (tokenId T settings.chainId symbol) row := by
    intro symbol hsymbol
    rw [← FallbackSourceChain.supplied_iff_earliestRow]
    obtain ⟨tasks, htasks, pairs, hserves⟩ := hserved symbol hsymbol
    obtain ⟨rows, hrows, row, hrow, htoken⟩ :=
      hserves.supplies (normalizeTs now tsMinute) (hfaithful tasks htasks) hsymbol
    rw [← LiveTasks.fetchMarketTicks_of_uncancelled (huncancelled tasks htasks)] at hrows
    exact ⟨_, List.mem_map_of_mem htasks, row, by rw [hrows]; exact hrow, htoken⟩
  obtain ⟨rows, hrows⟩ := exists_forall₂.mpr hearliest
  rw [FallbackSourceChain.fetchMarketTicks_eq hhandled]
  refine ⟨rows, (FallbackSourceChain.answer_asked hhandled).mpr hrows, ?_⟩
  have htokens : List.Forall₂ (· = ·) ((settings.names T).map (tokenId T settings.chainId))
      (rows.map (·.tokenId)) := by
    rw [List.forall₂_map_left_iff, List.forall₂_map_right_iff]
    exact hrows.imp fun symbol row hrow => hrow.tokenId_eq.symm
  rw [List.forall₂_eq_eq_eq] at htokens
  exact htokens.symm

/-! ### Two symbols -/

def splitSettings : Settings := { foreignSettings with chainTokenAddresses := Dict.empty }

/-- A strategy whose adapter has a pair for some of the symbols. -/
def partialStrategy (covered : List String) : LiveSource :=
  DexScreenerSourceStrategy
    { fetchPairsByAddresses := fun _ => .ok Dict.empty
      fetchPairBySymbol := fun _ symbol =>
        .ok (if symbol ∈ covered then some (pairOf symbol) else none) }
    (fun _ => true) "t1"

/-- A call of it, none of whose tasks is cancelled. -/
def partialTasks (covered : List String) : LiveTasks where
  live := partialStrategy covered
  cancelled := fun _ _ => false

/-- What the strategy collects, on the two symbols. -/
def collects (covered : List String) : Option (List (String × NormalizedPair)) :=
  ((partialStrategy covered).collectPairs splitSettings (splitSettings.names Text.plain)
    (splitSettings.needed Text.plain)).toOption.map (·.rows)

theorem collects_eq_some {covered : List String} {rows : List (String × NormalizedPair)}
    (h : collects covered = some rows) :
    ∃ pairs, (partialStrategy covered).collectPairs splitSettings (splitSettings.names Text.plain)
      (splitSettings.needed Text.plain) = .ok pairs ∧ pairs.rows = rows := by
  obtain ⟨pairs, hpairs, hrows⟩ := Option.map_eq_some_iff.mp h
  exact ⟨pairs, toOption_eq_some.mp hpairs, hrows⟩

/-- A strategy that has both pairs serves both symbols, whatever comes before it. -/
theorem liveChain_fills_gaps_after_partial :
    ∃ rows, (liveChain Text.plain Floats.exact splitSettings
        [partialTasks ["BNB"], partialTasks ["BNB", "CAKE"]]
        (List.cons_ne_nil _ _)).fetchMarketTicks Text.plain 0 none = .ok rows ∧
      rows.map (·.tokenId) =
        (splitSettings.names Text.plain).map (tokenId Text.plain splitSettings.chainId) := by
  have hone : collects ["BNB"] = some [("BNB", pairOf "BNB")] := by decide +kernel
  have htwo : collects ["BNB", "CAKE"] = some [("BNB", pairOf "BNB"), ("CAKE", pairOf "CAKE")] := by
    decide +kernel
  have hfaithful : ∀ covered rows, collects covered = some rows →
      (∀ row ∈ rows, row.2 = pairOf row.1) →
      (partialStrategy covered).Faithful Text.plain splitSettings := by
    intro covered rows hrows hpairs
    obtain ⟨collected, hcollected, rfl⟩ := collects_eq_some hrows
    refine ⟨(fun h => by cases h), fun pairs symbol pair hok hpair _ n hn => ?_⟩
    obtain rfl := Except.ok.inj (hcollected.symm.trans hok)
    have hsame : pair = pairOf symbol := hpairs (symbol, pair) (Dict.get?_eq_some.mp hpair)
    have hcounts : n ∈ [10, 5, 15] := by simpa [hsame, pairOf] using hn
    have hfifth : ∀ n ∈ ([10, 5, 15] : List ℤ), (fifth n).toOption.isSome = true := by
      decide +kernel
    obtain ⟨m, hm⟩ := Option.isSome_iff_exists.mp (hfifth n hcounts)
    exact ⟨m, toOption_eq_some.mp hm⟩
  have hneeded : splitSettings.needed Text.plain = ∅ := by decide +kernel
  refine liveChain_fills_gaps Text.plain Floats.exact splitSettings _ _ 0 none ?_ ?_ ?_
  · intro tasks htasks
    rw [List.mem_pair] at htasks
    rcases htasks with rfl | rfl
    · exact hfaithful _ _ hone (by simp)
    · exact hfaithful _ _ htwo (by simp)
  · intro tasks htasks
    rw [List.mem_pair] at htasks
    rcases htasks with rfl | rfl
    · exact fun _ _ _ _ => rfl
    · exact fun _ _ _ _ => rfl
  · obtain ⟨pairs, hpairs, hrows⟩ := collects_eq_some htwo
    intro symbol hsymbol
    have hnames : splitSettings.names Text.plain = ["BNB", "CAKE"] := by decide +kernel
    refine ⟨_, List.mem_cons_of_mem _ (List.mem_singleton_self _), pairs, ?_, hpairs, ?_, ?_,
      pairOf symbol, Dict.get?_eq_some.mpr ?_, rfl⟩
    · simp [hneeded]
    · rw [Dict.size, hrows, hnames]
      decide +kernel
    · simp [hneeded]
    · rw [hnames, List.mem_pair] at hsymbol
      rw [hrows]
      rcases hsymbol with rfl | rfl
      · exact List.mem_cons_self
      · exact List.mem_cons_of_mem _ (List.mem_singleton_self _)

/-- Each symbol has an acceptable pair at one of two strategies, and nothing is required, but the
chain fails: neither strategy reaches the threshold by itself. -/
theorem split_coverage_fails :
    (∀ symbol ∈ splitSettings.names Text.plain,
      ∃ tasks ∈ [partialTasks ["BNB"], partialTasks ["CAKE"]], ∃ pairs,
        tasks.live.collectPairs splitSettings (splitSettings.names Text.plain)
          (splitSettings.needed Text.plain) = .ok pairs ∧ tasks.live.Accepts pairs symbol) ∧
    splitSettings.needed Text.plain = ∅ ∧
    ∀ rows, (liveChain Text.plain Floats.exact splitSettings
      [partialTasks ["BNB"], partialTasks ["CAKE"]]
      (List.cons_ne_nil _ _)).fetchMarketTicks Text.plain 0 none ≠ .ok rows := by
  have hnames : splitSettings.names Text.plain = ["BNB", "CAKE"] := by decide +kernel
  have hcollects : ∀ name : String, collects [name] = some [(name, pairOf name)] → ∃ pairs,
      (partialStrategy [name]).collectPairs splitSettings (splitSettings.names Text.plain)
        (splitSettings.needed Text.plain) = .ok pairs ∧
      (partialStrategy [name]).Accepts pairs name := by
    intro name h
    obtain ⟨pairs, hpairs, hrows⟩ := collects_eq_some h
    refine ⟨pairs, hpairs, pairOf name, Dict.get?_eq_some.mpr ?_, rfl⟩
    rw [hrows]
    exact List.mem_singleton_self _
  refine ⟨fun symbol hsymbol => ?_, by decide +kernel, fun rows hrows => ?_⟩
  · rw [hnames, List.mem_pair] at hsymbol
    rcases hsymbol with rfl | rfl
    · exact ⟨_, List.mem_cons_self, hcollects "BNB" (by decide +kernel)⟩
    · exact ⟨_, List.mem_cons_of_mem _ (List.mem_singleton_self _),
        hcollects "CAKE" (by decide +kernel)⟩
  · have hnone : ((liveChain Text.plain Floats.exact splitSettings
        [partialTasks ["BNB"], partialTasks ["CAKE"]]
        (List.cons_ne_nil _ _)).fetchMarketTicks Text.plain 0 none).toOption.isNone = true := by
      decide +kernel
    rw [hrows] at hnone
    cases hnone

end ChainMonitor.Ingestion
