import ChainMonitor.Ingestion.LiveChain

/-! Which rows a live strategy guarantees, when tasks of symbols may also be cancelled. -/

namespace ChainMonitor.Ingestion

open ProofKit Adapters

namespace LiveTasks

variable {T : Text} {floats : Floats} {settings : Settings} {tasks : LiveTasks} {ts : ℤ}
  {names : List String} {needed : Finset String} {pairs : Dict String Resolved}
  {found : Dict String NormalizedPair} {symbol : String}

/-! ### What a call guarantees -/

/-- The pair comes from the address lookup, or, for a symbol that is not required, from a task. -/
def Origin (T : Text) (settings : Settings) (tasks : LiveTasks) (symbol : String)
    (pair : NormalizedPair) : Prop :=
  (∃ found, tasks.live.addressPairs settings = .ok found ∧ found.get? symbol = some pair) ∨
    symbol ∉ settings.needed T ∧
      ∃ n, tasks.live.adapter.fetchPairBySymbol n symbol = .ok (some pair)

/-- The rows are those of some of the symbols, in their order, among them all that are required.
Each is made of a pair that is acceptable. -/
def Guaranteed (T : Text) (settings : Settings) (tasks : LiveTasks) (ts : ℤ)
    (rows : List MarketTickInput) : Prop :=
  rows ≠ [] ∧ ∃ chosen : List String, chosen.Sublist (settings.names T) ∧
    List.Forall₂ (fun symbol row => ∃ pair, Origin T settings tasks symbol pair ∧
      tasks.live.isAcceptable pair = true ∧
      LiveSource.toRow T settings ts symbol pair = .ok row) chosen rows ∧
    ∀ symbol ∈ settings.needed T, symbol ∈ chosen

/-- An `IngestionFetchError`, or rows that are guaranteed. -/
def Honoured (T : Text) (settings : Settings) (tasks : LiveTasks) (ts : ℤ) :
    Except Failure (List MarketTickInput) → Prop
  | .error (.fetch _) => True
  | .error .other => False
  | .ok rows => Guaranteed T settings tasks ts rows

/-- What the adapter brings for a symbol: in the last task of it that leaves something, or at its
address. -/
def brought (T : Text) (settings : Settings) (tasks : LiveTasks)
    (found : Dict String NormalizedPair) (symbol : String) : Option Resolved :=
  ((LiveSource.remaining (settings.names T) (settings.needed T) found).zipIdx.reverse.findSome?
    fun task => if task.1 = symbol then tasks.result task.2 task.1 else none).or
      ((found.get? symbol).map .pair)

/-- The share of the symbols that the adapter brings something for, with the tokens outside the
symbol list that the address map names. -/
def coverage (T : Text) (floats : Floats) (settings : Settings) (tasks : LiveTasks)
    (found : Dict String NormalizedPair) : ℚ :=
  LiveSource.share floats
    (((settings.names T).filter fun symbol =>
      (brought T settings tasks found symbol).isSome).dedup.length +
        (LiveSource.foreign (settings.names T) found).length) (settings.names T).length

/-- The adapter brings an acceptable pair of the symbol. -/
def Accepted (T : Text) (settings : Settings) (tasks : LiveTasks)
    (found : Dict String NormalizedPair) (symbol : String) : Prop :=
  ∃ pair, brought T settings tasks found symbol = some (.pair pair) ∧
    tasks.live.isAcceptable pair = true

/-- What the rows need of the answers: no symbol is left with a `CancelledError`, the counts of
acceptable pairs are in the range of a float, and no required symbol passes on the row of another
one with its token id. -/
structure Clean (T : Text) (settings : Settings) (tasks : LiveTasks)
    (found : Dict String NormalizedPair) : Prop where
  uncancelled : ∀ symbol ∈ settings.names T,
    brought T settings tasks found symbol ≠ some .cancelledError
  counts : ∀ symbol ∈ settings.names T, ∀ pair,
    brought T settings tasks found symbol = some (.pair pair) →
    tasks.live.isAcceptable pair = true →
      ∀ n ∈ [pair.buys5m, pair.sells5m, pair.buys5m + pair.sells5m], ∃ m, fifth n = .ok m
  own : (∀ symbol ∈ settings.needed T, ∃ other ∈ settings.names T,
      Accepted T settings tasks found other ∧
        tokenId T settings.chainId other = tokenId T settings.chainId symbol) →
    ∀ symbol ∈ settings.needed T, Accepted T settings tasks found symbol

/-- The address lookup answers with all the required symbols, and the coverage reaches the least
share: what has to hold for rows to be made at all. -/
structure Proceeds (T : Text) (floats : Floats) (settings : Settings) (tasks : LiveTasks)
    (found : Dict String NormalizedPair) : Prop where
  looked : tasks.live.addressPairs settings = .ok found
  resolved : ∀ symbol ∈ settings.needed T, (found.get? symbol).isSome = true
  covered : settings.minSuccessRatio ≤ coverage T floats settings tasks found

/-- Without a task there is only the address lookup. -/
theorem brought_of_no_task
    (h : symbol ∉ LiveSource.remaining (settings.names T) (settings.needed T) found) :
    brought T settings tasks found symbol = (found.get? symbol).map .pair := by
  have hnone : ((LiveSource.remaining (settings.names T)
      (settings.needed T) found).zipIdx.reverse.findSome?
        fun task => if task.1 = symbol then tasks.result task.2 task.1 else none) = none := by
    rw [List.findSome?_eq_none_iff]
    intro task htask
    apply if_neg
    rintro rfl
    exact h (List.fst_mem_of_mem_zipIdx (List.mem_reverse.mp htask))
  rw [brought, hnone]
  rfl

/-- Required symbols have no tasks. -/
theorem brought_of_needed (h : symbol ∈ settings.needed T) :
    brought T settings tasks found symbol = (found.get? symbol).map .pair := by
  apply brought_of_no_task
  intro hmem
  have hfilter := (List.mem_filter.mp hmem).2
  simp [h] at hfilter

theorem origin_of_brought {pair : NormalizedPair}
    (hfound : tasks.live.addressPairs settings = .ok found)
    (h : brought T settings tasks found symbol = some (.pair pair)) :
    Origin T settings tasks symbol pair := by
  by_cases hneeded : symbol ∈ settings.needed T
  · rw [brought_of_needed hneeded, Option.map_eq_some_iff] at h
    obtain ⟨own, hown, hpair⟩ := h
    cases hpair
    exact .inl ⟨found, hfound, hown⟩
  · rcases Option.or_eq_some_iff.mp h with htask | ⟨-, hown⟩
    · obtain ⟨⟨name, n⟩, -, hresult⟩ := List.exists_of_findSome?_eq_some htask
      rw [Option.ite_none_right_eq_some] at hresult
      obtain ⟨rfl, hresult⟩ := hresult
      unfold result at hresult
      split at hresult
      · cases hresult
      · obtain ⟨made, hmade, hpair⟩ := Option.map_eq_some_iff.mp hresult
        cases hpair
        exact .inr ⟨hneeded, n, given_eq_some.mp hmade⟩
    · obtain ⟨own, hown, hpair⟩ := Option.map_eq_some_iff.mp hown
      cases hpair
      exact .inl ⟨found, hfound, hown⟩

/-- The ratio counts the listed symbols that the adapter brings something for, and the other keys of
the lookup. -/
theorem share_eq_coverage (floats : Floats)
    (hget : ∀ symbol, pairs.get? symbol = brought T settings tasks found symbol) :
    LiveSource.share floats pairs.size (settings.names T).length =
      coverage T floats settings tasks found := by
  have hothers : (pairs.keys.filter fun key => key ∉ settings.names T).length =
      (LiveSource.foreign (settings.names T) found).length := by
    apply List.Perm.length_eq
    refine (List.perm_ext_iff_of_nodup (pairs.nodup_keys.filter _)
      (found.nodup_keys.filter _)).mpr ?_
    intro key
    rw [List.mem_filter, List.mem_filter, decide_eq_true_iff, Dict.mem_keys, Dict.mem_keys, hget]
    refine and_congr_left fun hnot => ?_
    rw [brought_of_no_task fun hmem => hnot (List.mem_filter.mp hmem).1, Option.isSome_map]
  rw [Dict.size_eq_add pairs (settings.names T), hothers, coverage]
  simp only [hget]

/-- Where every required symbol is found at its address, the pairs are what the adapter brings. -/
theorem collectPairs_isOk (floats : Floats)
    (hfound : tasks.live.addressPairs settings = .ok found)
    (hresolved : ∀ symbol ∈ settings.needed T, (found.get? symbol).isSome = true) :
    ∃ pairs, tasks.collectPairs settings (settings.names T) (settings.needed T) = .ok pairs ∧
      (∀ symbol, pairs.get? symbol = brought T settings tasks found symbol) ∧
      LiveSource.share floats pairs.size (settings.names T).length =
        coverage T floats settings tasks found := by
  have hunresolved :
      ¬((settings.needed T).filter fun symbol => (found.get? symbol).isNone) ≠ ∅ := by
    rw [not_not, Finset.filter_eq_empty_iff]
    intro symbol hsymbol
    simpa [Option.isSome_iff_ne_none] using hresolved symbol hsymbol
  have hget : ∀ symbol, (Dict.collect Prod.fst (fun task => tasks.result task.2 task.1)
      (LiveSource.remaining (settings.names T) (settings.needed T) found).zipIdx
        (found.mapValues .pair)).get? symbol = brought T settings tasks found symbol := by
    intro symbol
    rw [Dict.get?_collect, Dict.get?_mapValues]
    rfl
  refine ⟨_, ?_, hget, share_eq_coverage floats hget⟩
  rw [collectPairs, hfound]
  exact if_neg hunresolved

section Rows

variable (hget : ∀ symbol, pairs.get? symbol = brought T settings tasks found symbol)
include hget

theorem rowOf_eq_some {row : MarketTickInput} :
    tasks.rowOf T settings ts pairs symbol = .ok (some row) ↔
      ∃ pair, brought T settings tasks found symbol = some (.pair pair) ∧
        tasks.live.isAcceptable pair = true ∧
        LiveSource.toRow T settings ts symbol pair = .ok row := by
  unfold rowOf
  rw [hget]
  cases brought T settings tasks found symbol with
  | none => simp
  | some value =>
    cases value with
    | cancelledError => simp
    | pair pair =>
      by_cases hok : tasks.live.isAcceptable pair = true
      · cases hrow : LiveSource.toRow T settings ts symbol pair with
        | error e => simp [hok, hrow]
        | ok made => simp [hok, hrow]
      · simp [hok]

theorem rowOf_isOk : (∃ row, tasks.rowOf T settings ts pairs symbol = .ok row) ↔
    brought T settings tasks found symbol ≠ some .cancelledError ∧
      ∀ pair, brought T settings tasks found symbol = some (.pair pair) →
        tasks.live.isAcceptable pair = true →
          ∀ n ∈ [pair.buys5m, pair.sells5m, pair.buys5m + pair.sells5m], ∃ m, fifth n = .ok m := by
  have hcounts : ∀ pair, (∀ n ∈ [pair.buys5m, pair.sells5m, pair.buys5m + pair.sells5m],
      ∃ m, fifth n = .ok m) ↔ ∃ row, LiveSource.toRow T settings ts symbol pair = .ok row :=
    fun pair => LiveSource.toRow_isOk_iff.symm
  simp only [hcounts]
  unfold rowOf
  rw [hget]
  cases brought T settings tasks found symbol with
  | none => simp
  | some value =>
    cases value with
    | cancelledError => simp
    | pair pair =>
      by_cases hok : tasks.live.isAcceptable pair = true
      · cases hrow : LiveSource.toRow T settings ts symbol pair with
        | error e => simp [hok, hrow]
        | ok made => simp [hok, hrow]
      · simp [hok]

end Rows

theorem rowOf_error {e : Failure} (h : tasks.rowOf T settings ts pairs symbol = .error e) :
    e = .other := by
  unfold rowOf at h
  split at h
  · cases h
  · cases h
    rfl
  · split at h
    · split at h
      · cases h
      · cases h
        rfl
    · cases h

section Made

variable {rows : List MarketTickInput}
  (hget : ∀ symbol, pairs.get? symbol = brought T settings tasks found symbol)
include hget

/-- The symbols of the rows are those with an acceptable pair. -/
theorem rows_made (hrows : tasks.toRows T settings ts (settings.names T) pairs = .ok rows) :
    ∃ chosen : List String, chosen.Sublist (settings.names T) ∧
      List.Forall₂ (fun symbol row => ∃ pair,
        brought T settings tasks found symbol = some (.pair pair) ∧
          tasks.live.isAcceptable pair = true ∧
          LiveSource.toRow T settings ts symbol pair = .ok row) chosen rows ∧
      ∀ symbol, symbol ∈ chosen ↔
        symbol ∈ settings.names T ∧ Accepted T settings tasks found symbol := by
  obtain ⟨made, hmade, hreduce⟩ := bind_eq_ok.mp hrows
  obtain rfl := Except.ok.inj hreduce
  refine ⟨_, List.filter_sublist,
    (forall₂_reduceOption hmade).imp fun symbol row hrow => (rowOf_eq_some hget).mp hrow, ?_⟩
  intro symbol
  rw [List.mem_filter]
  refine and_congr_right fun hsymbol => ?_
  rw [Option.isSome_iff_exists]
  constructor
  · rintro ⟨row, hrow⟩
    obtain ⟨pair, hpair, hok, -⟩ := (rowOf_eq_some hget).mp (given_eq_some.mp hrow)
    exact ⟨pair, hpair, hok⟩
  · rintro ⟨pair, hpair, hok⟩
    obtain ⟨option, hoption⟩ := exists_of_mapM_eq_ok hmade symbol hsymbol
    obtain ⟨row, hrow⟩ := LiveSource.toRow_isOk_iff.mpr
      (((rowOf_isOk hget).mp ⟨option, hoption⟩).2 pair hpair hok)
    exact ⟨row, given_eq_some.mpr ((rowOf_eq_some hget).mpr ⟨pair, hpair, hok, hrow⟩)⟩

theorem tokenId_mem_rows (hrows : tasks.toRows T settings ts (settings.names T) pairs = .ok rows)
    (id : String) : id ∈ rows.map (·.tokenId) ↔
      ∃ other ∈ settings.names T, Accepted T settings tasks found other ∧
        tokenId T settings.chainId other = id := by
  obtain ⟨chosen, -, hforall, hchosen⟩ := rows_made hget hrows
  have htokens : chosen.map (tokenId T settings.chainId) = rows.map (·.tokenId) := by
    rw [← List.forall₂_eq_eq_eq, List.forall₂_map_left_iff, List.forall₂_map_right_iff]
    refine hforall.imp fun symbol row hrow => ?_
    obtain ⟨pair, -, -, hrow⟩ := hrow
    exact (LiveSource.tokenId_of_toRow hrow).symm
  rw [← htokens, List.mem_map]
  simp only [hchosen, and_assoc]

theorem guaranteed_iff (hfound : tasks.live.addressPairs settings = .ok found)
    (hrows : tasks.toRows T settings ts (settings.names T) pairs = .ok rows) (hne : rows ≠ []) :
    Guaranteed T settings tasks ts rows ↔
      ∀ symbol ∈ settings.needed T, Accepted T settings tasks found symbol := by
  constructor
  · rintro ⟨-, chosen, -, hforall, hneeded⟩ symbol hsymbol
    obtain ⟨row, -, pair, horigin, hok, -⟩ := forall₂_mem_left hforall (hneeded symbol hsymbol)
    rcases horigin with ⟨found', hfound', hpair⟩ | ⟨hnot, -⟩
    · obtain rfl := Except.ok.inj (hfound.symm.trans hfound')
      exact ⟨pair, by rw [brought_of_needed hsymbol, hpair]; rfl, hok⟩
    · exact absurd hsymbol hnot
  · intro haccepted
    obtain ⟨chosen, hsublist, hforall, hchosen⟩ := rows_made hget hrows
    refine ⟨hne, chosen, hsublist, hforall.imp fun symbol row hrow => ?_, ?_⟩
    · obtain ⟨pair, hpair, hok, hrow⟩ := hrow
      exact ⟨pair, origin_of_brought hfound hpair, hok, hrow⟩
    · intro symbol hsymbol
      exact (hchosen symbol).mpr
        ⟨LiveSource.mem_names_of_needed hsymbol, haccepted symbol hsymbol⟩

/-- The last two checks let through the rows in which each required symbol finds its token id. -/
theorem honoured_of_rows (hfound : tasks.live.addressPairs settings = .ok found)
    (hrows : tasks.toRows T settings ts (settings.names T) pairs = .ok rows) :
    Honoured T settings tasks ts (do
        tasks.live.validateRequiredRows T settings (settings.needed T) rows
        if rows = [] then tasks.live.fail settings "no_valid_rows" tasks.live.noValidRows
        else return rows) ↔
      ((∀ symbol ∈ settings.needed T,
          tokenId T settings.chainId symbol ∈ rows.map (·.tokenId)) →
        ∀ symbol ∈ settings.needed T, Accepted T settings tasks found symbol) := by
  have hcheck : tasks.live.validateRequiredRows T settings (settings.needed T) rows = .ok () ↔
      ∀ symbol ∈ settings.needed T, tokenId T settings.chainId symbol ∈ rows.map (·.tokenId) :=
    LiveSource.validateRequiredRows_eq_ok
  by_cases hvalid : ∀ symbol ∈ settings.needed T,
      tokenId T settings.chainId symbol ∈ rows.map (·.tokenId)
  · rw [hcheck.mpr hvalid]
    show Honoured T settings tasks ts (if rows = [] then _ else .ok rows) ↔ _
    by_cases hnil : rows = []
    · subst hnil
      have hnone : ∀ symbol, symbol ∉ settings.needed T := by
        intro symbol hsymbol
        simpa using hvalid symbol hsymbol
      rw [if_pos rfl]
      exact ⟨fun _ _ symbol hsymbol => absurd hsymbol (hnone symbol), fun _ => trivial⟩
    · rw [if_neg hnil]
      exact (guaranteed_iff hget hfound hrows hnil).trans ⟨fun h _ => h, fun h => h hvalid⟩
  · have hfail : ∃ detail, tasks.live.validateRequiredRows T settings (settings.needed T) rows =
        tasks.live.fail settings "required_symbol_invalid" detail := by
      unfold LiveSource.validateRequiredRows at hcheck ⊢
      dsimp only at hcheck ⊢
      split at hcheck
      · rename_i hmissing
        exact ⟨_, if_pos hmissing⟩
      · exact absurd (hcheck.mp rfl) hvalid
    obtain ⟨detail, hfail⟩ := hfail
    rw [hfail]
    exact ⟨fun _ h => absurd h hvalid, fun _ => trivial⟩

end Made

/-- Where every required symbol has a mapping, a call starts with the pairs. -/
theorem fetchMarketTicks_of_mapped (ts : ℤ)
    (hmapped : ∀ symbol ∈ settings.needed T,
      (settings.chainTokenAddresses.get? symbol).isSome = true) :
    tasks.fetchMarketTicks T floats settings ts = (do
      let pairs ← tasks.collectPairs settings (settings.names T) (settings.needed T)
      tasks.validateSuccessRatio floats settings (settings.names T) pairs
      let rows ← tasks.toRows T settings ts (settings.names T) pairs
      tasks.live.validateRequiredRows T settings (settings.needed T) rows
      if rows = [] then tasks.live.fail settings "no_valid_rows" tasks.live.noValidRows
      else return rows) := by
  have hmappings : tasks.live.validateRequiredMappings settings (settings.needed T) = .ok () :=
    LiveSource.validateRequiredMappings_eq_ok.mpr hmapped
  rw [fetchMarketTicks, hmappings]
  rfl

/-- A call whose answers pass their checks makes its rows of what the adapter brings. -/
theorem fetchMarketTicks_of_proceeds (ts : ℤ)
    (hmapped : ∀ symbol ∈ settings.needed T,
      (settings.chainTokenAddresses.get? symbol).isSome = true)
    (h : Proceeds T floats settings tasks found) :
    ∃ pairs : Dict String Resolved,
      (∀ symbol, pairs.get? symbol = brought T settings tasks found symbol) ∧
      tasks.fetchMarketTicks T floats settings ts = (do
        let rows ← tasks.toRows T settings ts (settings.names T) pairs
        tasks.live.validateRequiredRows T settings (settings.needed T) rows
        if rows = [] then tasks.live.fail settings "no_valid_rows" tasks.live.noValidRows
        else return rows) := by
  obtain ⟨pairs, hpairs, hget, hsize⟩ := collectPairs_isOk floats h.looked h.resolved
  refine ⟨pairs, hget, ?_⟩
  have hratio : tasks.validateSuccessRatio floats settings (settings.names T) pairs = .ok () := by
    rw [validateSuccessRatio, hsize]
    exact if_neg (not_lt.mpr h.covered)
  rw [fetchMarketTicks_of_mapped ts hmapped, hpairs]
  show (tasks.validateSuccessRatio floats settings (settings.names T) pairs >>= _) = _
  rw [hratio]
  rfl

/-- Such a call is honoured when the answers are clean. -/
theorem honoured_of_proceeds
    (hmapped : ∀ symbol ∈ settings.needed T,
      (settings.chainTokenAddresses.get? symbol).isSome = true)
    (h : Proceeds T floats settings tasks found) :
    Honoured T settings tasks ts (tasks.fetchMarketTicks T floats settings ts) ↔
      Clean T settings tasks found := by
  obtain ⟨pairs, hget, hfetch⟩ := fetchMarketTicks_of_proceeds ts hmapped h
  rw [hfetch]
  by_cases hisOk : ∀ symbol ∈ settings.names T, ∃ row,
      tasks.rowOf T settings ts pairs symbol = .ok row
  · obtain ⟨made, hmade⟩ := exists_forall₂.mpr hisOk
    have hrows : tasks.toRows T settings ts (settings.names T) pairs = .ok made.reduceOption :=
      bind_eq_ok.mpr ⟨made, mapM_eq_ok.mpr hmade, rfl⟩
    have hrow := fun symbol hsymbol => (rowOf_isOk hget).mp (hisOk symbol hsymbol)
    rw [hrows]
    refine (honoured_of_rows hget h.looked hrows).trans ?_
    simp only [tokenId_mem_rows hget hrows]
    exact ⟨fun hown => ⟨fun symbol hsymbol => (hrow symbol hsymbol).1,
      fun symbol hsymbol => (hrow symbol hsymbol).2, hown⟩, Clean.own⟩
  · have hother : tasks.toRows T settings ts (settings.names T) pairs = .error .other := by
      rw [toRows]
      cases hmade : (settings.names T).mapM (tasks.rowOf T settings ts pairs) with
      | error e =>
        obtain ⟨symbol, -, he⟩ := exists_of_mapM_eq_error hmade
        rw [rowOf_error he]
        rfl
      | ok made => exact absurd (exists_of_mapM_eq_ok hmade) hisOk
    rw [hother]
    refine ⟨False.elim, fun hclean => hisOk fun symbol hsymbol => ?_⟩
    exact (rowOf_isOk hget).mpr ⟨hclean.uncancelled symbol hsymbol, hclean.counts symbol hsymbol⟩

/-- What ends a call before its rows are made. -/
theorem fetchMarketTicks_of_error {e : Failure}
    (hmapped : ∀ symbol ∈ settings.needed T,
      (settings.chainTokenAddresses.get? symbol).isSome = true)
    (h : tasks.collectPairs settings (settings.names T) (settings.needed T) = .error e) :
    tasks.fetchMarketTicks T floats settings ts = .error e := by
  rw [fetchMarketTicks_of_mapped ts hmapped, h]
  rfl

theorem honoured_of_unmapped
    (h : ¬∀ symbol ∈ settings.needed T,
      (settings.chainTokenAddresses.get? symbol).isSome = true) :
    Honoured T settings tasks ts (tasks.fetchMarketTicks T floats settings ts) := by
  have hmissing : (settings.needed T).filter (fun symbol =>
      (settings.chainTokenAddresses.get? symbol).isNone) ≠ ∅ := by
    rw [ne_eq, Finset.filter_eq_empty_iff]
    simpa [Option.isSome_iff_ne_none] using h
  have hfail : tasks.live.validateRequiredMappings settings (settings.needed T) =
      tasks.live.fail settings "required_mapping_missing" (LiveSource.listing _) := if_pos hmissing
  rw [fetchMarketTicks, hfail]
  trivial

theorem honoured_of_unresolved
    (hmapped : ∀ symbol ∈ settings.needed T,
      (settings.chainTokenAddresses.get? symbol).isSome = true)
    (hfound : tasks.live.addressPairs settings = .ok found)
    (h : ¬∀ symbol ∈ settings.needed T, (found.get? symbol).isSome = true) :
    Honoured T settings tasks ts (tasks.fetchMarketTicks T floats settings ts) := by
  have hunresolved : (settings.needed T).filter (fun symbol => (found.get? symbol).isNone) ≠ ∅ := by
    rw [ne_eq, Finset.filter_eq_empty_iff]
    simpa [Option.isSome_iff_ne_none] using h
  have hfail : ∃ detail, tasks.collectPairs settings (settings.names T) (settings.needed T) =
      tasks.live.fail settings "required_symbol_unresolved" detail := by
    rw [collectPairs, hfound]
    exact ⟨_, if_pos hunresolved⟩
  obtain ⟨detail, hfail⟩ := hfail
  rw [fetchMarketTicks_of_error hmapped hfail]
  trivial

theorem honoured_of_uncovered
    (hmapped : ∀ symbol ∈ settings.needed T,
      (settings.chainTokenAddresses.get? symbol).isSome = true)
    (hfound : tasks.live.addressPairs settings = .ok found)
    (hresolved : ∀ symbol ∈ settings.needed T, (found.get? symbol).isSome = true)
    (h : ¬settings.minSuccessRatio ≤ coverage T floats settings tasks found) :
    Honoured T settings tasks ts (tasks.fetchMarketTicks T floats settings ts) := by
  obtain ⟨pairs, hpairs, -, hsize⟩ := collectPairs_isOk floats hfound hresolved
  have hfail : ∃ detail, tasks.validateSuccessRatio floats settings (settings.names T) pairs =
      tasks.live.fail settings "insufficient_coverage" detail := by
    rw [validateSuccessRatio, hsize]
    exact ⟨_, if_pos (not_le.mp h)⟩
  obtain ⟨detail, hfail⟩ := hfail
  rw [fetchMarketTicks_of_mapped ts hmapped, hpairs]
  show Honoured T settings tasks ts
    (tasks.validateSuccessRatio floats settings (settings.names T) pairs >>= _)
  rw [hfail]
  trivial

/-- When a call of a live strategy raises an `IngestionFetchError` or returns rows that are
guaranteed. -/
theorem honoured_iff (T : Text) (floats : Floats) (settings : Settings) (tasks : LiveTasks)
    (ts : ℤ) :
    Honoured T settings tasks ts (tasks.fetchMarketTicks T floats settings ts) ↔
      ((∀ symbol ∈ settings.needed T,
        (settings.chainTokenAddresses.get? symbol).isSome = true) →
        tasks.live.addressPairs settings ≠ .error .other ∧
          ∀ found, Proceeds T floats settings tasks found → Clean T settings tasks found) := by
  by_cases hmapped : ∀ symbol ∈ settings.needed T,
      (settings.chainTokenAddresses.get? symbol).isSome = true
  · rw [forall_prop_of_true hmapped]
    cases hfound : tasks.live.addressPairs settings with
    | error e =>
      have hcollect : tasks.collectPairs settings (settings.names T) (settings.needed T) =
          .error e := by
        rw [collectPairs, hfound]
        rfl
      rw [fetchMarketTicks_of_error hmapped hcollect]
      have hnone : ∀ found, ¬Proceeds T floats settings tasks found := by
        intro found h
        rw [h.looked] at hfound
        cases hfound
      cases e with
      | fetch error =>
        exact ⟨fun _ => ⟨by simp, fun found h => absurd h (hnone found)⟩, fun _ => trivial⟩
      | other => exact ⟨False.elim, fun h => h.1 rfl⟩
    | ok found =>
      have hsame : ∀ other, Proceeds T floats settings tasks other → other = found :=
        fun other h => Except.ok.inj (h.looked.symm.trans hfound)
      by_cases hproceeds : Proceeds T floats settings tasks found
      · rw [honoured_of_proceeds hmapped hproceeds]
        refine ⟨fun h => ⟨by simp, fun other hother => hsame other hother ▸ h⟩, fun h => ?_⟩
        exact h.2 found hproceeds
      · have hhonoured : Honoured T settings tasks ts
            (tasks.fetchMarketTicks T floats settings ts) := by
          by_cases hresolved : ∀ symbol ∈ settings.needed T, (found.get? symbol).isSome = true
          · refine honoured_of_uncovered hmapped hfound hresolved fun hcovered => ?_
            exact hproceeds ⟨hfound, hresolved, hcovered⟩
          · exact honoured_of_unresolved hmapped hfound hresolved
        refine ⟨fun _ => ⟨by simp, fun other hother => ?_⟩, fun _ => hhonoured⟩
        exact absurd (hsame other hother ▸ hother) hproceeds
  · exact ⟨fun _ h => absurd h hmapped, fun _ => honoured_of_unmapped hmapped⟩

/-! ### A cancelled task -/

/-- One symbol, without mappings. -/
def oneSymbol : Settings where
  chainId := "bsc"
  chainSymbols := "CAKE"
  chainTokenAddresses := Dict.empty
  minSuccessRatio := 3 / 5
  requiredAddressSymbols := ∅
  isProduction := false
  requireAddressMappingInProduction := true

/-- The task of the symbol waits for the request of another call, which is cancelled. -/
def cancelledTask : LiveTasks where
  live := DexScreenerSourceStrategy
    { fetchPairsByAddresses := fun _ => .ok Dict.empty
      fetchPairBySymbol := fun _ _ => .ok none }
    (fun _ => true) "t1"
  cancelled := fun _ _ => true

/-- The call raises the `AttributeError` of the quality policy. -/
theorem cancelled_task_raises :
    ¬Honoured Text.plain oneSymbol cancelledTask 0
      (cancelledTask.fetchMarketTicks Text.plain Floats.exact oneSymbol 0) := by
  have hother : cancelledTask.fetchMarketTicks Text.plain Floats.exact oneSymbol 0 =
      .error .other := by
    decide +kernel
  rw [hother]
  exact id

end LiveTasks

end ChainMonitor.Ingestion
