import ChainMonitor.ProofKit.Dict
import ChainMonitor.ProofKit.Json

/-! `ingestion/fallback`: the sources are asked in order until each configured symbol has a row. The
rows of an earlier source stand before those of a later one. -/

namespace ChainMonitor.Ingestion

open ProofKit

structure MarketTickInput where
  chainId : String
  tokenId : String
  tsMinute : ℤ
  priceUsd : Float
  volume1m : Float
  volume5m : Float
  liquidityUsd : Float
  buys1m : ℤ
  sells1m : ℤ
  txCount1m : ℤ
  deriving DecidableEq

structure IngestionFetchError where
  reason : String
  detail : String
  chainId : String
  traceId : String
  deriving DecidableEq

/-- What a fetch raises: the error of the ingestion, or another exception. -/
inductive Failure
  | fetch (error : IngestionFetchError)
  | other
  deriving DecidableEq

/-! ### `chain_ingestion_source_base` -/

/-- `text.strip()`. -/
def strip (T : Text) (text : List Char) : List Char :=
  ((text.dropWhile T.isSpace).reverse.dropWhile T.isSpace).reverse

/-- The symbols of the configured list `raw`. -/
def symbols (T : Text) (raw : String) : List String :=
  (((raw.toList.splitOn ',').map (strip T)).filter (· ≠ [])).map fun s => T.upper (.ofList s)

def tokenId (T : Text) (chainId symbol : String) : String := chainId ++ "_" ++ T.lower symbol

/-- The start of the minute, in microseconds. Without a time it is that of `now`. -/
def normalizeTs (now : ℤ) (tsMinute : Option ℤ) : ℤ :=
  let ts := tsMinute.getD now
  ts - ts % 60000000

/-! ### `fallback_source_chain` -/

/-- `fetch_market_ticks` of a source. -/
abbrev Source := ℤ → Except Failure (List MarketTickInput)

structure FallbackSourceChain where
  chainId : String
  chainSymbols : String
  sources : List Source
  sources_ne_nil : sources ≠ []

/-- The variables of the loop over the sources. `called` sources have been asked, and the last of
them has raised something other than an `IngestionFetchError` if the loop has `aborted`. -/
structure Progress where
  byToken : Dict String MarketTickInput
  sourceErrors : List String
  traceId : String
  called : ℕ
  aborted : Bool

namespace Progress

def start : Progress where
  byToken := Dict.empty
  sourceErrors := []
  traceId := "fallback-missing"
  called := 0
  aborted := false

/-- The symbols without a row. -/
def missing (T : Text) (chainId : String) (symbols : List String) (p : Progress) : List String :=
  symbols.filter fun symbol => (p.byToken.get? (tokenId T chainId symbol)).isNone

/-- What the answer of the next source does. -/
def take (p : Progress) : Except Failure (List MarketTickInput) → Progress
  | .error (.fetch exc) =>
    { p with
      sourceErrors := p.sourceErrors ++ ["s" ++ toString (p.called + 1) ++ ":" ++ exc.reason]
      traceId := exc.traceId
      called := p.called + 1 }
  | .error .other => { p with called := p.called + 1, aborted := true }
  | .ok rows =>
    { p with
      byToken := rows.foldl (fun byToken row => byToken.setDefault row.tokenId row) p.byToken
      called := p.called + 1 }

/-- The loop over the sources. -/
def ask (T : Text) (chainId : String) (symbols : List String) (targetTs : ℤ) :
    List Source → Progress → Progress
  | [], p => p
  | source :: sources, p =>
    if p.missing T chainId symbols = [] then p
    else if (p.take (source targetTs)).aborted then p.take (source targetTs)
    else ask T chainId symbols targetTs sources (p.take (source targetTs))

end Progress

namespace FallbackSourceChain

variable (T : Text) (chain : FallbackSourceChain)

/-- The state in which the loop over the sources ends. -/
def asked (targetTs : ℤ) : Progress :=
  .ask T chain.chainId (symbols T chain.chainSymbols) targetTs chain.sources .start

/-- What follows the loop. -/
def answer (p : Progress) : Except Failure (List MarketTickInput) :=
  let missing := p.missing T chain.chainId (symbols T chain.chainSymbols)
  if missing ≠ [] then
    if p.sourceErrors ≠ [] ∧ p.byToken.size = 0 then
      .error (.fetch
        { reason := "all_sources_failed"
          detail := ";".intercalate p.sourceErrors
          chainId := chain.chainId
          traceId := p.traceId })
    else
      .error (.fetch
        { reason := "incomplete_fallback"
          detail := "missing=" ++ ",".intercalate missing
          chainId := chain.chainId
          traceId := p.traceId })
  else
    (symbols T chain.chainSymbols).mapM fun symbol =>
      match p.byToken.get? (tokenId T chain.chainId symbol) with
      | some row => .ok row
      | none => .error .other

def fetchMarketTicks (now : ℤ) (tsMinute : Option ℤ) : Except Failure (List MarketTickInput) :=
  let p := chain.asked T (normalizeTs now tsMinute)
  if p.aborted then .error .other else chain.answer T p

end FallbackSourceChain

/-! ### The loop -/

/-- The rows that a source supplies, none where it raises. -/
def rowsOf : Except Failure (List MarketTickInput) → List MarketTickInput
  | .ok rows => rows
  | .error _ => []

variable {T : Text} {chainId : String} {names : List String} {ts : ℤ} {sources : List Source}

/-- No source raises anything but an `IngestionFetchError`. -/
def Handled (ts : ℤ) (sources : List Source) : Prop :=
  ∀ source ∈ sources, source ts ≠ .error .other

namespace Progress

variable {p : Progress} {answer : Except Failure (List MarketTickInput)}

/-- The state after the answers of some sources, however many symbols are missing. -/
def takeAll (ts : ℤ) (sources : List Source) (p : Progress) : Progress :=
  sources.foldl (fun p source => p.take (source ts)) p

theorem take_called : (p.take answer).called = p.called + 1 := by
  match answer with
  | .ok _ => rfl
  | .error (.fetch _) => rfl
  | .error .other => rfl

theorem take_aborted (h : answer ≠ .error .other) : (p.take answer).aborted = p.aborted := by
  match answer with
  | .ok _ => rfl
  | .error (.fetch _) => rfl
  | .error .other => exact absurd rfl h

theorem get?_take (token : String) : (p.take answer).byToken.get? token =
    (p.byToken.get? token).or ((rowsOf answer).find? fun row => row.tokenId = token) := by
  match answer with
  | .ok rows => exact Dict.get?_setDefaultAll
  | .error (.fetch _) => exact Option.or_none.symm
  | .error .other => exact Option.or_none.symm

theorem take_sourceErrors (h : answer ≠ .error .other) :
    (p.take answer).sourceErrors = [] ↔ p.sourceErrors = [] ∧ ∃ rows, answer = .ok rows := by
  match answer with
  | .ok rows => exact ⟨fun h => ⟨h, rows, rfl⟩, And.left⟩
  | .error (.fetch exc) => simp [take]
  | .error .other => exact absurd rfl h

theorem takeAll_called : (p.takeAll ts sources).called = p.called + sources.length := by
  induction sources generalizing p with
  | nil => rfl
  | cons source sources ih =>
    show ((p.take (source ts)).takeAll ts sources).called = _
    rw [ih, take_called, List.length_cons]
    omega

theorem takeAll_aborted (h : Handled ts sources) : (p.takeAll ts sources).aborted = p.aborted := by
  induction sources generalizing p with
  | nil => rfl
  | cons source sources ih =>
    obtain ⟨hsource, hrest⟩ := List.forall_mem_cons.mp h
    show ((p.take (source ts)).takeAll ts sources).aborted = _
    rw [ih hrest, take_aborted hsource]

theorem get?_takeAll (token : String) : (p.takeAll ts sources).byToken.get? token =
    (p.byToken.get? token).or
      ((sources.flatMap fun source => rowsOf (source ts)).find?
        fun row => row.tokenId = token) := by
  induction sources generalizing p with
  | nil => exact Option.or_none.symm
  | cons source sources ih =>
    show ((p.take (source ts)).takeAll ts sources).byToken.get? token = _
    rw [ih, get?_take, List.flatMap_cons, List.find?_append, Option.or_assoc]

theorem takeAll_sourceErrors (h : Handled ts sources) :
    (p.takeAll ts sources).sourceErrors = [] ↔
      p.sourceErrors = [] ∧ ∀ source ∈ sources, ∃ rows, source ts = .ok rows := by
  induction sources generalizing p with
  | nil => exact ⟨fun h => ⟨h, by simp⟩, And.left⟩
  | cons source sources ih =>
    obtain ⟨hsource, hrest⟩ := List.forall_mem_cons.mp h
    show ((p.take (source ts)).takeAll ts sources).sourceErrors = [] ↔ _
    rw [ih hrest, take_sourceErrors hsource, and_assoc, List.forall_mem_cons]

/-- The loop stops at the first source before which no symbol is missing. -/
theorem ask_eq_takeAll (h : Handled ts sources) (hp : p.aborted = false) :
    ∃ k ≤ sources.length, p.ask T chainId names ts sources = p.takeAll ts (sources.take k) ∧
      ((p.ask T chainId names ts sources).missing T chainId names = [] ∨ k = sources.length) ∧
      ∀ n < k, (p.takeAll ts (sources.take n)).missing T chainId names ≠ [] := by
  induction sources generalizing p with
  | nil => exact ⟨0, Nat.le_refl 0, rfl, .inr rfl, fun n hn => absurd hn (Nat.not_lt_zero n)⟩
  | cons source sources ih =>
    rw [ask]
    by_cases hmissing : p.missing T chainId names = []
    · simp only [if_pos hmissing]
      exact ⟨0, Nat.zero_le _, rfl, .inl hmissing, fun n hn => absurd hn (Nat.not_lt_zero n)⟩
    · obtain ⟨hsource, hrest⟩ := List.forall_mem_cons.mp h
      have hnext : (p.take (source ts)).aborted = false := by rw [take_aborted hsource, hp]
      obtain ⟨k, hk, hask, hend, hbefore⟩ := ih hrest hnext
      simp only [if_neg hmissing, hnext, Bool.false_eq_true, if_false]
      refine ⟨k + 1, Nat.succ_le_succ hk, hask, ?_, ?_⟩
      · exact hend.imp id (congrArg (· + 1))
      · intro n hn
        cases n with
        | zero => exact hmissing
        | succ n => exact hbefore n (by omega)

end Progress

/-! ### The chain and its specification -/

namespace FallbackSourceChain

variable {chain : FallbackSourceChain}

/-- Some source has a row of the token. -/
def Supplied (chain : FallbackSourceChain) (ts : ℤ) (token : String) : Prop :=
  ∃ source ∈ chain.sources, ∃ row ∈ rowsOf (source ts), row.tokenId = token

/-- The first row of the token in the first of the sources that has one. -/
def EarliestRow (chain : FallbackSourceChain) (ts : ℤ) (token : String) (row : MarketTickInput) :
    Prop :=
  ∃ before source after, chain.sources = before ++ source :: after ∧
    ((rowsOf (source ts)).find? fun r => r.tokenId = token) = some row ∧
    ∀ earlier ∈ before, ∀ r ∈ rowsOf (earlier ts), r.tokenId ≠ token

theorem EarliestRow.tokenId_eq {chain : FallbackSourceChain} {token : String}
    {row : MarketTickInput} (h : chain.EarliestRow ts token row) : row.tokenId = token := by
  obtain ⟨_, _, _, -, hfind, -⟩ := h
  simpa using List.find?_some hfind

/-- Some source raises, and no source has any row. -/
def NothingObtained (chain : FallbackSourceChain) (ts : ℤ) : Prop :=
  (∃ source ∈ chain.sources, ∃ error, source ts = .error error) ∧
    ∀ source ∈ chain.sources, rowsOf (source ts) = []

theorem missing_eq_nil {p : Progress} : p.missing T chainId names = [] ↔
    ∀ symbol ∈ names, ∃ row, p.byToken.get? (tokenId T chainId symbol) = some row := by
  simp [Progress.missing, List.filter_eq_nil_iff, Option.isNone_iff_eq_none,
    ← Option.isSome_iff_ne_none, Option.isSome_iff_exists]

theorem find?_eq_some_iff {token : String} {row : MarketTickInput} :
    ((chain.sources.flatMap fun source => rowsOf (source ts)).find? fun r => r.tokenId = token) =
      some row ↔ chain.EarliestRow ts token row := by
  rw [List.find?_flatMap, List.findSome?_eq_some_iff]
  refine exists_congr fun before => exists_congr fun source => exists_congr fun after => ?_
  refine and_congr_right fun _ => and_congr_right fun _ => forall₂_congr fun earlier _ => ?_
  rw [List.find?_eq_none]
  exact forall₂_congr fun r _ => by rw [decide_eq_true_iff]

theorem supplied_iff {token : String} : chain.Supplied ts token ↔
    ∃ row, ((chain.sources.flatMap fun source => rowsOf (source ts)).find?
      fun r => r.tokenId = token) = some row := by
  rw [← Option.isSome_iff_exists, List.find?_isSome]
  simp only [List.mem_flatMap, decide_eq_true_iff, Supplied]
  constructor
  · rintro ⟨source, hsource, row, hrow, htoken⟩
    exact ⟨row, ⟨source, hsource, hrow⟩, htoken⟩
  · rintro ⟨row, ⟨source, hsource, hrow⟩, htoken⟩
    exact ⟨source, hsource, row, hrow, htoken⟩

instance (token : String) : Decidable (chain.Supplied ts token) :=
  inferInstanceAs (Decidable (∃ source ∈ chain.sources, ∃ row ∈ rowsOf (source ts),
    row.tokenId = token))

theorem asked_eq (h : Handled ts chain.sources) :
    ∃ k ≤ chain.sources.length,
      chain.asked T ts = Progress.start.takeAll ts (chain.sources.take k) ∧
      ((chain.asked T ts).missing T chain.chainId (symbols T chain.chainSymbols) = [] ∨
        k = chain.sources.length) ∧
      ∀ n < k, (Progress.start.takeAll ts (chain.sources.take n)).missing T chain.chainId
        (symbols T chain.chainSymbols) ≠ [] :=
  Progress.ask_eq_takeAll h rfl

theorem asked_aborted (h : Handled ts chain.sources) : (chain.asked T ts).aborted = false := by
  obtain ⟨k, -, hask, -⟩ := asked_eq (T := T) h
  rw [hask]
  exact Progress.takeAll_aborted fun source hsource => h source (List.mem_of_mem_take hsource)

/-- The row that the loop ends with under the token of a symbol. -/
theorem get?_asked (h : Handled ts chain.sources) {symbol : String}
    (hsymbol : symbol ∈ symbols T chain.chainSymbols) :
    (chain.asked T ts).byToken.get? (tokenId T chain.chainId symbol) =
      (chain.sources.flatMap fun source => rowsOf (source ts)).find?
        fun r => r.tokenId = tokenId T chain.chainId symbol := by
  obtain ⟨k, -, hask, hend, -⟩ := asked_eq (T := T) h
  rw [hask] at hend ⊢
  rcases hend with hmissing | rfl
  · obtain ⟨row, hrow⟩ := missing_eq_nil.mp hmissing symbol hsymbol
    have hfirst := hrow
    rw [Progress.get?_takeAll] at hfirst
    rw [hrow]
    conv_rhs => rw [← List.take_append_drop k chain.sources]
    rw [List.flatMap_append, List.find?_append]
    rw [show ((chain.sources.take k).flatMap fun source => rowsOf (source ts)).find?
      (fun r => r.tokenId = tokenId T chain.chainId symbol) = some row from hfirst]
    rfl
  · rw [Progress.get?_takeAll, List.take_length]
    rfl

/-- A symbol is missing when no source has a row of it. -/
theorem missing_asked (h : Handled ts chain.sources) :
    (chain.asked T ts).missing T chain.chainId (symbols T chain.chainSymbols) =
      (symbols T chain.chainSymbols).filter fun symbol =>
        ¬chain.Supplied ts (tokenId T chain.chainId symbol) := by
  apply List.filter_congr
  intro symbol hsymbol
  rw [get?_asked h hsymbol, Bool.eq_iff_iff, Option.isNone_iff_eq_none, decide_eq_true_iff,
    supplied_iff, Option.eq_none_iff_forall_ne_some, not_exists]

/-- When a symbol is missing, all the sources have been asked. -/
theorem asked_of_missing (h : Handled ts chain.sources)
    (hmissing : (chain.asked T ts).missing T chain.chainId (symbols T chain.chainSymbols) ≠ []) :
    chain.asked T ts = Progress.start.takeAll ts chain.sources := by
  obtain ⟨k, -, hask, hend, -⟩ := asked_eq (T := T) h
  rw [hask, hend.resolve_left hmissing, List.take_length]

theorem nothingObtained_iff (h : Handled ts chain.sources) :
    (Progress.start.takeAll ts chain.sources).sourceErrors ≠ [] ∧
      (Progress.start.takeAll ts chain.sources).byToken.size = 0 ↔ chain.NothingObtained ts := by
  have herrors : (Progress.start.takeAll ts chain.sources).sourceErrors ≠ [] ↔
      ∃ source ∈ chain.sources, ∃ error, source ts = .error error := by
    rw [ne_eq, Progress.takeAll_sourceErrors h]
    simp only [Progress.start, true_and, not_forall]
    refine exists_congr fun source => ?_
    rw [exists_prop]
    refine and_congr_right fun _ => ?_
    cases source ts with
    | ok rows => simp
    | error e => simp
  have hempty : (Progress.start.takeAll ts chain.sources).byToken.size = 0 ↔
      ∀ source ∈ chain.sources, rowsOf (source ts) = [] := by
    rw [Dict.size_eq_zero, ← List.flatMap_eq_nil_iff]
    simp only [Progress.get?_takeAll]
    show (∀ token, List.find? _ _ = none) ↔ _
    simp only [List.find?_eq_none, decide_eq_true_iff]
    rw [List.eq_nil_iff_forall_not_mem]
    exact ⟨fun h row hrow => h row.tokenId row hrow rfl, fun h _ row hrow => absurd hrow (h row)⟩
  exact and_congr herrors hempty

/-- The rows of the chain are the earliest ones, where every symbol has one. -/
theorem answer_asked (h : Handled ts chain.sources) {rows : List MarketTickInput} :
    chain.answer T (chain.asked T ts) = .ok rows ↔
      List.Forall₂ (fun symbol row => chain.EarliestRow ts (tokenId T chain.chainId symbol) row)
        (symbols T chain.chainSymbols) rows := by
  have hrow : ∀ symbol ∈ symbols T chain.chainSymbols, ∀ row,
      (match (chain.asked T ts).byToken.get? (tokenId T chain.chainId symbol) with
        | some row => .ok row
        | none => .error .other : Except Failure MarketTickInput) = .ok row ↔
      chain.EarliestRow ts (tokenId T chain.chainId symbol) row := by
    intro symbol hsymbol row
    rw [get?_asked h hsymbol, ← find?_eq_some_iff]
    cases List.find? _ _ with
    | none => simp
    | some r => simp
  rw [answer]
  by_cases hmissing :
      (chain.asked T ts).missing T chain.chainId (symbols T chain.chainSymbols) = []
  · simp only [hmissing, ne_eq, not_true_eq_false, if_false]
    rw [mapM_eq_ok]
    exact forall₂_congr_mem hrow
  · simp only [ne_eq, hmissing, not_false_eq_true, if_true]
    constructor
    · intro hrows
      split at hrows
      · cases hrows
      · cases hrows
    · intro hrows
      refine absurd (missing_eq_nil.mpr fun symbol hsymbol => ?_) hmissing
      obtain ⟨row, hearliest⟩ := exists_forall₂.mp ⟨rows, hrows⟩ symbol hsymbol
      exact ⟨row, by rw [get?_asked h hsymbol, find?_eq_some_iff]; exact hearliest⟩

theorem fetchMarketTicks_eq {now : ℤ} {tsMinute : Option ℤ}
    (h : Handled (normalizeTs now tsMinute) chain.sources) :
    chain.fetchMarketTicks T now tsMinute =
      chain.answer T (chain.asked T (normalizeTs now tsMinute)) := by
  rw [fetchMarketTicks, asked_aborted h, if_neg Bool.false_ne_true]

theorem supplied_iff_earliestRow {token : String} :
    chain.Supplied ts token ↔ ∃ row, chain.EarliestRow ts token row := by
  rw [supplied_iff]
  exact exists_congr fun _ => find?_eq_some_iff

/-- An answer is a list of rows when every symbol is supplied. -/
theorem answer_isOk (h : Handled ts chain.sources) :
    (∃ rows, chain.answer T (chain.asked T ts) = .ok rows) ↔
      ∀ symbol ∈ symbols T chain.chainSymbols,
        chain.Supplied ts (tokenId T chain.chainId symbol) := by
  simp only [answer_asked h, exists_forall₂, supplied_iff_earliestRow]

/-- Sources after those that supply every symbol are not asked. -/
theorem called_le {n : ℕ} (h : Handled ts chain.sources)
    (hn : ∀ symbol ∈ symbols T chain.chainSymbols, ∃ source ∈ chain.sources.take n,
      ∃ row ∈ rowsOf (source ts), row.tokenId = tokenId T chain.chainId symbol) :
    (chain.asked T ts).called ≤ n := by
  by_contra hlt
  obtain ⟨k, hk, hask, -, hbefore⟩ := asked_eq (T := T) h
  have hcalled : (chain.asked T ts).called = k := by
    rw [hask, Progress.takeAll_called, List.length_take_of_le hk]
    exact Nat.zero_add k
  refine hbefore n (by omega) (missing_eq_nil.mpr fun symbol hsymbol => ?_)
  obtain ⟨source, hsource, row, hrow, htoken⟩ := hn symbol hsymbol
  have hmem : row ∈ (chain.sources.take n).flatMap fun source => rowsOf (source ts) :=
    List.mem_flatMap.mpr ⟨source, hsource, hrow⟩
  rw [Progress.get?_takeAll]
  exact Option.isSome_iff_exists.mp (List.find?_isSome.mpr ⟨row, hmem, by simpa using htoken⟩)

/-- What an answer that fails says. -/
theorem answer_error {failure : Failure} (h : Handled ts chain.sources)
    (hfailure : chain.answer T (chain.asked T ts) = .error failure) :
    ∃ exc, failure = .fetch exc ∧
      (chain.NothingObtained ts → exc.reason = "all_sources_failed") ∧
      (¬chain.NothingObtained ts → exc.reason = "incomplete_fallback" ∧
        exc.detail = "missing=" ++ ",".intercalate ((symbols T chain.chainSymbols).filter
          fun symbol => ¬chain.Supplied ts (tokenId T chain.chainId symbol))) := by
  have hmissing : (chain.asked T ts).missing T chain.chainId
      (symbols T chain.chainSymbols) ≠ [] := by
    intro hnil
    rw [missing_asked h, List.filter_eq_nil_iff] at hnil
    obtain ⟨rows, hrows⟩ := (answer_isOk h).mpr fun symbol hsymbol => by
      simpa using hnil symbol hsymbol
    rw [hrows] at hfailure
    cases hfailure
  have hnothing := nothingObtained_iff h
  rw [← asked_of_missing (T := T) h hmissing] at hnothing
  rw [answer, if_pos hmissing, missing_asked h] at hfailure
  split at hfailure
  · rename_i hcond
    obtain rfl := Except.error.inj hfailure
    exact ⟨_, rfl, fun _ => rfl, fun hno => absurd (hnothing.mp hcond) hno⟩
  · rename_i hcond
    obtain rfl := Except.error.inj hfailure
    exact ⟨_, rfl, fun hno => absurd (hnothing.mpr hno) hcond, fun _ => ⟨rfl, rfl⟩⟩

/-- The call succeeds when every symbol is supplied, with the earliest row of each symbol. Sources
after those that supply every symbol are not asked. Where it fails, it says whether nothing was
obtained, and otherwise which symbols are missing. -/
theorem fetchMarketTicks_refines (T : Text) (chain : FallbackSourceChain) (now : ℤ)
    (tsMinute : Option ℤ) (h : Handled (normalizeTs now tsMinute) chain.sources) :
    ((∃ rows, chain.fetchMarketTicks T now tsMinute = .ok rows) ↔
      ∀ symbol ∈ symbols T chain.chainSymbols,
        chain.Supplied (normalizeTs now tsMinute) (tokenId T chain.chainId symbol)) ∧
    (∀ rows, chain.fetchMarketTicks T now tsMinute = .ok rows →
      List.Forall₂ (fun symbol row => chain.EarliestRow (normalizeTs now tsMinute)
        (tokenId T chain.chainId symbol) row) (symbols T chain.chainSymbols) rows) ∧
    (∀ n, (∀ symbol ∈ symbols T chain.chainSymbols, ∃ source ∈ chain.sources.take n,
        ∃ row ∈ rowsOf (source (normalizeTs now tsMinute)),
          row.tokenId = tokenId T chain.chainId symbol) →
      (chain.asked T (normalizeTs now tsMinute)).called ≤ n) ∧
    ∀ failure, chain.fetchMarketTicks T now tsMinute = .error failure →
      ∃ exc, failure = .fetch exc ∧
        (chain.NothingObtained (normalizeTs now tsMinute) → exc.reason = "all_sources_failed") ∧
        (¬chain.NothingObtained (normalizeTs now tsMinute) → exc.reason = "incomplete_fallback" ∧
          exc.detail = "missing=" ++ ",".intercalate ((symbols T chain.chainSymbols).filter
            fun symbol => ¬chain.Supplied (normalizeTs now tsMinute)
              (tokenId T chain.chainId symbol))) := by
  rw [fetchMarketTicks_eq h]
  exact ⟨answer_isOk h, fun rows hrows => (answer_asked h).mp hrows, fun n hn => called_le h hn,
    fun failure hfailure => answer_error h hfailure⟩

/-- A chain whose first source raises and whose second has one of two symbols. -/
def partialChain : FallbackSourceChain where
  chainId := "bsc"
  chainSymbols := "bnb, cake"
  sources := [fun _ => .error (.fetch ⟨"timeout", "", "bsc", "t1"⟩),
    fun ts => .ok [⟨"bsc", "bsc_bnb", ts, 600, 1, 5, 9, 1, 1, 2⟩]]
  sources_ne_nil := List.cons_ne_nil _ _

/-- Its call fails and names the symbol that is missing. -/
theorem fetchMarketTicks_refines_partial :
    ∃ exc, partialChain.fetchMarketTicks Text.plain 0 none = .error (.fetch exc) ∧
      exc.reason = "incomplete_fallback" ∧ exc.detail = "missing=CAKE" := by
  have hhandled : Handled (normalizeTs 0 none) partialChain.sources := by
    simp [Handled, partialChain]
  have hrow : ¬partialChain.NothingObtained (normalizeTs 0 none) := by
    simp [NothingObtained, partialChain, rowsOf]
  have hnone : (partialChain.fetchMarketTicks Text.plain 0 none).toOption.isNone = true := by
    decide +kernel
  cases hfailure : partialChain.fetchMarketTicks Text.plain 0 none with
  | ok rows =>
    rw [hfailure] at hnone
    cases hnone
  | error failure =>
    obtain ⟨exc, rfl, -, hdetail⟩ :=
      (fetchMarketTicks_refines Text.plain partialChain 0 none hhandled).2.2.2 failure hfailure
    obtain ⟨hreason, hdetail⟩ := hdetail hrow
    refine ⟨exc, rfl, hreason, hdetail.trans ?_⟩
    decide +kernel

end FallbackSourceChain

end ChainMonitor.Ingestion
