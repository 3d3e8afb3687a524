import ChainMonitor.ProofKit.Attempt
import ChainMonitor.ProofKit.Json
import ChainMonitor.ProofKit.Jsonb
import ChainMonitor.ProofKit.Table

/-! `SnapshotStore` of `scanner/snapshot_store.py`, and the tokens that it is given, which
`GmgnClient._do_fetch_trending` of `scanner/gmgn_client.py` reads from what the command line tool
prints. Texts are code points here, since a JSON string may hold any of them. -/

namespace ChainMonitor.SnapshotStore

open ProofKit

/-! ### Tokens -/

structure TrendingToken where
  address : PyStr
  symbol : PyStr
  name : PyStr
  priceUsd : Float
  volume1m : Option Float
  volume1h : Option Float
  marketCap : Option Float
  liquidity : Option Float
  smartDegenCount : Option ℤ
  rank : ℤ
  chain : PyStr
  alsoIn1h : Bool
  deriving DecidableEq

/-- `takenAt` is an instant, in microseconds. -/
structure Snapshot where
  chain : PyStr
  interval : PyStr
  tokens : List TrendingToken
  takenAt : ℤ
  deriving DecidableEq

def ofString (s : String) : PyStr :=
  s.toList.map fun c => ⟨c.toNat, by
    have := c.valid
    simp only [Char.toNat, UInt32.isValidChar, Nat.isValidChar] at *
    omega⟩

def getItem (name : String) (items : List (PyStr × PyValue)) : Option PyValue :=
  (items.find? fun item => item.1 = ofString name).map Prod.snd

/-- `{**items, name: value}`. -/
def setItem (name : String) (value : PyValue) (items : List (PyStr × PyValue)) :
    List (PyStr × PyValue) :=
  if items.any fun item => item.1 = ofString name then
    items.map fun item => if item.1 = ofString name then (item.1, value) else item
  else items ++ [(ofString name, value)]

/-- `items.pop(name, None)`. -/
def pop (name : String) (items : List (PyStr × PyValue)) : List (PyStr × PyValue) :=
  items.filter fun item => item.1 ≠ ofString name

/-! ### The validation of a model -/

/-- What pydantic reads from a value as a field of a type, or `none` where it refuses the value. It
reads more than the values of that type, and keeps these as they are. -/
structure Pydantic where
  str : PyValue → Option PyStr
  float : PyValue → Option Float
  int : PyValue → Option ℤ
  bool : PyValue → Option Bool
  str_str : ∀ s, str (.str s) = some s
  float_float : ∀ x, float (.float x) = some x
  int_int : ∀ n, int (.int n) = some n
  bool_bool : ∀ b, bool (.bool b) = some b

section Validate

variable (lax : Pydantic)

/-- A field that may be `None`. -/
def optional {α : Type} (read : PyValue → Option α) : PyValue → Option (Option α)
  | .null => some none
  | value => (read value).map some

/-- A field of the model. A `ValidationError` is a `ValueError`. -/
def field {α : Type} (name : String) (read : PyValue → Option α) (default : Option α)
    (kwargs : List (PyStr × PyValue)) : Except PyError α :=
  match getItem name kwargs with
  | some value => match read value with
    | some a => .ok a
    | none => .error .valueError
  | none => match default with
    | some a => .ok a
    | none => .error .valueError

/-- `TrendingToken(**kwargs)`. -/
def TrendingToken.validate (kwargs : List (PyStr × PyValue)) : Except PyError TrendingToken := do
  return {
    address := ← field "address" lax.str none kwargs
    symbol := ← field "symbol" lax.str none kwargs
    name := ← field "name" lax.str none kwargs
    priceUsd := ← field "price_usd" lax.float none kwargs
    volume1m := ← field "volume_1m" (optional lax.float) (some none) kwargs
    volume1h := ← field "volume_1h" (optional lax.float) (some none) kwargs
    marketCap := ← field "market_cap" (optional lax.float) (some none) kwargs
    liquidity := ← field "liquidity" (optional lax.float) (some none) kwargs
    smartDegenCount := ← field "smart_degen_count" (optional lax.int) (some none) kwargs
    rank := ← field "rank" lax.int none kwargs
    chain := ← field "chain" lax.str none kwargs
    alsoIn1h := ← field "also_in_1h" lax.bool (some false) kwargs }

end Validate

/-! ### The tokens that are fetched -/

section Fetch

variable (T : Text) (lax : Pydantic)

/-- A text without surrogates. -/
def asString (s : PyStr) : Option String :=
  if s.all fun c => Nat.isValidChar c.val then some (.ofList (s.map fun c => Char.ofNat c.val))
  else none

/-- `bool(value)`. -/
def truthy : PyValue → Bool
  | .null => false
  | .bool b => b
  | .int n => n ≠ 0
  | .float x => PyFloat.truthy x
  | .str s => s ≠ []
  | .list items => !items.isEmpty
  | .dict items => !items.isEmpty

/-- `float(value)`. -/
def toFloat : PyValue → Except PyError Float := JsonValue.toFloat fun s => (asString s).bind T.float

/-- `int(value)`. -/
def toInt : PyValue → Except PyError ℤ := JsonValue.toInt fun s => (asString s).bind T.int

def safeFloat (d : List (PyStr × PyValue)) (key : String) : Except PyError PyValue :=
  match getItem key d with
  | none | some .null => .ok .null
  | some val => return .float (← toFloat T val)

/-- One turn of the loop over the tokens of the output, which are of `chain`. -/
def tokenOf (chain : PyStr) (t : List (PyStr × PyValue)) : Except PyError TrendingToken := do
  let priceUsd := (getItem "price_usd" t).getD (.int 0)
  TrendingToken.validate lax [
    (ofString "address", (getItem "address" t).getD (.str [])),
    (ofString "symbol", (getItem "symbol" t).getD (.str [])),
    (ofString "name", (getItem "name" t).getD (.str [])),
    (ofString "price_usd", .float (← toFloat T (if truthy priceUsd then priceUsd else .int 0))),
    (ofString "volume_1m", ← safeFloat T t "volume_1m"),
    (ofString "volume_1h", ← safeFloat T t "volume_1h"),
    (ofString "market_cap", ← safeFloat T t "market_cap"),
    (ofString "liquidity", ← safeFloat T t "liquidity"),
    (ofString "smart_degen_count", (getItem "smart_degen_count" t).getD .null),
    (ofString "rank", .int (← toInt T ((getItem "rank" t).getD (.int 0)))),
    (ofString "chain", .str chain)]

/-- A run of the command line tool that ends in time: its exit code, and what `json.loads` makes of
what it prints, or `none` where that raises a `JSONDecodeError`. On JSON too deep or with a number
too long it raises another exception, and on bytes that are no text a `UnicodeDecodeError`, which is
a `ValueError`; `reported` and `printed` say whether `.decode()` takes the two outputs. -/
structure Output where
  returncode : ℤ
  stdout : Option (Except PyError PyValue)
  reported : Bool
  printed : Bool

def asList : PyValue → Option (List PyValue)
  | .list items => some items
  | _ => none

def asDict : PyValue → Option (List (PyStr × PyValue))
  | .dict items => some items
  | _ => none

/-- The tokens in what the tool prints. -/
def rawTokens (data : PyValue) : List PyValue :=
  let inner := match data with
    | .dict items => (getItem "data" items).getD (.dict [])
    | data => data
  match inner with
  | .list items => items
  | .dict items => (items.findSome? fun item => asList item.2).getD []
  | _ => []

def doFetchTrending (chain : PyStr) (output : Output) : Except PyError (List TrendingToken) :=
  if output.returncode ≠ 0 then
    -- both outputs are decoded for the log
    if output.reported ∧ output.printed then .ok [] else .error .valueError
  else match output.stdout with
    | none => if output.printed then .ok [] else .error .valueError
    | some loaded => do
      -- what is no `dict` is skipped
      ((rawTokens (← loaded)).filterMap asDict).mapM (tokenOf T lax chain)

end Fetch

/-! ### The table -/

/-- A row of `scanner_snapshots`. -/
structure Row where
  chain : PyStr
  interval : PyStr
  snapshotData : PyValue
  takenAt : ℤ

def Row.key (r : Row) : PyStr × PyStr := (r.chain, r.interval)

abbrev ScannerSnapshots := Table Row.key

/-- A text that goes to the database: it has no NUL, and UTF-8 has no surrogates. -/
def Sendable (s : PyStr) : Prop := ∀ c ∈ s, c.val ≠ 0 ∧ Nat.isValidChar c.val

instance (s : PyStr) : Decidable (Sendable s) := by
  unfold Sendable Nat.isValidChar
  infer_instance

/-- What the columns `chain` and `interval` hold. -/
def Fits (chain interval : PyStr) : Prop :=
  Sendable chain ∧ Sendable interval ∧ chain.length ≤ 10 ∧ interval.length ≤ 5

instance (chain interval : PyStr) : Decidable (Fits chain interval) := by
  unfold Fits
  infer_instance

def optFloat : Option Float → PyValue
  | none => .null
  | some x => .float x

def optInt : Option ℤ → PyValue
  | none => .null
  | some n => .int n

def TrendingToken.modelDump (t : TrendingToken) : List (PyStr × PyValue) :=
  [(ofString "address", .str t.address), (ofString "symbol", .str t.symbol),
    (ofString "name", .str t.name), (ofString "price_usd", .float t.priceUsd),
    (ofString "volume_1m", optFloat t.volume1m), (ofString "volume_1h", optFloat t.volume1h),
    (ofString "market_cap", optFloat t.marketCap), (ofString "liquidity", optFloat t.liquidity),
    (ofString "smart_degen_count", optInt t.smartDegenCount), (ofString "rank", .int t.rank),
    (ofString "chain", .str t.chain), (ofString "also_in_1h", .bool t.alsoIn1h)]

/-- The error of a statement that the database refuses. -/
inductive DbError
  | dataError
  deriving DecidableEq

def raw (tokens : List TrendingToken) : PyValue :=
  .list (tokens.map fun t => .dict (pop "chain" t.modelDump))

def save (chain interval : PyStr) (snapshot : Snapshot) (table : ScannerSnapshots) :
    Except DbError ScannerSnapshots :=
  match Jsonb.cast (Jsonb.dumps (raw snapshot.tokens)) with
  | none => .error .dataError
  | some data =>
    if Fits chain interval then .ok (table.upsert ⟨chain, interval, data, snapshot.takenAt⟩)
    else .error .dataError

/-- The token of a row, with the chain that it is loaded for. -/
def loadToken (lax : Pydantic) (chain : PyStr) : PyValue → Except PyError TrendingToken
  | .dict t => TrendingToken.validate lax (setItem "chain" (.str chain) t)
  | _ => .error .typeError

def load (lax : Pydantic) (chain interval : PyStr) (table : ScannerSnapshots) :
    Except PyError (Option Snapshot) :=
  match table.rows.find? fun r => r.key = (chain, interval) with
  | none => .ok none
  | some row =>
    match row.snapshotData with
    | .list rawData => do
      let tokens ← rawData.mapM (loadToken lax chain)
      return some ⟨chain, interval, tokens, row.takenAt⟩
    | _ => .error .typeError

/-! ### What a load returns after a save -/

section Names

theorem ofString_inj {s t : String} : ofString s = ofString t ↔ s = t := by
  constructor
  · intro h
    have hval := congrArg (List.map CodePoint.val) h
    simp only [ofString, List.map_map] at hval
    refine String.toList_injective (List.map_injective_iff.mpr ?_ hval)
    intro c d hcd
    exact Char.toNat_inj.mp hcd
  · rintro rfl
    rfl

end Names

variable {lax : Pydantic} {t : TrendingToken} {chain interval : PyStr}

theorem pop_modelDump : pop "chain" t.modelDump =
    [(ofString "address", .str t.address), (ofString "symbol", .str t.symbol),
      (ofString "name", .str t.name), (ofString "price_usd", .float t.priceUsd),
      (ofString "volume_1m", optFloat t.volume1m), (ofString "volume_1h", optFloat t.volume1h),
      (ofString "market_cap", optFloat t.marketCap), (ofString "liquidity", optFloat t.liquidity),
      (ofString "smart_degen_count", optInt t.smartDegenCount), (ofString "rank", .int t.rank),
      (ofString "also_in_1h", .bool t.alsoIn1h)] := by
  simp [pop, TrendingToken.modelDump, ofString_inj]

theorem optional_optFloat (x : Option Float) : optional lax.float (optFloat x) = some x := by
  cases x with
  | none => rfl
  | some x => simp [optFloat, optional, lax.float_float]

theorem optional_optInt (n : Option ℤ) : optional lax.int (optInt n) = some n := by
  cases n with
  | none => rfl
  | some n => simp [optInt, optional, lax.int_int]

/-- A token that has been dumped without its chain is validated as it was, with the chain given. -/
theorem validate_modelDump :
    TrendingToken.validate lax (setItem "chain" (.str chain) (pop "chain" t.modelDump)) =
      .ok { t with chain } := by
  rw [pop_modelDump]
  simp [setItem, ofString_inj, TrendingToken.validate, field, getItem,
    lax.str_str, lax.float_float, lax.int_int, lax.bool_bool, optional_optFloat, optional_optInt]
  rfl

/-- Every number of the token is finite, and no text of it has a NUL. -/
def TrendingToken.Writable (t : TrendingToken) : Prop :=
  (Jsonb.NoNul t.address ∧ Jsonb.NoNul t.symbol ∧ Jsonb.NoNul t.name) ∧
    PyFloat.isFinite t.priceUsd ∧
    ∀ x ∈ [t.volume1m, t.volume1h, t.marketCap, t.liquidity], ∀ y ∈ x, PyFloat.isFinite y

/-- The token with its texts as they come back from UTF-16. -/
def TrendingToken.reread (t : TrendingToken) : TrendingToken :=
  { t with
    address := Jsonb.reread t.address
    symbol := Jsonb.reread t.symbol
    name := Jsonb.reread t.name }

/-- The names of the fields that are stored. -/
def names : List String :=
  ["address", "symbol", "name", "price_usd", "volume_1m", "volume_1h", "market_cap", "liquidity",
    "smart_degen_count", "rank", "also_in_1h"]

theorem noNul_names : ∀ name ∈ names, Jsonb.NoNul (ofString name) := by decide

theorem reread_names : ∀ name ∈ names, Jsonb.reread (ofString name) = ofString name := by
  have h : ∀ name ∈ names, Utf16.NoSplitPair (ofString name) := by decide
  exact fun name hname => Utf16.decode_encode_iff.mpr (h name hname)

theorem writable_optFloat {x : Option Float} :
    Jsonb.Writable (optFloat x) ↔ ∀ y ∈ x, PyFloat.isFinite y := by
  cases x <;> simp [optFloat, Jsonb.Writable]

theorem writable_optInt {n : Option ℤ} : Jsonb.Writable (optInt n) := by
  cases n <;> trivial

theorem rereadValue_optFloat {x : Option Float} : Jsonb.rereadValue (optFloat x) = optFloat x := by
  cases x <;> rfl

theorem rereadValue_optInt {n : Option ℤ} : Jsonb.rereadValue (optInt n) = optInt n := by
  cases n <;> rfl

theorem writable_modelDump :
    Jsonb.WritableItems (pop "chain" t.modelDump) ↔ t.Writable := by
  have hnames := noNul_names
  simp only [names, List.forall_mem_cons] at hnames
  rw [pop_modelDump]
  simp only [Jsonb.WritableItems, Jsonb.Writable, writable_optFloat, writable_optInt, hnames,
    TrendingToken.Writable, List.forall_mem_cons, List.not_mem_nil, true_and, and_true,
    false_imp_iff, implies_true, and_assoc]

theorem reread_modelDump :
    Jsonb.rereadItems (pop "chain" t.modelDump) = pop "chain" t.reread.modelDump := by
  have hnames := reread_names
  simp only [names, List.forall_mem_cons] at hnames
  rw [pop_modelDump, pop_modelDump]
  simp only [Jsonb.rereadItems, Jsonb.rereadValue, rereadValue_optFloat, rereadValue_optInt,
    hnames, TrendingToken.reread]

theorem writable_raw {tokens : List TrendingToken} :
    Jsonb.Writable (raw tokens) ↔ ∀ t ∈ tokens, t.Writable := by
  simp only [raw, Jsonb.Writable]
  induction tokens with
  | nil => simp [Jsonb.WritableList]
  | cons t tokens ih =>
    rw [List.map_cons, Jsonb.WritableList, ih, Jsonb.Writable, writable_modelDump,
      List.forall_mem_cons]

theorem reread_raw {tokens : List TrendingToken} :
    Jsonb.rereadValue (raw tokens) = raw (tokens.map TrendingToken.reread) := by
  simp only [raw, Jsonb.rereadValue, JsonValue.list.injEq]
  induction tokens with
  | nil => rfl
  | cons t tokens ih =>
    rw [List.map_cons, Jsonb.rereadList, ih, Jsonb.rereadValue, reread_modelDump]
    rfl

variable {snapshot : Snapshot} {table table' : ScannerSnapshots}

/-- When a save succeeds, and the table that it leaves. -/
theorem save_eq_ok :
    save chain interval snapshot table = .ok table' ↔
      (Fits chain interval ∧ ∀ t ∈ snapshot.tokens, t.Writable) ∧
        table' = table.upsert ⟨chain, interval, raw (snapshot.tokens.map TrendingToken.reread),
          snapshot.takenAt⟩ := by
  have hcast := Jsonb.cast_dumps (raw snapshot.tokens)
  simp only [writable_raw, reread_raw] at hcast
  unfold save
  cases h : Jsonb.cast (Jsonb.dumps (raw snapshot.tokens)) with
  | none =>
    have hnot : ¬∀ t ∈ snapshot.tokens, t.Writable := fun hall => by
      rw [(hcast _).mpr ⟨hall, rfl⟩] at h
      cases h
    simp [hnot]
  | some data =>
    obtain ⟨hall, rfl⟩ := (hcast data).mp h
    by_cases hfits : Fits chain interval
    · rw [and_iff_right ⟨hfits, hall⟩]
      simp only [hfits, if_true, Except.ok.injEq]
      exact eq_comm
    · simp [hfits]

/-- What is loaded after tokens have been stored. -/
theorem load_upsert {tokens : List TrendingToken} {takenAt : ℤ} :
    load lax chain interval (table.upsert ⟨chain, interval, raw tokens, takenAt⟩) =
      .ok (some ⟨chain, interval, tokens.map fun t => { t with chain }, takenAt⟩) := by
  let row : Row := ⟨chain, interval, raw tokens, takenAt⟩
  have hfind : (table.upsert row).rows.find? (fun r => r.key = (chain, interval)) = some row :=
    Table.find?_upsert row table
  have htokens : (tokens.map fun t => JsonValue.dict (pop "chain" t.modelDump)).mapM
      (loadToken lax chain) = .ok (tokens.map fun t => { t with chain }) := by
    rw [mapM_eq_ok, List.forall₂_map_left_iff, List.forall₂_map_right_iff, List.forall₂_same]
    exact fun t _ => validate_modelDump
  rw [load, hfind]
  simp only [row, raw, htokens]
  rfl

/-! ### The tokens that are fetched and stored -/

/-- The text comes back from the column as it was: it has no NUL, and no surrogate of it is followed
by one that it makes up a pair with. -/
def Kept (s : PyStr) : Prop := Jsonb.NoNul s ∧ Utf16.NoSplitPair s

/-- Every number of the token is finite, and its texts come back as they were. -/
structure TrendingToken.Storable (t : TrendingToken) : Prop where
  address : Kept t.address
  symbol : Kept t.symbol
  name : Kept t.name
  priceUsd : PyFloat.isFinite t.priceUsd
  numbers : ∀ x ∈ [t.volume1m, t.volume1h, t.marketCap, t.liquidity],
    ∀ y ∈ x, PyFloat.isFinite y

theorem reread_eq_iff : t.reread = t ↔ Utf16.NoSplitPair t.address ∧
    Utf16.NoSplitPair t.symbol ∧ Utf16.NoSplitPair t.name := by
  rw [← Utf16.decode_encode_iff, ← Utf16.decode_encode_iff, ← Utf16.decode_encode_iff]
  obtain ⟨address, symbol, name⟩ := t
  simp [TrendingToken.reread, Jsonb.reread]

theorem storable_iff : t.Storable ↔ t.Writable ∧ t.reread = t := by
  rw [reread_eq_iff]
  constructor
  · intro h
    exact ⟨⟨⟨h.address.1, h.symbol.1, h.name.1⟩, h.priceUsd, h.numbers⟩, h.address.2, h.symbol.2,
      h.name.2⟩
  · rintro ⟨⟨⟨ha, hs, hn⟩, hprice, hnumbers⟩, ha', hs', hn'⟩
    exact ⟨⟨ha, ha'⟩, ⟨hs, hs'⟩, ⟨hn, hn'⟩, hprice, hnumbers⟩

variable {T : Text} {output : Output} {tokens : List TrendingToken}

theorem chain_of_validate {kwargs : List (PyStr × PyValue)}
    (h : TrendingToken.validate lax kwargs = .ok t) :
    field "chain" lax.str none kwargs = .ok t.chain := by
  simp only [TrendingToken.validate, bind_eq_ok] at h
  obtain ⟨_, -, _, -, _, -, _, -, _, -, _, -, _, -, _, -, _, -, _, -, chain, hchain, _, -, h⟩ := h
  cases h
  exact hchain

theorem chain_of_tokenOf {d : List (PyStr × PyValue)} (h : tokenOf T lax chain d = .ok t) :
    t.chain = chain := by
  simp only [tokenOf, bind_eq_ok] at h
  obtain ⟨_, -, _, -, _, -, _, -, _, -, _, -, h⟩ := h
  have hchain := chain_of_validate h
  simp [field, getItem, ofString_inj, lax.str_str] at hchain
  exact hchain.symm

/-- The tokens that are fetched are of the chain that they are fetched for. -/
theorem chain_of_fetch (h : doFetchTrending T lax chain output = .ok tokens) :
    ∀ t ∈ tokens, t.chain = chain := by
  have hempty : ∀ {p : Prop} [Decidable p],
      (if p then Except.ok [] else Except.error PyError.valueError) = .ok tokens → tokens = [] := by
    intro p _ h
    split at h <;> cases h
    rfl
  unfold doFetchTrending at h
  split at h
  · simp [hempty h]
  · split at h
    · simp [hempty h]
    · intro t ht
      obtain ⟨data, -, hmade⟩ := bind_eq_ok.mp h
      obtain ⟨d, -, hd⟩ := forall₂_mem_left (mapM_eq_ok.mp hmade).flip ht
      exact chain_of_tokenOf hd

/-- Tokens of a chain come back as they were if each comes back as it was. -/
theorem map_reread_eq_iff (hchain : ∀ t ∈ tokens, t.chain = chain) :
    ((tokens.map TrendingToken.reread).map fun t => { t with chain }) = tokens ↔
      ∀ t ∈ tokens, t.reread = t := by
  refine (Eq.congr_right (List.map_id tokens).symm).trans ?_
  rw [List.map_map, List.map_inj_left]
  refine forall₂_congr fun t ht => ?_
  have ht' : ({ t.reread with chain } : TrendingToken) = t.reread := by
    rw [← hchain t ht]
    rfl
  exact (congrArg (· = t) ht').to_iff

/-- A snapshot of fetched tokens is saved and loads as it was if and only if its chain and interval
fit their columns, every number in it is finite, and no text in it has a NUL or a surrogate that is
followed by one that it makes up a pair with. -/
theorem snapshot_round_trip_iff (takenAt : ℤ) (table : ScannerSnapshots)
    (h : doFetchTrending T lax chain output = .ok tokens) :
    (∃ table', save chain interval ⟨chain, interval, tokens, takenAt⟩ table = .ok table' ∧
      load lax chain interval table' = .ok (some ⟨chain, interval, tokens, takenAt⟩)) ↔
    Fits chain interval ∧ ∀ t ∈ tokens, t.Storable := by
  have hreread := map_reread_eq_iff (chain_of_fetch h)
  constructor
  · rintro ⟨table', hsave, hload⟩
    obtain ⟨⟨hfits, hwritable⟩, rfl⟩ := save_eq_ok.mp hsave
    rw [load_upsert] at hload
    simp only [Except.ok.injEq, Option.some.injEq, Snapshot.mk.injEq, true_and, and_true] at hload
    have hkept := hreread.mp hload
    exact ⟨hfits, fun t ht => storable_iff.mpr ⟨hwritable t ht, hkept t ht⟩⟩
  · rintro ⟨hfits, hstorable⟩
    have hwritable : ∀ t ∈ tokens, t.Writable := fun t ht => (storable_iff.mp (hstorable t ht)).1
    have hkept := hreread.mpr fun t ht => (storable_iff.mp (hstorable t ht)).2
    refine ⟨_, save_eq_ok.mpr ⟨⟨hfits, hwritable⟩, rfl⟩, ?_⟩
    rw [load_upsert, hkept]

/-- The values of the types of the fields, and nothing else. -/
def Pydantic.strict : Pydantic where
  str
    | .str s => some s
    | _ => none
  float
    | .float x => some x
    | _ => none
  int
    | .int n => some n
    | _ => none
  bool
    | .bool b => some b
    | _ => none
  str_str _ := rfl
  float_float _ := rfl
  int_int _ := rfl
  bool_bool _ := rfl

/-- The tool prints one token, of the given symbol and price. -/
def oneToken (symbol : PyStr) (priceUsd : Float) : Output where
  returncode := 0
  stdout := some (.ok (.list [.dict [(ofString "address", .str (ofString "0xabc")),
    (ofString "symbol", .str symbol), (ofString "price_usd", .float priceUsd),
    (ofString "rank", .int 1)]]))
  reported := true
  printed := true

/-- The token that is read from it. -/
def theToken (symbol : PyStr) (priceUsd : Float) : TrendingToken where
  address := ofString "0xabc"
  symbol := symbol
  name := []
  priceUsd := priceUsd
  volume1m := none
  volume1h := none
  marketCap := none
  liquidity := none
  smartDegenCount := none
  rank := 1
  chain := ofString "sol"
  alsoIn1h := false

theorem snapshot_round_trip_iff_test :
    ∃ table', save (ofString "sol") (ofString "1m")
        ⟨ofString "sol", ofString "1m", [theToken (ofString "TEST") 0.5], 0⟩ .empty = .ok table' ∧
      load .strict (ofString "sol") (ofString "1m") table' =
        .ok (some ⟨ofString "sol", ofString "1m", [theToken (ofString "TEST") 0.5], 0⟩) := by
  have hfetch : doFetchTrending .plain .strict (ofString "sol") (oneToken (ofString "TEST") 0.5) =
      .ok [theToken (ofString "TEST") 0.5] := by
    refine toOption_eq_some.mp ?_
    decide +kernel
  refine (snapshot_round_trip_iff 0 .empty hfetch).mpr ⟨by decide, fun t ht => ?_⟩
  rw [List.mem_singleton.mp ht]
  exact
    { address := by unfold Kept; decide
      symbol := by unfold Kept; decide
      name := by unfold Kept; decide
      priceUsd := by decide +kernel
      numbers := by simp [theToken] }

/-- Nothing is saved once the symbol of a token is a NUL. -/
theorem nul_is_not_saved :
    ¬∀ (output : Output) (tokens : List TrendingToken) (takenAt : ℤ) (table : ScannerSnapshots),
      doFetchTrending .plain .strict (ofString "sol") output = .ok tokens →
      ∃ table', save (ofString "sol") (ofString "1m")
          ⟨ofString "sol", ofString "1m", tokens, takenAt⟩ table = .ok table' ∧
        load .strict (ofString "sol") (ofString "1m") table' =
          .ok (some ⟨ofString "sol", ofString "1m", tokens, takenAt⟩) := by
  intro hall
  have hfetch : doFetchTrending .plain .strict (ofString "sol") (oneToken (ofString "\x00") 0.5) =
      .ok [theToken (ofString "\x00") 0.5] := by
    refine toOption_eq_some.mp ?_
    decide +kernel
  obtain ⟨table', hsave, -⟩ := hall _ _ 0 .empty hfetch
  obtain ⟨⟨-, hwritable⟩, -⟩ := save_eq_ok.mp hsave
  obtain ⟨⟨-, hsymbol, -⟩, -⟩ := hwritable _ List.mem_cons_self
  exact absurd hsymbol (by decide)

end ChainMonitor.SnapshotStore
