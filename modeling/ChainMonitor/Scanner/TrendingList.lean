import ChainMonitor.Scanner.SnapshotStore

/-! What one element of the list that the command line tool prints costs the others. What is no
`dict` is skipped; a `dict` of which no token can be made ends the call. -/

namespace ChainMonitor.SnapshotStore

open ProofKit

/-! ### Well-typed elements -/

/-- What the types of a token leave open: for which of the fields that may be `None` or that the
call replaces where they are falsy a null counts as a value, and whether the text of a number counts
as one where the call converts it. -/
structure Reading where
  null : String → Bool
  texts : Bool

section WellTyped

variable (T : Text) (r : Reading)

def isText : PyValue → Bool
  | .str _ => true
  | _ => false

/-- A number that a `float` can hold. -/
def isNumber : PyValue → Bool
  | .int n => (PyFloat.ofInt n).isOk
  | .float _ => true
  | .str s => r.texts && ((asString s).bind T.float).isSome
  | _ => false

def isCount : PyValue → Bool
  | .int _ => true
  | _ => false

def isRank : PyValue → Bool
  | .int _ => true
  | .str s => r.texts && ((asString s).bind T.int).isSome
  | _ => false

/-- The field is left out, or has a value of its type. -/
def required (name : String) (isValue : PyValue → Bool) (d : List (PyStr × PyValue)) : Bool :=
  match getItem name d with
  | none => true
  | some value => isValue value

/-- The field is left out, or has a value of its type, or is null where that counts. -/
def nullable (name : String) (isValue : PyValue → Bool) (d : List (PyStr × PyValue)) : Bool :=
  match getItem name d with
  | none => true
  | some .null => r.null name
  | some value => isValue value

/-- An object whose fields have values of the types that a token has for them. -/
def wellTyped (d : List (PyStr × PyValue)) : Bool :=
  required "address" isText d && required "symbol" isText d && required "name" isText d &&
    nullable r "price_usd" (isNumber T r) d && nullable r "volume_1m" (isNumber T r) d &&
    nullable r "volume_1h" (isNumber T r) d && nullable r "market_cap" (isNumber T r) d &&
    nullable r "liquidity" (isNumber T r) d && nullable r "smart_degen_count" isCount d &&
    required "rank" (isRank T r) d

end WellTyped

variable {T : Text} {r : Reading} {lax : Pydantic} {chain : PyStr} {d : List (PyStr × PyValue)}
  {name : String}

theorem isOk_iff {α : Type} {x : Except PyError α} : x.isOk = true ↔ ∃ a, x = .ok a := by
  cases x with
  | error e => simp [Except.isOk, Except.toBool]
  | ok a => simp [Except.isOk, Except.toBool]

/-- A text is read as it is, and so is the empty one that stands for a field that is left out. -/
theorem read_text (h : required name isText d = true) :
    ∃ s, lax.str ((getItem name d).getD (.str [])) = some s := by
  unfold required at h
  cases hget : getItem name d with
  | none => exact ⟨[], lax.str_str []⟩
  | some value =>
    rw [hget] at h
    cases value with
    | str s => exact ⟨s, lax.str_str s⟩
    | _ => cases h

theorem toFloat_of_isNumber {value : PyValue} (h : isNumber T r value = true) :
    ∃ x, toFloat T value = .ok x := by
  cases value with
  | int n => exact isOk_iff.mp h
  | float x => exact ⟨x, rfl⟩
  | str s =>
    obtain ⟨x, hx⟩ := Option.isSome_iff_exists.mp (Bool.and_eq_true_iff.mp h).2
    exact ⟨x, by simp [toFloat, JsonValue.toFloat, hx]⟩
  | _ => cases h

theorem toInt_of_isRank {value : PyValue} (h : isRank T r value = true) :
    ∃ n, toInt T value = .ok n := by
  cases value with
  | int n => exact ⟨n, rfl⟩
  | str s =>
    obtain ⟨n, hn⟩ := Option.isSome_iff_exists.mp (Bool.and_eq_true_iff.mp h).2
    exact ⟨n, by simp [toInt, JsonValue.toInt, hn]⟩
  | _ => cases h

/-- A price that is left out, null or zero is read as zero. -/
theorem read_price (h : nullable r "price_usd" (isNumber T r) d = true) :
    ∃ x, toFloat T (if truthy ((getItem "price_usd" d).getD (.int 0)) then
      (getItem "price_usd" d).getD (.int 0) else .int 0) = .ok x := by
  have hzero : ∃ x, toFloat T (.int 0) = .ok x :=
    isOk_iff.mp (show (PyFloat.ofInt 0).isOk = true by decide +kernel)
  unfold nullable at h
  cases hget : getItem "price_usd" d with
  | none => simpa [truthy] using hzero
  | some value =>
    rw [Option.getD_some]
    by_cases htruthy : truthy value = true
    · rw [if_pos htruthy]
      rw [hget] at h
      cases value with
      | null => cases htruthy
      | _ => exact toFloat_of_isNumber h
    · rwa [if_neg htruthy]

theorem read_amount (h : nullable r name (isNumber T r) d = true) :
    ∃ value, safeFloat T d name = .ok value := by
  unfold nullable at h
  unfold safeFloat
  cases hget : getItem name d with
  | none => exact ⟨.null, rfl⟩
  | some value =>
    rw [hget] at h
    cases value with
    | null => exact ⟨.null, rfl⟩
    | _ =>
      obtain ⟨x, hx⟩ := toFloat_of_isNumber h
      exact ⟨.float x, bind_eq_ok.mpr ⟨x, hx, rfl⟩⟩

theorem read_count (h : nullable r name isCount d = true) :
    ∃ n, optional lax.int ((getItem name d).getD .null) = some n := by
  unfold nullable at h
  cases hget : getItem name d with
  | none => exact ⟨none, rfl⟩
  | some value =>
    rw [hget] at h
    cases value with
    | null => exact ⟨none, rfl⟩
    | int n => exact ⟨some n, by simp [optional, lax.int_int]⟩
    | _ => cases h

theorem read_rank (h : required name (isRank T r) d = true) :
    ∃ n, toInt T ((getItem name d).getD (.int 0)) = .ok n := by
  unfold required at h
  cases hget : getItem name d with
  | none => exact ⟨0, rfl⟩
  | some value =>
    rw [hget] at h
    exact toInt_of_isRank h

/-- A float that has been read is read again, and so is `None`. -/
theorem optional_of_safeFloat {value : PyValue} (h : safeFloat T d name = .ok value) :
    ∃ x, optional lax.float value = some x := by
  unfold safeFloat at h
  split at h
  · cases h
    exact ⟨none, rfl⟩
  · cases h
    exact ⟨none, rfl⟩
  · obtain ⟨x, -, hx⟩ := bind_eq_ok.mp h
    cases hx
    exact ⟨some x, by simp [optional, lax.float_float]⟩

theorem field_eq_ok {α : Type} {read : PyValue → Option α} {default : Option α}
    {kwargs : List (PyStr × PyValue)} {a : α} : field name read default kwargs = .ok a ↔
      (getItem name kwargs).elim (default = some a) fun value => read value = some a := by
  unfold field
  cases getItem name kwargs with
  | none =>
    cases default with
    | none => simp
    | some b => simp
  | some value =>
    dsimp only [Option.elim_some]
    cases read value with
    | none => simp
    | some b => simp

/-- The token is made when each value that is not made by the call is read. -/
theorem validate_isOk {address symbol title v1m v1h cap liquidity degens : PyValue} {price : Float}
    {rank : ℤ} (haddress : ∃ s, lax.str address = some s) (hsymbol : ∃ s, lax.str symbol = some s)
    (htitle : ∃ s, lax.str title = some s)
    (hamounts : ∀ value ∈ [v1m, v1h, cap, liquidity], ∃ x, optional lax.float value = some x)
    (hdegens : ∃ n, optional lax.int degens = some n) :
    ∃ t, TrendingToken.validate lax [(ofString "address", address), (ofString "symbol", symbol),
      (ofString "name", title), (ofString "price_usd", .float price),
      (ofString "volume_1m", v1m), (ofString "volume_1h", v1h), (ofString "market_cap", cap),
      (ofString "liquidity", liquidity), (ofString "smart_degen_count", degens),
      (ofString "rank", .int rank), (ofString "chain", .str chain)] = .ok t := by
  obtain ⟨a, ha⟩ := haddress
  obtain ⟨s, hs⟩ := hsymbol
  obtain ⟨n, hn⟩ := htitle
  obtain ⟨⟨m1, hm1⟩, ⟨h1, hh1⟩, ⟨c, hc⟩, l, hl⟩ :
      (∃ x, optional lax.float v1m = some x) ∧ (∃ x, optional lax.float v1h = some x) ∧
        (∃ x, optional lax.float cap = some x) ∧ ∃ x, optional lax.float liquidity = some x := by
    simpa using hamounts
  obtain ⟨g, hg⟩ := hdegens
  simp only [TrendingToken.validate, bind_eq_ok, field_eq_ok]
  simp only [getItem, decide_true, List.find?_cons_of_pos, Option.map_some, reduceCtorEq,
    Option.elim_some, ofString_inj, String.reduceEq, decide_false,
    not_false_eq_true, List.find?_cons_of_neg, lax.float_float, Option.some.injEq, lax.int_int,
    lax.str_str, List.find?_nil, Option.map_none, Bool.false_eq, Option.elim_none, exists_eq_left,
    exists_eq_left']
  exact ⟨_, a, ha, s, hs, n, hn, m1, hm1, h1, hh1, c, hc, l, hl, g, hg, rfl⟩

/-- A token is made of a well-typed element. -/
theorem tokenOf_of_wellTyped (h : wellTyped T r d = true) : ∃ t, tokenOf T lax chain d = .ok t := by
  simp only [wellTyped, Bool.and_eq_true, and_assoc] at h
  obtain ⟨haddress, hsymbol, hname, hprice, hv1m, hv1h, hcap, hliquidity, hcount, hrank⟩ := h
  obtain ⟨price, hprice⟩ := read_price hprice
  obtain ⟨v1m, hv1m⟩ := read_amount hv1m
  obtain ⟨v1h, hv1h⟩ := read_amount hv1h
  obtain ⟨cap, hcap⟩ := read_amount hcap
  obtain ⟨liquidity, hliquidity⟩ := read_amount hliquidity
  obtain ⟨rank, hrank⟩ := read_rank hrank
  have hamounts : ∀ value ∈ [v1m, v1h, cap, liquidity], ∃ x, optional lax.float value = some x := by
    simp [optional_of_safeFloat hv1m, optional_of_safeFloat hv1h, optional_of_safeFloat hcap,
      optional_of_safeFloat hliquidity]
  obtain ⟨t, ht⟩ := validate_isOk (read_text haddress) (read_text hsymbol) (read_text hname)
    hamounts (read_count hcount)
  unfold tokenOf
  simp only [bind_eq_ok]
  exact ⟨t, price, hprice, v1m, hv1m, v1h, hv1h, cap, hcap, liquidity, hliquidity, rank, hrank, ht⟩

/-! ### The list -/

/-- The objects of the list that the tool prints. -/
def objects (data : PyValue) : List (List (PyStr × PyValue)) := (rawTokens data).filterMap asDict

/-- The tool prints a JSON document, of which `json.loads` makes `loaded`. -/
def printing (loaded : Except PyError PyValue) : Output := ⟨0, some loaded, true, true⟩

/-- The call returns the tokens of the well-typed objects, in their order. -/
def Skips (T : Text) (lax : Pydantic) (r : Reading) (chain : PyStr)
    (loaded : Except PyError PyValue) : Prop :=
  ∃ tokens, doFetchTrending T lax chain (printing loaded) = .ok tokens ∧
    ∀ data, loaded = .ok data → List.Forall₂ (fun d t => tokenOf T lax chain d = .ok t)
      ((objects data).filter (wellTyped T r)) tokens

theorem doFetchTrending_printing {loaded : Except PyError PyValue} {tokens : List TrendingToken} :
    doFetchTrending T lax chain (printing loaded) = .ok tokens ↔ ∃ data, loaded = .ok data ∧
      List.Forall₂ (fun d t => tokenOf T lax chain d = .ok t) (objects data) tokens := by
  show loaded >>= _ = .ok tokens ↔ _
  simp only [bind_eq_ok, mapM_eq_ok, objects]

/-- A malformed element costs only itself when there is none, and the document is read. -/
theorem skips_iff (T : Text) (lax : Pydantic) (r : Reading) (chain : PyStr)
    (loaded : Except PyError PyValue) :
    Skips T lax r chain loaded ↔
      ∃ data, loaded = .ok data ∧ ∀ d ∈ objects data, wellTyped T r d = true := by
  unfold Skips
  constructor
  · rintro ⟨tokens, hmade, hskip⟩
    obtain ⟨data, rfl, hall⟩ := doFetchTrending_printing.mp hmade
    -- as many objects are well typed as there are objects, since each of both has a token
    have hlength : ((objects data).filter (wellTyped T r)).length = (objects data).length :=
      (hskip data rfl).length_eq.trans hall.length_eq.symm
    exact ⟨data, rfl, List.length_filter_eq_length_iff.mp hlength⟩
  · rintro ⟨data, rfl, hall⟩
    obtain ⟨tokens, htokens⟩ := exists_forall₂.mpr fun d hd => tokenOf_of_wellTyped (hall d hd)
    refine ⟨tokens, doFetchTrending_printing.mpr ⟨data, rfl, htokens⟩, ?_⟩
    rintro _ ⟨⟩
    rwa [List.filter_eq_self.mpr hall]

/-- A token, and beside it one without a rank. -/
def unrankedBeside : PyValue :=
  .list [.dict [(ofString "address", .str (ofString "0xabc")),
    (ofString "symbol", .str (ofString "TEST")), (ofString "price_usd", .float 0.5),
    (ofString "rank", .int 1)], .dict [(ofString "rank", .null)]]

/-- The element without a rank costs the token of the other one, whatever counts as a number. -/
theorem unranked_voids_list :
    ¬∃ r, Skips .plain .strict r (ofString "sol") (.ok unrankedBeside) := by
  rintro ⟨r, tokens, hmade, -⟩
  have herror : (doFetchTrending .plain .strict (ofString "sol")
      (printing (.ok unrankedBeside))).isOk = false := by
    decide +kernel
  rw [hmade] at herror
  cases herror

end ChainMonitor.SnapshotStore
