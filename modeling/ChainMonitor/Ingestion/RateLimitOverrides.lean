import ChainMonitor.Ingestion.FallbackChain
import ChainMonitor.ProofKit.Dict
import Mathlib.Data.List.DropRight

/-! The rate limits of `IngestionSettings` in `shared/config/ingestion.py`: a provider and a chain
may have a value of their own, in override strings that anyone may edit. -/

namespace ChainMonitor.Ingestion

open ProofKit

structure IngestionSettings where
  rateLimitPerSecond : Float
  rateLimitCapacity : ℤ
  rateLimitPerSecondByChain : String
  rateLimitCapacityByChain : String
  rateLimitPerSecondByProvider : String
  rateLimitCapacityByProvider : String
  rateLimitPerSecondByProviderChain : String
  rateLimitCapacityByProviderChain : String

/-! ### The override strings -/

section Parsers

variable (T : Text)

/-- `text.split(c, 1)`, where `c` is in the text. -/
def splitOnce (c : Char) (text : List Char) : Option (List Char × List Char) :=
  if c ∈ text then some (text.takeWhile (· ≠ c), (text.dropWhile (· ≠ c)).drop 1) else none

/-- `text.strip().lower()`. -/
def normalized (text : List Char) : String := T.lower (.ofList (strip T text))

/-- The entries `key=value` of an override string, in order. One with an empty value, or whose key
`readKey` does not read, is left out. -/
def entries {κ : Type} (readKey : List Char → Option κ) (overrides : String) :
    List (κ × String) :=
  (((overrides.toList.splitOn ',').map (strip T)).filter (· ≠ [])).filterMap fun item => do
    let (key, value) ← splitOnce '=' item
    let key ← readKey key
    let value := strip T value
    if value = [] then none else some (key, .ofList value)

def chainKey (text : List Char) : Option String :=
  let key := normalized T text
  if key = "" then none else some key

def providerChainKey (text : List Char) : Option (String × String) := do
  let (provider, chainId) ← splitOnce ':' (normalized T text).toList
  let provider := normalized T provider
  let chainId := normalized T chainId
  if provider = "" ∨ chainId = "" then none else some (provider, chainId)

def parseChainOverride (overrides : String) : Dict String String :=
  Dict.ofPairs (entries T (chainKey T) overrides)

def parseProviderOverride (overrides : String) : Dict String String :=
  Dict.ofPairs (entries T (chainKey T) overrides)

def parseProviderChainOverride (overrides : String) : Dict (String × String) String :=
  Dict.ofPairs (entries T (providerChainKey T) overrides)

end Parsers

/-! ### The lookups -/

section Lookups

variable (T : Text) {α : Type} (read : String → Option α) (raise : α → α)

/-- `_chain_int_override` and `_chain_float_override`: `read` is `int` or `float`, and `raise` is
`max` with the minimum. -/
def chainOverride (chainId overrides : String) (default : α) : α :=
  match (parseChainOverride T overrides).get? chainId with
  | none => raise default
  | some raw =>
    match read raw with
    | some value => raise value
    | none => raise default

/-- `(provider or "").strip().lower()`. -/
def providerKey (provider : Option String) : String := normalized T (provider.getD "").toList

/-- `_provider_int_override` and `_provider_float_override`. -/
def providerOverride (chainId : String) (provider : Option String)
    (providerChainOverrides providerOverrides : String) : Option α :=
  let key := providerKey T provider
  if key = "" then none
  else
    match (parseProviderChainOverride T providerChainOverrides).get? (key, chainId) with
    | some raw => (read raw).map raise
    | none =>
      match (parseProviderOverride T providerOverrides).get? key with
      | some raw => (read raw).map raise
      | none => none

end Lookups

namespace IngestionSettings

variable (T : Text) (s : IngestionSettings) (chainId : String) (provider : Option String)

def getRateLimitPerSecond : Float :=
  match providerOverride T T.float (PyFloat.atLeast 0.01) chainId provider
      s.rateLimitPerSecondByProviderChain s.rateLimitPerSecondByProvider with
  | some value => value
  | none =>
    chainOverride T T.float (PyFloat.atLeast 0.01) chainId s.rateLimitPerSecondByChain
      s.rateLimitPerSecond

def getRateLimitCapacity : ℤ :=
  match providerOverride T T.int (max 1) chainId provider s.rateLimitCapacityByProviderChain
      s.rateLimitCapacityByProvider with
  | some value => value
  | none => chainOverride T T.int (max 1) chainId s.rateLimitCapacityByChain s.rateLimitCapacity

end IngestionSettings

/-! ### The entries of a call -/

/-- The values that the override strings have for a chain and a provider, in the order of the
entries. -/
structure Levels where
  providerChain : List String
  provider : List String
  chain : List String

/-- The values of the entries with a key. -/
def valuesOf {κ : Type} [DecidableEq κ] (key : κ) (entries : List (κ × String)) : List String :=
  (entries.filter fun e => e.1 = key).map Prod.snd

def levels (T : Text) (chainId : String) (provider : Option String)
    (providerChainOverrides providerOverrides chainOverrides : String) : Levels where
  providerChain := valuesOf (providerKey T provider, chainId)
    (entries T (providerChainKey T) providerChainOverrides)
  provider := valuesOf (providerKey T provider) (entries T (chainKey T) providerOverrides)
  chain := valuesOf chainId (entries T (chainKey T) chainOverrides)

namespace Levels

variable {α : Type} (read : String → Option α) (raise : α → α) (default : α) (l : Levels)

/-- The value of the last entry that is well formed. -/
def wellFormed (values : List String) : Option α := (values.filterMap read).getLast?

/-- The first well-formed entry in the order provider and chain, provider, chain, default. -/
def documented : α :=
  raise ((((wellFormed read l.providerChain).or (wellFormed read l.provider)).or
    (wellFormed read l.chain)).getD default)

/-- What the lookups take: of each level the last entry, well formed or not. -/
def looked : α :=
  match l.providerChain.getLast?.or l.provider.getLast? with
  | some raw => ((read raw).map raise).getD
      (raise ((l.chain.getLast?.bind read).getD default))
  | none => raise ((l.chain.getLast?.bind read).getD default)

/-- No malformed entry stands in front of a well-formed one, but for one with the value that is
taken in its place. -/
structure NothingHidden : Prop where
  provider : ∀ raw, l.providerChain.getLast?.or l.provider.getLast? = some raw → read raw = none →
    ∀ value, (wellFormed read l.providerChain).or (wellFormed read l.provider) = some value →
      raise value = raise ((l.chain.getLast?.bind read).getD default)
  chain : (wellFormed read l.providerChain).or (wellFormed read l.provider) = none →
    ∀ raw, l.chain.getLast? = some raw → read raw = none →
      ∀ value, wellFormed read l.chain = some value → raise value = raise default

/-- What there is without the entries of the chain. -/
def withoutChain : Levels := { l with providerChain := [], chain := [] }

/-- No well-formed entry of the chain stands in front of what the provider's last entry or the
default gives, but for one with that value. -/
structure NothingMissed : Prop where
  providerChain : ∀ value, wellFormed read l.providerChain = some value →
    raise value = raise ((l.provider.getLast?.bind read).getD default)
  rest : wellFormed read l.providerChain = none → l.provider.getLast?.bind read = none →
    ∀ value, (wellFormed read l.provider).or (wellFormed read l.chain) = some value →
      raise value = raise default

variable {read raise default l} {values : List String}

/-- A last entry that is well formed is the last of those that are. -/
theorem wellFormed_of_last {raw : String} {value : α} (hlast : values.getLast? = some raw)
    (hread : read raw = some value) : wellFormed read values = some value := by
  obtain ⟨front, rfl⟩ := List.getLast?_eq_some_iff.mp hlast
  simp [wellFormed, List.filterMap_append, hread]

theorem wellFormed_nil (h : values.getLast? = none) : wellFormed read values = none := by
  rw [List.getLast?_eq_none_iff] at h
  rw [h]
  rfl

/-- The chain level on its own. -/
theorem chain_iff :
    raise ((l.chain.getLast?.bind read).getD default) =
        raise ((wellFormed read l.chain).getD default) ↔
      ∀ raw, l.chain.getLast? = some raw → read raw = none →
        ∀ value, wellFormed read l.chain = some value → raise value = raise default := by
  cases hlast : l.chain.getLast? with
  | none => simp [wellFormed_nil hlast]
  | some raw =>
    cases hread : read raw with
    | some value => simp [wellFormed_of_last hlast hread, hread]
    | none =>
      cases hformed : wellFormed read l.chain with
      | none => simp [hread]
      | some value => simp [hread, eq_comm]

theorem looked_of_some {raw : String}
    (hraw : l.providerChain.getLast?.or l.provider.getLast? = some raw) :
    looked read raise default l = ((read raw).map raise).getD
      (raise ((l.chain.getLast?.bind read).getD default)) := by
  unfold looked
  rw [hraw]

theorem looked_of_none (hraw : l.providerChain.getLast?.or l.provider.getLast? = none) :
    looked read raise default l = raise ((l.chain.getLast?.bind read).getD default) := by
  unfold looked
  rw [hraw]

/-- Where there is no entry of the provider, none is well formed. -/
theorem formed_of_none (hraw : l.providerChain.getLast?.or l.provider.getLast? = none) :
    (wellFormed read l.providerChain).or (wellFormed read l.provider) = none := by
  obtain ⟨hproviderChain, hprovider⟩ := Option.or_eq_none_iff.mp hraw
  rw [wellFormed_nil hproviderChain, wellFormed_nil hprovider]
  rfl

/-- An entry that is found and well formed is the documented one. -/
theorem formed_of_read {raw : String} {value : α}
    (hraw : l.providerChain.getLast?.or l.provider.getLast? = some raw)
    (hread : read raw = some value) :
    (wellFormed read l.providerChain).or (wellFormed read l.provider) = some value := by
  rcases Option.or_eq_some_iff.mp hraw with hlast | ⟨hnone, hlast⟩
  · rw [wellFormed_of_last hlast hread]
    rfl
  · rw [wellFormed_nil hnone, wellFormed_of_last hlast hread]
    rfl

theorem nothingHidden_of_none
    (hformed : (wellFormed read l.providerChain).or (wellFormed read l.provider) = none) :
    NothingHidden read raise default l ↔
      raise ((l.chain.getLast?.bind read).getD default) =
        raise ((wellFormed read l.chain).getD default) := by
  rw [chain_iff]
  refine ⟨fun h => h.chain hformed, fun h => ⟨?_, fun _ => h⟩⟩
  intro _ _ _ value hvalue
  rw [hformed] at hvalue
  cases hvalue

theorem nothingHidden_of_some {value : α}
    (hformed : (wellFormed read l.providerChain).or (wellFormed read l.provider) = some value) :
    NothingHidden read raise default l ↔
      ∀ raw, l.providerChain.getLast?.or l.provider.getLast? = some raw → read raw = none →
        raise value = raise ((l.chain.getLast?.bind read).getD default) := by
  constructor
  · intro h raw hraw hread
    exact h.provider raw hraw hread value hformed
  · intro h
    constructor
    · intro raw hraw hread other hother
      obtain rfl := Option.some.inj (hformed.symm.trans hother)
      exact h raw hraw hread
    · intro hnone
      rw [hformed] at hnone
      cases hnone

/-- The lookups take what is documented exactly when no well-formed entry is hidden. -/
theorem looked_eq_iff :
    looked read raise default l = documented read raise default l ↔
      NothingHidden read raise default l := by
  unfold documented
  cases hraw : l.providerChain.getLast?.or l.provider.getLast? with
  | none =>
    have hformed : (wellFormed read l.providerChain).or (wellFormed read l.provider) = none :=
      formed_of_none hraw
    rw [looked_of_none hraw, hformed, Option.none_or, nothingHidden_of_none hformed]
  | some raw =>
    rw [looked_of_some hraw]
    cases hread : read raw with
    | some value =>
      have hformed := formed_of_read hraw hread
      rw [hformed, Option.some_or, Option.getD_some, nothingHidden_of_some hformed]
      refine iff_of_true rfl ?_
      intro other hother hmalformed
      obtain rfl := Option.some.inj (hraw.symm.trans hother)
      rw [hread] at hmalformed
      cases hmalformed
    | none =>
      rw [Option.map_none, Option.getD_none]
      cases hformed : (wellFormed read l.providerChain).or (wellFormed read l.provider) with
      | none => rw [Option.none_or, nothingHidden_of_none hformed]
      | some value =>
        rw [Option.some_or, Option.getD_some, nothingHidden_of_some hformed]
        exact ⟨fun h _ _ _ => h.symm, fun h => (h raw hraw hread).symm⟩

theorem looked_withoutChain : looked read raise default l.withoutChain =
    raise ((l.provider.getLast?.bind read).getD default) := by
  unfold looked withoutChain
  cases hlast : l.provider.getLast? with
  | none => rfl
  | some raw => cases hread : read raw <;> simp [hread]

/-- Without the entries of the chain the lookups take what is documented exactly when none of these
entries is missed. -/
theorem looked_withoutChain_eq_iff :
    looked read raise default l.withoutChain = documented read raise default l ↔
      NothingMissed read raise default l := by
  rw [looked_withoutChain]
  unfold documented
  cases hformed : wellFormed read l.providerChain with
  | some value =>
    rw [Option.some_or, Option.some_or, Option.getD_some]
    constructor
    · intro h
      refine ⟨fun other hother => ?_, fun hnone => ?_⟩
      · cases hformed.symm.trans hother
        exact h.symm
      · cases hformed.symm.trans hnone
    · exact fun h => (h.providerChain value hformed).symm
  | none =>
    rw [Option.none_or]
    cases hlast : l.provider.getLast?.bind read with
    | some value =>
      obtain ⟨raw, hraw, hread⟩ := Option.bind_eq_some_iff.mp hlast
      rw [wellFormed_of_last hraw hread, Option.some_or]
      refine iff_of_true rfl ⟨fun other hother => ?_, fun _ hnone => ?_⟩
      · cases hformed.symm.trans hother
      · cases hlast.symm.trans hnone
    | none =>
      constructor
      · intro h
        refine ⟨fun other hother => ?_, fun _ _ value hvalue => ?_⟩
        · cases hformed.symm.trans hother
        · rw [hvalue] at h
          exact h.symm
      · intro h
        cases hrest : (wellFormed read l.provider).or (wellFormed read l.chain) with
        | none => rfl
        | some value => exact (h.rest hformed hlast value hrest).symm

end Levels

/-! ### What a lookup takes -/

section Taken

variable {T : Text}

theorem get?_ofPairs_eq {κ : Type} [DecidableEq κ] (key : κ) (entries : List (κ × String)) :
    (Dict.ofPairs entries).get? key = (valuesOf key entries).getLast? := by
  rw [Dict.get?_ofPairs, valuesOf, List.getLast?_map, List.getLast?_eq_head?_reverse,
    ← List.filter_reverse, List.head?_filter]

theorem entries_key {κ : Type} {readKey : List Char → Option κ} {overrides : String}
    {e : κ × String} (h : e ∈ entries T readKey overrides) : ∃ text, readKey text = some e.1 := by
  obtain ⟨item, -, hitem⟩ := List.mem_filterMap.mp h
  obtain ⟨parts, -, hparts⟩ := Option.bind_eq_some_iff.mp hitem
  obtain ⟨key, hkey, hvalue⟩ := Option.bind_eq_some_iff.mp hparts
  dsimp only at hvalue
  split at hvalue
  · cases hvalue
  · cases hvalue
    exact ⟨_, hkey⟩

theorem chainKey_ne {text : List Char} {key : String} (h : chainKey T text = some key) :
    key ≠ "" := by
  unfold chainKey at h
  dsimp only at h
  split at h
  · cases h
  · cases h
    assumption

theorem providerChainKey_ne {text : List Char} {key : String × String}
    (h : providerChainKey T text = some key) : key.1 ≠ "" := by
  obtain ⟨parts, -, hparts⟩ := Option.bind_eq_some_iff.mp h
  dsimp only at hparts
  split at hparts
  · cases hparts
  · rename_i hne
    cases hparts
    exact fun hempty => hne (.inl hempty)

/-- The chain of a key is a text as the parsers spell it. -/
theorem providerChainKey_spelled {text : List Char} {key : String × String}
    (h : providerChainKey T text = some key) : ∃ chainId, key.2 = normalized T chainId := by
  obtain ⟨parts, -, hparts⟩ := Option.bind_eq_some_iff.mp h
  dsimp only at hparts
  split at hparts
  · cases hparts
  · cases hparts
    exact ⟨_, rfl⟩

theorem chainKey_spelled {text : List Char} {key : String} (h : chainKey T text = some key) :
    key = normalized T text := by
  unfold chainKey at h
  dsimp only at h
  split at h
  · cases h
  · cases h
    rfl

theorem valuesOf_eq_nil {κ : Type} [DecidableEq κ] {key : κ} {entries : List (κ × String)}
    (h : ∀ e ∈ entries, e.1 ≠ key) : valuesOf key entries = [] := by
  rw [valuesOf, List.map_eq_nil_iff, List.filter_eq_nil_iff]
  intro e he
  simpa using h e he

variable {α : Type} (read : String → Option α) (raise : α → α) (default : α) (chainId : String)
  (provider : Option String) (providerChainOverrides providerOverrides chainOverrides : String)

theorem chainOverride_eq : chainOverride T read raise chainId chainOverrides default =
    raise (((valuesOf chainId (entries T (chainKey T) chainOverrides)).getLast?.bind read).getD
      default) := by
  rw [chainOverride, parseChainOverride, get?_ofPairs_eq]
  cases (valuesOf chainId (entries T (chainKey T) chainOverrides)).getLast? with
  | none => rfl
  | some raw => cases hread : read raw <;> simp [hread]

/-- A blank provider has no entries. -/
theorem providerOverride_eq :
    providerOverride T read raise chainId provider providerChainOverrides providerOverrides =
      ((valuesOf (providerKey T provider, chainId)
          (entries T (providerChainKey T) providerChainOverrides)).getLast?.or
        (valuesOf (providerKey T provider)
          (entries T (chainKey T) providerOverrides)).getLast?).bind
        fun raw => (read raw).map raise := by
  unfold providerOverride
  dsimp only
  split
  · rename_i hblank
    rw [valuesOf_eq_nil, valuesOf_eq_nil]
    · rfl
    · intro e he hkey
      obtain ⟨text, htext⟩ := entries_key he
      exact chainKey_ne htext (hkey.trans hblank)
    · intro e he hkey
      obtain ⟨text, htext⟩ := entries_key he
      exact providerChainKey_ne htext ((congrArg Prod.fst hkey).trans hblank)
  · rw [parseProviderChainOverride, parseProviderOverride, get?_ofPairs_eq, get?_ofPairs_eq]
    cases (valuesOf (providerKey T provider, chainId)
      (entries T (providerChainKey T) providerChainOverrides)).getLast? with
    | some raw => rfl
    | none =>
      cases (valuesOf (providerKey T provider)
        (entries T (chainKey T) providerOverrides)).getLast? with
      | some raw => rfl
      | none => rfl

/-- The two lookups together. -/
theorem lookups_eq :
    (providerOverride T read raise chainId provider providerChainOverrides providerOverrides).getD
        (chainOverride T read raise chainId chainOverrides default) =
      (levels T chainId provider providerChainOverrides providerOverrides chainOverrides).looked
        read raise default := by
  rw [providerOverride_eq, chainOverride_eq, Levels.looked]
  dsimp only [levels]
  cases (valuesOf (providerKey T provider, chainId)
      (entries T (providerChainKey T) providerChainOverrides)).getLast?.or
    (valuesOf (providerKey T provider) (entries T (chainKey T) providerOverrides)).getLast? with
  | none => rfl
  | some raw => cases hread : read raw <;> simp [hread]

/-- The chain id is spelled as the parsers spell the keys. -/
def Spelled (T : Text) (chainId : String) : Prop := normalized T chainId.toList = chainId

/-- There are no entries for a chain id that is spelled otherwise. -/
theorem levels_of_not_spelled
    (hnormalized : ∀ text, normalized T (normalized T text).toList = normalized T text)
    (h : ¬Spelled T chainId) :
    levels T chainId provider providerChainOverrides providerOverrides chainOverrides =
      (levels T (normalized T chainId.toList) provider providerChainOverrides providerOverrides
        chainOverrides).withoutChain := by
  have hchain : valuesOf chainId (entries T (chainKey T) chainOverrides) = [] := by
    refine valuesOf_eq_nil fun e he hkey => h ?_
    obtain ⟨text, htext⟩ := entries_key he
    rw [Spelled, ← hkey, chainKey_spelled htext, hnormalized]
  have hproviderChain : valuesOf (providerKey T provider, chainId)
      (entries T (providerChainKey T) providerChainOverrides) = [] := by
    refine valuesOf_eq_nil fun e he hkey => h ?_
    obtain ⟨text, htext⟩ := entries_key he
    obtain ⟨text', htext'⟩ := providerChainKey_spelled htext
    have hsecond : chainId = normalized T text' := (congrArg Prod.snd hkey).symm.trans htext'
    rw [Spelled, hsecond, hnormalized]
  simp only [levels, Levels.withoutChain, hchain, hproviderChain]

/-- Every entry of the call that is well formed is reached. -/
structure Levels.Reached (T : Text) (chainId : String) (l : Levels) : Prop where
  hidden : Spelled T chainId → l.NothingHidden read raise default
  missed : ¬Spelled T chainId → l.NothingMissed read raise default

variable {read raise default chainId provider providerChainOverrides providerOverrides
  chainOverrides}

/-- The two lookups take what is documented for the chain, however its id is spelled. -/
theorem looked_levels_eq_iff
    (hnormalized : ∀ text, normalized T (normalized T text).toList = normalized T text)
    {l : Levels} (hl : l = levels T (normalized T chainId.toList) provider providerChainOverrides
      providerOverrides chainOverrides) :
    (levels T chainId provider providerChainOverrides providerOverrides chainOverrides).looked
        read raise default = l.documented read raise default ↔
      l.Reached read raise default T chainId := by
  subst hl
  by_cases hspelled : Spelled T chainId
  · have hid : normalized T chainId.toList = chainId := hspelled
    rw [hid, Levels.looked_eq_iff]
    exact ⟨fun h => ⟨fun _ => h, fun hnot => absurd hspelled hnot⟩, fun h => h.hidden hspelled⟩
  · rw [levels_of_not_spelled _ _ _ _ _ hnormalized hspelled, Levels.looked_withoutChain_eq_iff]
    exact ⟨fun h => ⟨fun h' => absurd h' hspelled, fun _ => h⟩, fun h => h.missed hspelled⟩

end Taken

namespace IngestionSettings

variable (T : Text) (s : IngestionSettings) (chainId : String) (provider : Option String)

/-- The values for the call, whose chain id counts however it is spelled, as the keys do. -/
def rateLevels : Levels :=
  levels T (normalized T chainId.toList) provider s.rateLimitPerSecondByProviderChain
    s.rateLimitPerSecondByProvider s.rateLimitPerSecondByChain

def capacityLevels : Levels :=
  levels T (normalized T chainId.toList) provider s.rateLimitCapacityByProviderChain
    s.rateLimitCapacityByProvider s.rateLimitCapacityByChain

theorem getRateLimitPerSecond_eq : s.getRateLimitPerSecond T chainId provider =
    (levels T chainId provider s.rateLimitPerSecondByProviderChain s.rateLimitPerSecondByProvider
      s.rateLimitPerSecondByChain).looked T.float (PyFloat.atLeast 0.01) s.rateLimitPerSecond := by
  rw [← lookups_eq, getRateLimitPerSecond]
  split <;> rename_i h <;> rw [h] <;> rfl

theorem getRateLimitCapacity_eq : s.getRateLimitCapacity T chainId provider =
    (levels T chainId provider s.rateLimitCapacityByProviderChain s.rateLimitCapacityByProvider
      s.rateLimitCapacityByChain).looked T.int (max 1) s.rateLimitCapacity := by
  rw [← lookups_eq, getRateLimitCapacity]
  split <;> rename_i h <;> rw [h] <;> rfl

end IngestionSettings

/-- A value that is taken has been raised to the minimum. -/
theorem Levels.looked_raised {α : Type} {read : String → Option α} {raise : α → α} {default : α}
    {l : Levels} : ∃ value, l.looked read raise default = raise value := by
  unfold looked
  split
  · rename_i raw _
    cases read raw with
    | some value => exact ⟨value, rfl⟩
    | none => exact ⟨_, rfl⟩
  · exact ⟨_, rfl⟩

/-- The limits are those of the first well-formed entries, and never below the minimum, exactly when
no malformed entry hides a well-formed one and no spelling of the chain id misses one. That a text
which is stripped and in lower case is so again is what `str` has. -/
theorem rate_limits_iff (T : Text) (s : IngestionSettings) (chainId : String)
    (provider : Option String)
    (hnormalized : ∀ text, normalized T (normalized T text).toList = normalized T text) :
    (s.getRateLimitPerSecond T chainId provider =
        (s.rateLevels T chainId provider).documented T.float (PyFloat.atLeast 0.01)
          s.rateLimitPerSecond ∧
      s.getRateLimitCapacity T chainId provider =
        (s.capacityLevels T chainId provider).documented T.int (max 1) s.rateLimitCapacity ∧
      0.01 ≤ s.getRateLimitPerSecond T chainId provider ∧
      1 ≤ s.getRateLimitCapacity T chainId provider) ↔
    (s.rateLevels T chainId provider).Reached T.float (PyFloat.atLeast 0.01) s.rateLimitPerSecond
        T chainId ∧
      (s.capacityLevels T chainId provider).Reached T.int (max 1) s.rateLimitCapacity T
        chainId := by
  have hrate : 0.01 ≤ s.getRateLimitPerSecond T chainId provider := by
    rw [s.getRateLimitPerSecond_eq]
    obtain ⟨value, hvalue⟩ := Levels.looked_raised (α := Float)
    rw [hvalue]
    exact PyFloat.le_atLeast (by decide +kernel) value
  have hcapacity : 1 ≤ s.getRateLimitCapacity T chainId provider := by
    rw [s.getRateLimitCapacity_eq]
    obtain ⟨value, hvalue⟩ := Levels.looked_raised (α := ℤ)
    rw [hvalue]
    exact le_max_left _ _
  rw [← looked_levels_eq_iff (l := s.rateLevels T chainId provider) hnormalized rfl,
    ← looked_levels_eq_iff (l := s.capacityLevels T chainId provider) hnormalized rfl,
    ← s.getRateLimitPerSecond_eq, ← s.getRateLimitCapacity_eq]
  exact ⟨fun h => ⟨h.1, h.2.1⟩, fun h => ⟨h.1, h.2, hrate, hcapacity⟩⟩

/-! ### Text of ASCII alone -/

section Plain

theorem toLower_upper {c : Char} (h : c.isUpper = true) :
    c.toLower.isUpper = false ∧ c.toLower.isWhitespace = false ∧ c.isWhitespace = false := by
  have hletters : ∀ n : Fin 26, let c := Char.ofNat ('A'.toNat + n)
      c.toLower.isUpper = false ∧ c.toLower.isWhitespace = false ∧ c.isWhitespace = false := by
    decide
  have hle : 'A'.toNat ≤ c.toNat ∧ c.toNat ≤ 'Z'.toNat := of_decide_eq_true h
  have hletter := hletters ⟨c.toNat - 'A'.toNat, by
    have : 'Z'.toNat = 'A'.toNat + 25 := by decide
    omega⟩
  dsimp only at hletter
  rwa [Nat.add_sub_cancel' hle.1, Char.ofNat_toNat] at hletter

theorem toLower_of_not_upper {c : Char} (h : c.isUpper = false) : c.toLower = c :=
  dif_neg (of_decide_eq_false h)

theorem toLower_toLower (c : Char) : c.toLower.toLower = c.toLower := by
  cases h : c.isUpper with
  | true => exact toLower_of_not_upper (toLower_upper h).1
  | false => rw [toLower_of_not_upper h, toLower_of_not_upper h]

theorem isWhitespace_toLower (c : Char) : c.toLower.isWhitespace = c.isWhitespace := by
  cases h : c.isUpper with
  | true => rw [(toLower_upper h).2.1, (toLower_upper h).2.2]
  | false => rw [toLower_of_not_upper h]

variable {T : Text} {cs : List Char}

theorem strip_eq : strip T cs = (cs.dropWhile T.isSpace).rdropWhile T.isSpace := rfl

theorem strip_strip : strip T (strip T cs) = strip T cs := by
  have hhead : (strip T cs).dropWhile T.isSpace = strip T cs := by
    rw [List.dropWhile_eq_self_iff]
    intro hpos
    have hpre : strip T cs <+: cs.dropWhile T.isSpace := List.rdropWhile_prefix ..
    rw [hpre.getElem hpos]
    exact List.dropWhile_get_zero_not _ _ _
  rw [strip_eq, hhead, strip_eq, List.rdropWhile_idempotent]

theorem strip_map {f : Char → Char} (h : ∀ c, T.isSpace (f c) = T.isSpace c) :
    strip T (cs.map f) = (strip T cs).map f := by
  have hspace : T.isSpace ∘ f = T.isSpace := funext h
  simp only [strip, List.dropWhile_map, ← List.map_reverse, hspace]

theorem normalized_plain (text : List Char) :
    normalized .plain (normalized .plain text).toList = normalized .plain text := by
  have hlower : ∀ cs, (normalized .plain cs).toList = (strip .plain cs).map Char.toLower := by
    intro cs
    change (String.map Char.toLower (String.ofList (strip .plain cs))).toList = _
    rw [String.toList_map, String.toList_ofList]
  refine String.toList_injective ?_
  rw [hlower, hlower, strip_map isWhitespace_toLower, strip_strip, List.map_map]
  exact List.map_congr_left fun c _ => toLower_toLower c

end Plain

/-- A rate of a chain. -/
def cased : IngestionSettings where
  rateLimitPerSecond := 10
  rateLimitCapacity := 20
  rateLimitPerSecondByChain := "BSC=9"
  rateLimitCapacityByChain := ""
  rateLimitPerSecondByProvider := ""
  rateLimitCapacityByProvider := ""
  rateLimitPerSecondByProviderChain := ""
  rateLimitCapacityByProviderChain := ""

/-- A chain id that is spelled as its entry is does not reach the entry. -/
theorem rate_limits_iff_cased :
    ¬(cased.getRateLimitPerSecond .plain "BSC" none =
        (cased.rateLevels .plain "BSC" none).documented Text.plain.float (PyFloat.atLeast 0.01) 10 ∧
      cased.getRateLimitCapacity .plain "BSC" none =
        (cased.capacityLevels .plain "BSC" none).documented Text.plain.int (max 1) 20 ∧
      0.01 ≤ cased.getRateLimitPerSecond .plain "BSC" none ∧
      1 ≤ cased.getRateLimitCapacity .plain "BSC" none) := by
  intro h
  have hreached := ((rate_limits_iff .plain cased "BSC" none normalized_plain).mp h).1
  have hequal := (hreached.missed (by unfold Spelled; decide +kernel)).rest (by decide +kernel)
    (by decide +kernel) 9 (by decide +kernel)
  exact absurd hequal (by decide +kernel)

/-- A rate of the provider, and one that is mistyped for the provider on the chain. -/
def mistyped : IngestionSettings where
  rateLimitPerSecond := 10
  rateLimitCapacity := 20
  rateLimitPerSecondByChain := ""
  rateLimitCapacityByChain := ""
  rateLimitPerSecondByProvider := "dexscreener=4"
  rateLimitCapacityByProvider := ""
  rateLimitPerSecondByProviderChain := "dexscreener:bsc=3.5rps"
  rateLimitCapacityByProviderChain := ""

/-- The provider is asked at the default rate, not at its own. -/
theorem mistyped_rate :
    ¬∀ (T : Text) (s : IngestionSettings) (chainId : String) (provider : Option String),
      s.getRateLimitPerSecond T chainId provider =
        (s.rateLevels T chainId provider).documented T.float (PyFloat.atLeast 0.01)
          s.rateLimitPerSecond := by
  intro h
  exact absurd (h Text.plain mistyped "bsc" (some "dexscreener")) (by decide +kernel)

end ChainMonitor.Ingestion
