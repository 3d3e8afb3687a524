import ChainMonitor.Ingestion.Adapters

/-! What a malformed element of an answer costs. DexScreener's rows of an answer are lost when any
element of it, or the best pair of any token, raises; and with both DexScreener and GeckoTerminal a
malformed element with the greatest liquidity stands in for the token's well-formed ones. -/

namespace ChainMonitor.Adapters

open ProofKit

variable {T : Text}

/-! ### The best of the candidates -/

theorem excepting_eq_ok {α : Type} {default x : α} {attempt : Except PyError α}
    (h : excepting default attempt = .ok x) : x = default ∨ attempt = .ok x := by
  unfold excepting at h
  split at h
  · exact .inl (Except.ok.inj h).symm
  · exact .inl (Except.ok.inj h).symm
  · exact .inr h

theorem safeFloat_isFinite {value : Json} {default : Option Float} {x : Float}
    (hdefault : ∀ y, default = some y → PyFloat.isFinite y)
    (h : safeFloat T value default = .ok (some x)) : PyFloat.isFinite x := by
  unfold safeFloat at h
  split at h
  · exact hdefault x (Except.ok.inj h)
  · rcases excepting_eq_ok h with h | h
    · exact hdefault x h.symm
    · obtain ⟨parsed, -, hparsed⟩ := map_eq_ok.mp h
      split at hparsed
      · rename_i hfinite
        exact Option.some.inj hparsed ▸ hfinite
      · exact hdefault x hparsed

theorem orZero_isFinite {value : Option Float} (h : ∀ y, value = some y → PyFloat.isFinite y) :
    PyFloat.isFinite (orZero value) := by
  have hzero : PyFloat.isFinite 0 = true := by decide +kernel
  unfold orZero
  split
  · split
    · exact h _ rfl
    · exact hzero
  · exact hzero

/-- A sort key that is read from a number is finite. -/
theorem key_isFinite {value : Json} {x : Float}
    (h : orZero <$> safeFloat T value (some 0) = .ok x) : PyFloat.isFinite x := by
  obtain ⟨number, hnumber, rfl⟩ := map_eq_ok.mp h
  apply orZero_isFinite
  rintro y rfl
  refine safeFloat_isFinite ?_ hnumber
  intro z hz
  obtain rfl := Option.some.inj hz
  decide +kernel

theorem DexScreener.pairKey_isFinite {raw : Json} {x : Float} (h : pairKey T raw = .ok x) :
    PyFloat.isFinite x := by
  simp only [pairKey, liquidity, bind_eq_ok] at h
  obtain ⟨number, ⟨a, ha, b, hb, hnumber⟩, hx⟩ := h
  exact key_isFinite (map_eq_ok.mpr ⟨number, hnumber, Except.ok.inj hx⟩)

theorem GeckoTerminal.poolScore_isFinite {pool : Json} {x : Float} (h : poolScore T pool = .ok x) :
    PyFloat.isFinite x := by
  rw [poolScore, bind_eq_ok] at h
  obtain ⟨attrs, -, h⟩ := h
  split at h
  · simp only [bind_eq_ok] at h
    obtain ⟨reserve, -, number, hnumber, hx⟩ := h
    exact key_isFinite (map_eq_ok.mpr ⟨number, hnumber, Except.ok.inj hx⟩)
  · rw [← Except.ok.inj h]
    decide +kernel

/-- Candidates that are left out change nothing, as long as the best one stays. -/
theorem pickBest_filter {key : Json → Except PyError Float} {candidates : List Json} {best : Json}
    {p : Json → Bool} (hkey : ∀ x k, key x = .ok k → PyFloat.isFinite k)
    (h : pickBest key candidates = .ok best) (hbest : p best = true) :
    pickBest key (candidates.filter p) = .ok best := by
  obtain ⟨hne, hkeys⟩ := pickBest_eq_ok h
  obtain ⟨c, cs, rfl⟩ := List.exists_cons_of_ne_nil hne
  choose! value hvalue using hkeys
  rw [pickBest_cons hvalue, Except.ok.injEq] at h
  have hmem : best ∈ (c :: cs).filter p := List.mem_filter.mpr ⟨h ▸ firstMax_mem value c cs, hbest⟩
  obtain ⟨d, ds, hfilter⟩ := List.exists_cons_of_ne_nil (List.ne_nil_of_mem hmem)
  have hsub : ∀ x ∈ d :: ds, x ∈ c :: cs := by
    intro x hx
    rw [← hfilter] at hx
    exact (List.mem_filter.mp hx).1
  have hfinite : ∀ x ∈ c :: cs, PyFloat.isFinite (value x) := fun x hx => hkey x _ (hvalue x hx)
  have hrank : ∀ x ∈ c :: cs, ∀ y ∈ c :: cs,
      value x < value y ↔ PyFloat.rank (value x) < PyFloat.rank (value y) :=
    fun x hx y hy => PyFloat.lt_iff_rank_lt (hfinite x hx) (hfinite y hy)
  rw [hfilter, pickBest_cons fun x hx => hvalue x (hsub x hx), Except.ok.injEq,
    firstMax_congr fun x hx y hy => hrank x (hsub x hx) y (hsub y hy)]
  rw [firstMax_congr hrank] at h
  rw [← h] at hbest ⊢
  exact firstMax_filter hbest hfilter

/-! ### Answers without their malformed elements -/

def pruneItems (p : Json → Bool) : Json → Json
  | .list items => .list (items.filter p)
  | value => value

/-- The payload with its list under `name` without the elements that `p` rejects. -/
def prune (name : String) (p : Json → Bool) : Json → Json
  | .dict members =>
    .dict (members.map fun m => (m.1, if m.1 = name then pruneItems p m.2 else m.2))
  | value => value

def pruneAnswer (name : String) (p : Json → Bool) (answer : Answer) : Answer :=
  Option.map (prune name p) <$> answer

variable {name : String} {p : Json → Bool}

theorem find?_prune (members : List (String × Json)) (other : String) :
    ((members.map fun m => (m.1, if m.1 = name then pruneItems p m.2 else m.2)).reverse.find?
      fun m => m.1 = other) = (members.reverse.find? fun m => m.1 = other).map fun m =>
        (m.1, if m.1 = name then pruneItems p m.2 else m.2) := by
  rw [← List.map_reverse, List.find?_map]
  rfl

theorem get_prune (payload : Json) :
    (prune name p payload).get name (.list []) = pruneItems p <$> payload.get name (.list []) := by
  cases payload with
  | dict members =>
    show Except.ok _ = Except.ok _
    rw [find?_prune]
    congr 1
    cases hfind : members.reverse.find? fun m => m.1 = name with
    | none => rfl
    | some m =>
      have hname : m.1 = name := by simpa using List.find?_some hfind
      simp [hname]
  | _ => rfl

theorem get_prune_of_ne {payload default : Json} {other : String} (h : other ≠ name) :
    (prune name p payload).get other default = payload.get other default := by
  cases payload with
  | dict members =>
    show Except.ok _ = Except.ok _
    rw [find?_prune]
    cases hfind : members.reverse.find? fun m => m.1 = other with
    | none => rfl
    | some m =>
      have hname : m.1 = other := by simpa using List.find?_some hfind
      simp [hname, h]
  | _ => rfl

/-! ### DexScreener -/

namespace DexScreener

variable {a : DexScreener} {addresses : Dict String String} {wellFormed : Json → Bool}

/-- No element of an answer raises where it is grouped, and no group where it makes its pair. -/
def Survives (T : Text) (a : DexScreener) (addresses : Dict String String) (pairs : List Json) :
    Prop :=
  (∀ raw ∈ pairs, ∃ target, groupOf T a addresses raw = .ok target) ∧
  ∀ address, group T a addresses address pairs ≠ [] →
    ∃ made, groupPair T a addresses (address, group T a addresses address pairs) = .ok made

/-- The addresses of the groups, in the order in which the elements first name them. -/
def order (T : Text) (a : DexScreener) (addresses : Dict String String) (pairs : List Json) :
    List String :=
  (pairs.filterMap fun raw => given (groupOf T a addresses raw)).eraseDups

/-- The group of the address makes a pair for the symbol. -/
def Made (T : Text) (a : DexScreener) (addresses : Dict String String) (symbol : String)
    (pairs : List Json) (address : String) (pair : NormalizedPair) : Prop :=
  addresses.get? address = some symbol ∧
    groupPair T a addresses (address, group T a addresses address pairs) = .ok (some pair)

/-- The elements give the symbol the pair: they survive, and of the addresses that make a pair for
the symbol the last one makes this one. -/
def Row (T : Text) (a : DexScreener) (addresses : Dict String String) (symbol : String)
    (pairs : List Json) (pair : NormalizedPair) : Prop :=
  Survives T a addresses pairs ∧
    Dict.IsLast (Made T a addresses symbol pairs) (order T a addresses pairs) pair

/-- The best element of the address is well formed, and the well-formed ones make the pair. -/
def Kept (T : Text) (a : DexScreener) (addresses : Dict String String) (wellFormed : Json → Bool)
    (symbol : String) (pairs : List Json) (address : String) (pair : NormalizedPair) : Prop :=
  (∃ best, pickBest (pairKey T) (group T a addresses address pairs) = .ok best ∧
    wellFormed best = true) ∧ Made T a addresses symbol (pairs.filter wellFormed) address pair

/-- The best element of the address is malformed, and makes the pair. -/
def Replaced (T : Text) (a : DexScreener) (addresses : Dict String String)
    (wellFormed : Json → Bool) (symbol : String) (pairs : List Json) (address : String)
    (pair : NormalizedPair) : Prop :=
  addresses.get? address = some symbol ∧
    ∃ best, pickBest (pairKey T) (group T a addresses address pairs) = .ok best ∧
      wellFormed best = false ∧ a.normalizePair T best symbol = .ok (some pair)

/-- The well-formed elements of the answer give the symbol the pair. -/
def Offers (T : Text) (a : DexScreener) (addresses : Dict String String) (wellFormed : Json → Bool)
    (symbol : String) (answer : Answer) (pair : NormalizedPair) : Prop :=
  ∃ pairs, elements answer = .ok pairs ∧ Row T a addresses symbol (pairs.filter wellFormed) pair

/-- All the elements survive, and of the addresses of the symbol the last one that keeps the pair of
its well-formed elements, or has another one from a malformed element, has this one. -/
def Gives (T : Text) (a : DexScreener) (addresses : Dict String String) (wellFormed : Json → Bool)
    (symbol : String) (answer : Answer) (pair : NormalizedPair) : Prop :=
  ∃ pairs, elements answer = .ok pairs ∧ Survives T a addresses pairs ∧
    Dict.IsLast (fun address p => Kept T a addresses wellFormed symbol pairs address p ∨
      Replaced T a addresses wellFormed symbol pairs address p) (order T a addresses pairs) pair

theorem elements_pruneAnswer (answer : Answer) :
    elements (pruneAnswer "pairs" p answer) = List.filter p <$> elements answer := by
  unfold elements pruneAnswer
  match answer with
  | .error _ => rfl
  | .ok none => rfl
  | .ok (some payload) =>
    show ((prune "pairs" p payload).get "pairs" (.list []) >>= _) = List.filter p <$>
      (payload.get "pairs" (.list []) >>= _)
    rw [get_prune]
    cases payload.get "pairs" (.list []) with
    | error e => rfl
    | ok value =>
      cases value with
      | list items => rfl
      | _ => rfl

/-- The groups exist when no element raises. -/
theorem grouped_isOk {pairs : List Json} : (∃ groups, grouped T a addresses pairs = .ok groups) ↔
    ∀ raw ∈ pairs, ∃ target, groupOf T a addresses raw = .ok target := by
  apply foldlM_isOk
  intro groups raw
  constructor
  · rintro ⟨groups', h⟩
    obtain ⟨target, htarget, -⟩ := bind_eq_ok.mp h
    exact ⟨target, htarget⟩
  · rintro ⟨target, htarget⟩
    cases target with
    | none => exact ⟨groups, bind_eq_ok.mpr ⟨none, htarget, rfl⟩⟩
    | some address => exact ⟨_, bind_eq_ok.mpr ⟨some address, htarget, rfl⟩⟩

theorem chunkRows_isOk {answer : Answer} {pairs : List Json}
    (hpairs : elements answer = .ok pairs) :
    (∃ rows, chunkRows T a addresses answer = .ok rows) ↔ Survives T a addresses pairs := by
  rw [Survives, ← grouped_isOk]
  constructor
  · rintro ⟨rows, hrows⟩
    obtain ⟨pairs', groups, hpairs', hgroups, hmade, -⟩ := chunkRows_eq_ok.mp hrows
    obtain rfl := Except.ok.inj (hpairs.symm.trans hpairs')
    refine ⟨⟨groups, hgroups⟩, fun address hne => ?_⟩
    exact hmade _ ((mem_grouped hgroups).mpr ⟨hne, rfl⟩)
  · rintro ⟨⟨groups, hgroups⟩, hmade⟩
    refine ⟨_, chunkRows_eq_ok.mpr ⟨pairs, groups, hpairs, hgroups, fun g hg => ?_, rfl⟩⟩
    obtain ⟨hne, hraws⟩ := (mem_grouped hgroups).mp hg
    obtain ⟨made, hmade⟩ := hmade g.1 hne
    exact ⟨made, by rwa [← hraws] at hmade⟩

/-- A symbol has a row of an answer when an address that it is mapped to makes a pair. -/
theorem chunkRows_isSome {answer : Answer} {rows : Dict String NormalizedPair} {symbol : String}
    (h : chunkRows T a addresses answer = .ok rows) : (rows.get? symbol).isSome = true ↔
      ∃ address pairs, addresses.get? address = some symbol ∧ elements answer = .ok pairs ∧
        ∃ pair, groupPair T a addresses (address, group T a addresses address pairs) =
          .ok (some pair) := by
  constructor
  · intro hsome
    obtain ⟨pair, hpair⟩ := Option.isSome_iff_exists.mp hsome
    obtain ⟨address, pairs, hmapped, hpairs, hmade⟩ := chunkRows_row h hpair
    exact ⟨address, pairs, hmapped, hpairs, pair, hmade⟩
  · rintro ⟨address, pairs, hmapped, hpairs, pair, hmade⟩
    obtain ⟨pairs', groups, hpairs', hgroups, -, rfl⟩ := chunkRows_eq_ok.mp h
    obtain rfl := Except.ok.inj (hpairs.symm.trans hpairs')
    obtain ⟨best, hbest, -⟩ := bind_eq_ok.mp hmade
    have hmem : (address, group T a addresses address pairs) ∈ groups.rows :=
      (mem_grouped hgroups).mpr ⟨(pickBest_eq_ok hbest).1, rfl⟩
    rw [Dict.get?_collect, Dict.get?_empty, Option.or_none, List.isSome_findSome?, List.any_eq_true]
    refine ⟨_, List.mem_reverse.mpr hmem, ?_⟩
    rw [hmapped, Option.getD_some, if_pos rfl, given_eq_some.mpr hmade]
    rfl

/-- What the loop adds to the addresses that it starts with. -/
theorem keys_grouped_from {pairs : List Json} {groups₀ groups : Dict String (List Json)}
    (h : pairs.foldlM (fun groups raw => do
      match ← groupOf T a addresses raw with
      | none => return groups
      | some address => return append groups address raw) groups₀ = .ok groups) :
    groups.keys =
      (groups₀.keys ++ pairs.filterMap fun raw => given (groupOf T a addresses raw)).eraseDups := by
  induction pairs generalizing groups₀ with
  | nil =>
    rw [← Except.ok.inj h, List.filterMap_nil, List.append_nil,
      Dict.eraseDups_of_nodup groups₀.nodup_keys]
  | cons raw pairs ih =>
    rw [List.foldlM_cons, bind_eq_ok] at h
    obtain ⟨groups₁, hstep, hrest⟩ := h
    obtain ⟨target, htarget, hstep⟩ := bind_eq_ok.mp hstep
    rw [ih hrest, List.filterMap_cons, htarget]
    cases target with
    | none => rw [← Except.ok.inj hstep]; rfl
    | some address =>
      rw [← Except.ok.inj hstep]
      exact Dict.eraseDups_keys_set

/-- The groups are those of the addresses, in their order. -/
theorem rows_grouped {pairs : List Json} {groups : Dict String (List Json)}
    (h : grouped T a addresses pairs = .ok groups) :
    groups.rows =
      (order T a addresses pairs).map
        fun address => (address, group T a addresses address pairs) := by
  have hkeys : groups.keys = order T a addresses pairs := keys_grouped_from h
  have hrow : ∀ g ∈ groups.rows, (g.1, group T a addresses g.1 pairs) = g := by
    intro g hg
    rw [← ((mem_grouped h).mp hg).2]
  calc groups.rows = groups.rows.map fun g => (g.1, group T a addresses g.1 pairs) := by
        rw [List.map_congr_left hrow, List.map_id']
    _ = groups.keys.map fun address => (address, group T a addresses address pairs) := by
        rw [Table.keys, List.map_map]
        rfl
    _ = _ := by rw [hkeys]

theorem mem_order {pairs : List Json} {address : String}
    (h : address ∈ order T a addresses pairs) : ∃ symbol, addresses.get? address = some symbol := by
  rw [order, List.mem_eraseDups, List.mem_filterMap] at h
  obtain ⟨raw, -, hraw⟩ := h
  exact Option.isSome_iff_exists.mp (groupOf_eq_some (given_eq_some.mp hraw)).2

/-- The pair of a symbol in the rows of an answer. -/
theorem row_eq_some {answer : Answer} {symbol : String} {pair : NormalizedPair} :
    given ((·.get? symbol) <$> chunkRows T a addresses answer) = some pair ↔
      ∃ pairs, elements answer = .ok pairs ∧ Row T a addresses symbol pairs pair := by
  have hrow : ∀ pairs groups, grouped T a addresses pairs = .ok groups →
      ((Dict.collect (fun group => (addresses.get? group.1).getD "")
        (fun group => given (groupPair T a addresses group)) groups.rows Dict.empty).get? symbol =
          some pair ↔
        Dict.IsLast (Made T a addresses symbol pairs) (order T a addresses pairs) pair) := by
    intro pairs groups hgroups
    rw [Dict.get?_collect, Dict.get?_empty, Option.or_none, rows_grouped hgroups,
      ← List.map_reverse, List.findSome?_map, Dict.findSome?_reverse_eq_some]
    apply Dict.isLast_congr
    intro address haddress p
    obtain ⟨known, hknown⟩ := mem_order haddress
    show (if (addresses.get? address).getD "" = symbol then _ else none) = some p ↔ _
    rw [Option.ite_none_right_eq_some, given_eq_some, Made, hknown, Option.getD_some,
      Option.some.injEq]
  rw [given_eq_some, map_eq_ok]
  constructor
  · rintro ⟨rows, hrows, hget⟩
    obtain ⟨pairs, groups, hpairs, hgroups, -, rfl⟩ := chunkRows_eq_ok.mp hrows
    exact ⟨pairs, hpairs, (chunkRows_isOk hpairs).mp ⟨_, hrows⟩,
      (hrow pairs groups hgroups).mp hget⟩
  · rintro ⟨pairs, hpairs, hsurvives, hlast⟩
    obtain ⟨rows, hrows⟩ := (chunkRows_isOk hpairs).mpr hsurvives
    obtain ⟨pairs', groups, hpairs', hgroups, -, hcollect⟩ := chunkRows_eq_ok.mp hrows
    obtain rfl := Except.ok.inj (hpairs.symm.trans hpairs')
    exact ⟨rows, hrows, hcollect ▸ (hrow pairs groups hgroups).mpr hlast⟩

theorem group_filter (address : String) (pairs : List Json) :
    group T a addresses address (pairs.filter p) = (group T a addresses address pairs).filter p :=
  List.filter_comm _ _ _

section Row

variable {address symbol : String} {answer : Answer} {pairs : List Json} {pair : NormalizedPair}

/-- The best of the elements is the best of the well-formed ones, if it is well formed. -/
theorem pickBest_group {best : Json}
    (h : pickBest (pairKey T) (group T a addresses address pairs) = .ok best)
    (hbest : wellFormed best = true) :
    pickBest (pairKey T) (group T a addresses address (pairs.filter wellFormed)) = .ok best := by
  rw [group_filter]
  exact pickBest_filter (fun _ _ hkey => pairKey_isFinite hkey) h hbest

/-- The pair of an address is that of its well-formed elements when its best element is well formed,
and else what that element makes. -/
theorem made_iff : Made T a addresses symbol pairs address pair ↔
    Kept T a addresses wellFormed symbol pairs address pair ∨
      Replaced T a addresses wellFormed symbol pairs address pair := by
  constructor
  · rintro ⟨hmapped, hmade⟩
    obtain ⟨best, hbest, hnormal⟩ := bind_eq_ok.mp hmade
    cases hwell : wellFormed best with
    | true =>
      refine .inl ⟨⟨best, hbest, hwell⟩, hmapped, ?_⟩
      exact bind_eq_ok.mpr ⟨best, pickBest_group hbest hwell, hnormal⟩
    | false =>
      rw [hmapped, Option.getD_some] at hnormal
      exact .inr ⟨hmapped, best, hbest, hwell, hnormal⟩
  · rintro (⟨⟨best, hbest, hwell⟩, hmapped, hmade⟩ | ⟨hmapped, best, hbest, -, hnormal⟩)
    · obtain ⟨picked, hpicked, hnormal⟩ := bind_eq_ok.mp hmade
      obtain rfl := Except.ok.inj (hpicked.symm.trans (pickBest_group hbest hwell))
      exact ⟨hmapped, bind_eq_ok.mpr ⟨picked, hbest, hnormal⟩⟩
    · refine ⟨hmapped, bind_eq_ok.mpr ⟨best, hbest, ?_⟩⟩
      rwa [hmapped]

theorem row_eq_some_iff :
    given ((·.get? symbol) <$> chunkRows T a addresses answer) = some pair ↔
      Gives T a addresses wellFormed symbol answer pair := by
  rw [row_eq_some]
  refine exists_congr fun pairs => and_congr_right fun _ => and_congr_right fun _ => ?_
  exact Dict.isLast_congr fun address _ p => made_iff

/-- Without the malformed elements the row is what the well-formed ones offer. -/
theorem prunedRow_eq_some :
    given ((·.get? symbol) <$> chunkRows T a addresses (pruneAnswer "pairs" wellFormed answer)) =
      some pair ↔ Offers T a addresses wellFormed symbol answer pair := by
  rw [row_eq_some, elements_pruneAnswer]
  constructor
  · rintro ⟨pairs, hpairs, hrow⟩
    obtain ⟨all, hall, rfl⟩ := map_eq_ok.mp hpairs
    exact ⟨all, hall, hrow⟩
  · rintro ⟨pairs, hpairs, hrow⟩
    exact ⟨_, map_eq_ok.mpr ⟨pairs, hpairs, rfl⟩, hrow⟩

end Row

/-- The requests of all the addresses. -/
def chunks (T : Text) (map : Dict String String) : List (List String) :=
  chunk (normalized T map).keys 20

section Result

variable {map : Dict String String} {client : List String → Answer} {symbol : String}
  {pair : NormalizedPair}

theorem get?_fetchPairsByAddresses :
    (a.fetchPairsByAddresses T map client).get? symbol = some pair ↔
      Dict.IsLast (fun c p => given ((·.get? symbol) <$>
        chunkRows T a (normalized T map) (client c)) = some p) (chunks T map) pair := by
  rw [fetchPairsByAddresses, get?_merge, ← List.map_reverse, List.findSome?_map,
    ← Dict.findSome?_reverse_eq_some]
  rfl

/-- The malformed elements cost no other element anything exactly when for each symbol the pair that
the last answer offers is the one that the last answer gives. -/
theorem result_eq_iff : (∀ symbol, (a.fetchPairsByAddresses T map client).get? symbol =
      (a.fetchPairsByAddresses T map fun c =>
        pruneAnswer "pairs" wellFormed (client c)).get? symbol) ↔
    ∀ symbol pair,
      Dict.IsLast (fun c p => Offers T a (normalized T map) wellFormed symbol (client c) p)
        (chunks T map) pair ↔
      Dict.IsLast (fun c p => Gives T a (normalized T map) wellFormed symbol (client c) p)
        (chunks T map) pair := by
  refine forall_congr' fun symbol => ?_
  have hactual : ∀ pair, (a.fetchPairsByAddresses T map client).get? symbol = some pair ↔
      Dict.IsLast (fun c p => Gives T a (normalized T map) wellFormed symbol (client c) p)
        (chunks T map) pair := fun pair =>
    get?_fetchPairsByAddresses.trans (Dict.isLast_congr fun c _ p => row_eq_some_iff)
  have hpruned : ∀ pair, (a.fetchPairsByAddresses T map fun c =>
        pruneAnswer "pairs" wellFormed (client c)).get? symbol = some pair ↔
      Dict.IsLast (fun c p => Offers T a (normalized T map) wellFormed symbol (client c) p)
        (chunks T map) pair := fun pair =>
    get?_fetchPairsByAddresses.trans (Dict.isLast_congr fun c _ p => prunedRow_eq_some)
  rw [Option.ext_iff]
  exact forall_congr' fun pair => (iff_congr (hactual pair) (hpruned pair)).trans iff_comm

end Result

end DexScreener

/-! ### GeckoTerminal -/

namespace GeckoTerminal

variable {a : GeckoTerminal}

/-- The best pool of the answer is well formed, and the well-formed ones make the pair. -/
def Kept (T : Text) (a : GeckoTerminal) (wellFormed : Json → Bool) (symbol : String)
    (answer : Answer) (pair : NormalizedPair) : Prop :=
  (∃ pool tokens, BestPool T answer pool tokens ∧ wellFormed pool = true) ∧
    a.fetchTokenPools T symbol (pruneAnswer "data" wellFormed answer) = .ok (some pair)

/-- The best pool of the answer is malformed, and makes the pair. -/
def Replaced (T : Text) (a : GeckoTerminal) (wellFormed : Json → Bool) (symbol : String)
    (answer : Answer) (pair : NormalizedPair) : Prop :=
  ∃ pool tokens, BestPool T answer pool tokens ∧ wellFormed pool = false ∧
    a.normalizePool T pool symbol tokens = .ok (some pair)

section Result

variable {wellFormed : Json → Bool} {answer : Answer} {symbol : String} {pair : NormalizedPair}

theorem BestPool.prune {pool : Json} {tokens : Dict String Json} (h : BestPool T answer pool tokens)
    (hpool : p pool = true) : BestPool T (pruneAnswer "data" p answer) pool tokens := by
  obtain ⟨payload, pools, included, rfl, hdata, hincluded, htokens, hbest⟩ := h
  refine ⟨Adapters.prune "data" p payload, pools.filter p, included, rfl, ?_, ?_, htokens, ?_⟩
  · rw [get_prune, hdata]
    rfl
  · rw [get_prune_of_ne (by decide), hincluded]
  · exact pickBest_filter (fun _ _ hscore => poolScore_isFinite hscore) hbest hpool

/-- A token has the pair of the well-formed pools when its best pool is well formed, and else what
that pool makes. -/
theorem fetchTokenPools_eq_some_iff :
    a.fetchTokenPools T symbol answer = .ok (some pair) ↔
      Kept T a wellFormed symbol answer pair ∨ Replaced T a wellFormed symbol answer pair := by
  rw [Kept, fetchTokenPools_eq_some, fetchTokenPools_eq_some]
  constructor
  · rintro ⟨pool, tokens, hbest, hnormal⟩
    cases hpool : wellFormed pool with
    | true =>
      exact .inl ⟨⟨pool, tokens, hbest, hpool⟩, pool, tokens, hbest.prune hpool, hnormal⟩
    | false => exact .inr ⟨pool, tokens, hbest, hpool, hnormal⟩
  · rintro (⟨⟨pool', tokens', hbest, hpool⟩, pool, tokens, hpruned, hnormal⟩ |
      ⟨pool, tokens, hbest, -, hnormal⟩)
    · obtain ⟨rfl, rfl⟩ := hpruned.unique (hbest.prune hpool)
      exact ⟨pool, tokens, hbest, hnormal⟩
    · exact ⟨pool, tokens, hbest, hnormal⟩

variable {map : Dict String String} {client : String → Answer}

/-- The malformed pools cost no other pool anything exactly when for each symbol the pair that the
last answer offers is the one that the last answer gives. -/
theorem result_eq_iff : (∀ symbol, (a.fetchPairsByAddresses T map client).get? symbol =
      (a.fetchPairsByAddresses T map fun address =>
        pruneAnswer "data" wellFormed (client address)).get? symbol) ↔
    ∀ symbol pair,
      Dict.IsLast (fun request p => request.1 = symbol ∧ a.fetchTokenPools T symbol
        (pruneAnswer "data" wellFormed (client request.2)) = .ok (some p)) (tasks T map) pair ↔
      Dict.IsLast (fun request p => request.1 = symbol ∧
        (Kept T a wellFormed symbol (client request.2) p ∨
          Replaced T a wellFormed symbol (client request.2) p)) (tasks T map) pair := by
  refine forall_congr' fun symbol => ?_
  rw [GeckoTerminal.fetchPairsByAddresses, GeckoTerminal.fetchPairsByAddresses, Option.ext_iff]
  refine forall_congr' fun pair => ?_
  rw [get?_gather_eq_some, get?_gather_eq_some]
  refine (iff_congr (Dict.isLast_congr ?_) (Dict.isLast_congr ?_)).trans iff_comm
  · rintro request - p
    exact and_congr_right fun hsymbol => by rw [hsymbol, fetchTokenPools_eq_some_iff]
  · rintro request - p
    exact and_congr_right fun hsymbol => by rw [hsymbol]

end Result

end GeckoTerminal

/-! ### The two adapters -/

/-- What is read under a name is absent or a number that `float` converts. -/
def convertible (T : Text) (read : Except PyError Json) : Bool :=
  match read with
  | .ok .null => true
  | .ok value =>
    match value.toFloat T.float with
    | .ok _ => true
    | .error _ => false
  | .error _ => true

/-- The elements that are not malformed: objects whose parts are objects and whose numbers can be
converted. -/
def DexScreener.listed (T : Text) (raw : Json) : Bool :=
  let part := fun name => raw.get name .empty
  let m5 := part "txns" >>= fun txns => txns.get "m5" .empty
  raw.isDict &&
    (["baseToken", "liquidity", "volume", "txns"].all fun name =>
      match part name with
      | .ok value => value.isDict
      | .error _ => false) &&
    [raw.get "priceUsd" .null, part "volume" >>= fun volume => volume.get "m5" .null,
      part "liquidity" >>= fun liquidity => liquidity.get "usd" .null,
      m5 >>= fun counts => counts.get "buys" .null, m5 >>= fun counts => counts.get "sells" .null,
      raw.get "pairCreatedAt" .null].all (convertible T)

/-- A pair of the token, and beside it an element that is no object. -/
def nullBesidePair : Json :=
  .dict [("pairs", .list [.null, .dict
    [("chainId", .str "ethereum"), ("baseToken", .dict [("address", .str "0xpepe")]),
      ("priceUsd", .str "1.5"), ("volume", .dict [("m5", .int 1200)]),
      ("liquidity", .dict [("usd", .int 90000)]),
      ("txns", .dict [("m5", .dict [("buys", .int 4), ("sells", .int 3)])])]])]

end ChainMonitor.Adapters
