import ChainMonitor.ProofKit.Attempt
import ChainMonitor.ProofKit.Table
import Mathlib.Data.List.Dedup

/-! Python's `dict`: a table of pairs under the key of each pair, in order of first insertion. -/

namespace ChainMonitor.ProofKit

variable {κ ν : Type*}

abbrev Dict (κ ν : Type*) := Table (Prod.fst : κ × ν → κ)

namespace Dict

variable [DecidableEq κ]

def empty : Dict κ ν := Table.empty

/-- `d.get(k)`. -/
def get? (d : Dict κ ν) (k : κ) : Option ν := (d.rows.find? fun r => r.1 = k).map Prod.snd

/-- `d[k] = v`. -/
def set (d : Dict κ ν) (k : κ) (v : ν) : Dict κ ν := Table.upsert (k, v) d

/-- `if v is not None: d[k] = v`. -/
def setSome (d : Dict κ ν) (k : κ) : Option ν → Dict κ ν
  | some v => d.set k v
  | none => d

def mapValues {μ : Type*} (f : ν → μ) (d : Dict κ ν) : Dict κ μ where
  rows := d.rows.map fun r => (r.1, f r.2)
  unique := by
    rw [List.map_map]
    exact d.unique

/-- `d.setdefault(k, v)`, for its effect. -/
def setDefault (d : Dict κ ν) (k : κ) (v : ν) : Dict κ ν :=
  if (d.get? k).isSome then d else d.set k v

/-- The comprehension `{k: v for k, v in ps}`. -/
def ofPairs (ps : List (κ × ν)) : Dict κ ν := Table.upsertAll ps empty

def size (d : Dict κ ν) : ℕ := d.rows.length

variable {d : Dict κ ν} {k j : κ} {v w : ν} {ps : List (κ × ν)}

theorem get?_eq_some : d.get? k = some v ↔ (k, v) ∈ d.rows := by
  simp only [get?, Option.map_eq_some_iff]
  constructor
  · rintro ⟨⟨j, w⟩, hf, rfl⟩
    have hj : j = k := by simpa using List.find?_some hf
    subst hj
    exact List.mem_of_find?_eq_some hf
  · intro hmem
    have hsome : (d.rows.find? fun r => r.1 = k).isSome :=
      List.find?_isSome.mpr ⟨(k, v), hmem, by simp⟩
    obtain ⟨⟨j, w⟩, hf⟩ := Option.isSome_iff_exists.mp hsome
    have hj : j = k := by simpa using List.find?_some hf
    subst hj
    have hw := List.mem_of_find?_eq_some hf
    have heq : (j, w) = (j, v) := List.inj_on_of_nodup_map d.unique hw hmem rfl
    exact ⟨(j, w), hf, (Prod.mk.inj heq).2⟩

theorem get?_eq_none : d.get? k = none ↔ ∀ v, (k, v) ∉ d.rows := by
  rw [Option.eq_none_iff_forall_ne_some]
  exact forall_congr' fun v => not_congr get?_eq_some

@[simp] theorem get?_empty : (empty : Dict κ ν).get? k = none := rfl

theorem get?_set : (d.set k v).get? j = if j = k then some v else d.get? j := by
  ext w
  rw [get?_eq_some, set, Table.mem_upsert]
  split
  · rename_i h
    simp [h, eq_comm]
  · rename_i h
    simp [h, get?_eq_some]

@[simp] theorem get?_set_self : (d.set k v).get? k = some v := by simp [get?_set]

theorem get?_set_of_ne (h : j ≠ k) : (d.set k v).get? j = d.get? j := by simp [get?_set, h]

theorem get?_setSome {v : Option ν} :
    (d.setSome k v).get? j = if j = k then v.or (d.get? j) else d.get? j := by
  cases v with
  | none => simp [setSome]
  | some v => simp [setSome, get?_set]

omit [DecidableEq κ] in
theorem nodup_keys (d : Dict κ ν) : d.keys.Nodup := d.unique

theorem mem_keys : k ∈ d.keys ↔ (d.get? k).isSome = true := by
  rw [Option.isSome_iff_exists, Table.keys, List.mem_map]
  constructor
  · rintro ⟨⟨j, v⟩, hmem, rfl⟩
    exact ⟨v, get?_eq_some.mpr hmem⟩
  · rintro ⟨v, hv⟩
    exact ⟨(k, v), get?_eq_some.mp hv, rfl⟩

theorem eraseDups_of_nodup {ks : List κ} (h : ks.Nodup) : ks.eraseDups = ks := by
  induction ks with
  | nil => rfl
  | cons k ks ih =>
    obtain ⟨hk, hks⟩ := List.nodup_cons.mp h
    have hsame : (ks.filter fun j => !j == k) = ks := by
      rw [List.filter_eq_self]
      intro j hj
      simpa using ne_of_mem_of_not_mem hj hk
    rw [List.eraseDups_cons, hsame, ih hks]

/-- An assignment adds its key behind the others, or not at all. -/
theorem eraseDups_keys_set {ks : List κ} :
    ((d.set k v).keys ++ ks).eraseDups = (d.keys ++ k :: ks).eraseDups := by
  have hkeys : (d.set k v).keys = if k ∈ d.keys then d.keys else d.keys ++ [k] := by
    show (Table.upsert (k, v) d).rows.map Prod.fst = _
    rw [Table.upsert]
    split
    · exact Table.map_key_replace _ _
    · rw [List.map_append]
      rfl
  rw [hkeys]
  split
  · rename_i h
    rw [List.eraseDups_append, List.eraseDups_append, List.cons_removeAll]
    simp [h]
  · rw [List.append_assoc]
    rfl

theorem replace_of_notMem {rows : List (κ × ν)} (h : k ∉ rows.map Prod.fst) :
    Table.replace Prod.fst (k, v) rows = rows := by
  have hsame : ∀ r ∈ rows, (if r.1 = k then (k, v) else r) = r := by
    intro r hr
    apply if_neg
    rintro rfl
    exact h (List.mem_map_of_mem hr)
  rw [Table.replace, List.map_congr_left hsame, List.map_id']

/-- A value that is assigned to a key again takes the place of the old one. -/
theorem rows_set_of_split {pre post : List (κ × ν)}
    (h : d.rows = pre ++ (k, w) :: post) : (d.set k v).rows = pre ++ (k, v) :: post := by
  have hunique := d.unique
  rw [h, List.map_append, List.map_cons] at hunique
  obtain ⟨-, hcons, hdisjoint⟩ := List.nodup_append.mp hunique
  have hpre : k ∉ pre.map Prod.fst := fun hk => hdisjoint k hk k List.mem_cons_self rfl
  have hpost : k ∉ post.map Prod.fst := (List.nodup_cons.mp hcons).1
  have hkey : (k, v).1 ∈ d.keys := by
    rw [Table.keys, h]
    simp
  have hreplace : Table.replace Prod.fst (k, v) (pre ++ (k, w) :: post) =
      Table.replace Prod.fst (k, v) pre ++ (k, v) :: Table.replace Prod.fst (k, v) post := by
    simp [Table.replace]
  rw [set, Table.upsert]
  dsimp only
  rw [if_pos hkey, h, hreplace, replace_of_notMem hpre, replace_of_notMem hpost]

theorem rows_set_of_none (h : d.get? k = none) :
    (d.set k v).rows = d.rows ++ [(k, v)] := by
  have hkey : (k, v).1 ∉ d.keys := by
    rw [mem_keys, h]
    simp
  rw [set, Table.upsert]
  exact if_neg hkey

theorem size_eq_zero : d.size = 0 ↔ ∀ k, d.get? k = none := by
  rw [size, List.length_eq_zero_iff, List.eq_nil_iff_forall_not_mem]
  constructor
  · intro h k
    exact get?_eq_none.mpr fun v => h (k, v)
  · rintro h ⟨k, v⟩
    exact get?_eq_none.mp (h k) v

theorem get?_setDefault : (d.setDefault k v).get? j =
    if j = k then some ((d.get? k).getD v) else d.get? j := by
  unfold setDefault
  split
  · rename_i h
    obtain ⟨w, hw⟩ := Option.isSome_iff_exists.mp h
    split
    · rename_i hj
      rw [hj, hw, Option.getD_some]
    · rfl
  · rename_i h
    rw [get?_set, Option.not_isSome_iff_eq_none.mp h, Option.getD_none]

/-- `for x in xs: d.setdefault(key(x), x)`: the first of a key stands, after those that were
there. -/
theorem get?_setDefaultAll {key : ν → κ} {xs : List ν} :
    get? (xs.foldl (fun d x => d.setDefault (key x) x) d) k =
      (d.get? k).or (xs.find? fun x => key x = k) := by
  induction xs generalizing d with
  | nil => simp
  | cons x xs ih =>
    rw [List.foldl_cons, ih, get?_setDefault, List.find?_cons]
    by_cases hk : key x = k
    · cases hd : d.get? k with
      | none => simp [hk, hd]
      | some v => simp [hk, hd]
    · simp [hk, Ne.symm hk]

/-- In a comprehension the last pair of a key is the one that stays. -/
theorem get?_upsertAll : get? (Table.upsertAll ps d) k =
    ((ps.reverse.find? fun r => r.1 = k).map Prod.snd).or (d.get? k) := by
  induction ps generalizing d with
  | nil => simp
  | cons p ps ih =>
    rw [Table.upsertAll_cons, ih, List.reverse_cons, List.find?_append]
    obtain ⟨j, v⟩ := p
    have hset : get? (Table.upsert (j, v) d) k = if k = j then some v else d.get? k := get?_set
    rw [hset]
    cases ps.reverse.find? fun r => r.1 = k with
    | some r => rfl
    | none =>
      by_cases h : j = k
      · simp [h]
      · simp [h, Ne.symm h]

theorem get?_ofPairs :
    (ofPairs ps).get? k = (ps.reverse.find? fun r => r.1 = k).map Prod.snd := by
  simp [ofPairs, get?_upsertAll]

/-- Pairs of different keys are the rows that they make. -/
theorem rows_ofPairs (h : (ps.map Prod.fst).Nodup) : (ofPairs ps).rows = ps :=
  Table.rows_upsertAll_of_new h fun _ _ => List.not_mem_nil

/-- `d.update(e)`: the values of `e` stand over those of `d`. -/
theorem get?_upsertAll_rows {e : Dict κ ν} :
    get? (Table.upsertAll e.rows d) k = (e.get? k).or (d.get? k) := by
  ext v
  rw [get?_eq_some, Table.mem_upsertAll e.unique, Option.or_eq_some_iff, get?_eq_some, get?_eq_none,
    get?_eq_some]
  constructor
  · rintro (he | ⟨hd, hkey⟩)
    · exact .inl he
    · exact .inr ⟨fun w hw => hkey (List.mem_map.mpr ⟨(k, w), hw, rfl⟩), hd⟩
  · rintro (he | ⟨hnone, hd⟩)
    · exact .inl he
    · refine .inr ⟨hd, fun hkey => ?_⟩
      obtain ⟨⟨j, w⟩, hw, rfl⟩ := List.mem_map.mp hkey
      exact hnone w hw

theorem get?_mapValues {μ : Type*} {f : ν → μ} : (d.mapValues f).get? k = (d.get? k).map f := by
  show ((d.rows.map fun r => (r.1, f r.2)).find? fun r => r.1 = k).map Prod.snd = _
  rw [List.find?_map, Option.map_map, get?, Option.map_map]
  rfl

/-- The keys are those of a list that have a value, and the others. -/
theorem size_eq_add (d : Dict κ ν) (ks : List κ) :
    d.size = (ks.filter fun k => (d.get? k).isSome).dedup.length +
      (d.keys.filter fun k => k ∉ ks).length := by
  have hkeys : d.size = d.keys.length := (List.length_map _).symm
  have hlisted : (d.keys.filter fun k => k ∈ ks).Perm
      (ks.filter fun k => (d.get? k).isSome).dedup := by
    refine (List.perm_ext_iff_of_nodup (d.nodup_keys.filter _) (List.nodup_dedup _)).mpr ?_
    intro k
    rw [List.mem_filter, List.mem_dedup, List.mem_filter, decide_eq_true_iff, mem_keys, and_comm]
  rw [hkeys, ← hlisted.length_eq]
  have hothers : (d.keys.filter fun k => k ∉ ks) = d.keys.filter fun k => !decide (k ∈ ks) :=
    List.filter_congr fun k _ => by simp
  rw [hothers]
  exact List.length_eq_length_filter_add _

/-- `v` is the value of the last element of the list that has one. -/
def IsLast {α : Type*} (R : α → ν → Prop) (xs : List α) (v : ν) : Prop :=
  ∃ before x after, xs = before ++ x :: after ∧ R x v ∧ ∀ later ∈ after, ∀ w, ¬R later w

theorem findSome?_reverse_eq_some {α : Type*} {f : α → Option ν} {xs : List α} :
    xs.reverse.findSome? f = some v ↔ IsLast (fun x v => f x = some v) xs v := by
  rw [List.findSome?_eq_some_iff]
  constructor
  · rintro ⟨after, x, before, hsplit, hx, hafter⟩
    refine ⟨before.reverse, x, after.reverse, ?_, hx, ?_⟩
    · simpa using List.reverse_eq_iff.mp hsplit
    · intro later hlater w hw
      rw [hafter later (List.mem_reverse.mp hlater)] at hw
      cases hw
  · rintro ⟨before, x, after, rfl, hx, hafter⟩
    refine ⟨after.reverse, x, before.reverse, by simp, hx, ?_⟩
    intro later hlater
    exact Option.eq_none_iff_forall_ne_some.mpr (hafter later (List.mem_reverse.mp hlater))

theorem isLast_congr {α : Type*} {R S : α → ν → Prop} {xs : List α}
    (h : ∀ x ∈ xs, ∀ v, R x v ↔ S x v) : IsLast R xs v ↔ IsLast S xs v := by
  refine exists_congr fun before => exists_congr fun x => exists_congr fun after => ?_
  refine and_congr_right fun hsplit => ?_
  have hx : x ∈ xs := by simp [hsplit]
  refine and_congr (h x hx v) (forall₂_congr fun later hlater => forall_congr' fun w => ?_)
  have hmem : later ∈ xs := by simp [hsplit, hlater]
  exact not_congr (h later hmem w)

/-- The loop `for x in xs: d[key(x)] = f(x)`, without the `x` where `f` has no value. -/
def collect {α : Type*} (key : α → κ) (f : α → Option ν) (xs : List α) (d : Dict κ ν) : Dict κ ν :=
  xs.foldl (fun d x => d.setSome (key x) (f x)) d

theorem get?_collect {α : Type*} {key : α → κ} {f : α → Option ν} {xs : List α} :
    (collect key f xs d).get? k =
      (xs.reverse.findSome? fun x => if key x = k then f x else none).or (d.get? k) := by
  induction xs generalizing d with
  | nil => rfl
  | cons x xs ih =>
    show get? (collect key f xs (d.setSome (key x) (f x))) k = _
    rw [ih, List.reverse_cons, List.findSome?_append, Option.or_assoc]
    congr 1
    rw [get?_setSome]
    by_cases hk : key x = k
    · simp [hk]
    · simp [hk, Ne.symm hk]

theorem mapValues_set {μ : Type*} {f : ν → μ} :
    (d.set k v).mapValues f = (d.mapValues f).set k (f v) := by
  apply Table.ext_rows
  have hkeys : (d.mapValues f).keys = d.keys := by
    simp only [Table.keys, mapValues, List.map_map]
    rfl
  show (Table.upsert (k, v) d).rows.map _ = (Table.upsert (k, f v) (d.mapValues f)).rows
  simp only [Table.upsert, hkeys]
  split
  · simp only [Table.replace, mapValues, List.map_map]
    refine List.map_congr_left fun r _ => ?_
    by_cases h : r.1 = k
    · simp [h]
    · simp [h]
  · simp [mapValues]

theorem collect_congr {α : Type*} {key : α → κ} {f g : α → Option ν} {xs : List α}
    (h : ∀ x ∈ xs, f x = g x) : collect key f xs d = collect key g xs d :=
  List.foldl_ext _ _ _ fun e x hx => congrArg (e.setSome (key x)) (h x hx)

/-- What is done to each value that is collected may as well be done to all of them at the end. -/
theorem collect_map {α μ : Type*} {key : α → κ} {f : α → Option ν} {g : ν → μ} {xs : List α} :
    collect key (fun x => (f x).map g) xs (d.mapValues g) = (collect key f xs d).mapValues g := by
  induction xs generalizing d with
  | nil => rfl
  | cons x xs ih =>
    have hstep : (d.mapValues g).setSome (key x) ((f x).map g) =
        (d.setSome (key x) (f x)).mapValues g := by
      cases f x with
      | none => rfl
      | some v => exact mapValues_set.symm
    show collect key _ xs ((d.mapValues g).setSome (key x) ((f x).map g)) = _
    rw [hstep, ih]
    rfl

/-- The comprehension `{key(x): value(x) for x in xs if p(x)}` is such a loop. -/
theorem ofPairs_filter {α : Type*} {key : α → κ} {value : α → ν} {p : α → Bool} {xs : List α} :
    ofPairs ((xs.filter p).map fun x => (key x, value x)) =
      collect key (fun x => if p x then some (value x) else none) xs empty := by
  suffices h : ∀ d : Dict κ ν, Table.upsertAll ((xs.filter p).map fun x => (key x, value x)) d =
      collect key (fun x => if p x then some (value x) else none) xs d from h empty
  induction xs with
  | nil => exact fun d => rfl
  | cons x xs ih =>
    intro d
    by_cases hx : p x = true
    · rw [List.filter_cons_of_pos hx, List.map_cons, Table.upsertAll_cons, ih]
      simp only [collect, List.foldl_cons, if_pos hx]
      rfl
    · rw [List.filter_cons_of_neg hx, ih]
      simp only [collect, List.foldl_cons, if_neg hx]
      rfl

/-- The loop with an `f` that may raise returns when `f` does for every `x`. -/
theorem foldlM_eq_ok {ε α κ ν : Type} [DecidableEq κ] {key : α → κ} {f : α → Except ε (Option ν)}
    {xs : List α} {d e : Dict κ ν} :
    xs.foldlM (fun d x => do return d.setSome (key x) (← f x)) d = .ok e ↔
      (∀ x ∈ xs, ∃ v, f x = .ok v) ∧ collect key (fun x => given (f x)) xs d = e := by
  induction xs generalizing d with
  | nil => exact ⟨fun h => ⟨by simp, Except.ok.inj h⟩, fun h => congrArg Except.ok h.2⟩
  | cons x xs ih =>
    simp only [List.foldlM_cons, bind_eq_ok, List.forall_mem_cons]
    constructor
    · rintro ⟨d', ⟨v, hv, hd'⟩, hrest⟩
      obtain ⟨hall, he⟩ := ih.mp hrest
      refine ⟨⟨⟨v, hv⟩, hall⟩, ?_⟩
      show collect key (fun x => given (f x)) xs (d.setSome (key x) (given (f x))) = e
      rw [hv]
      rw [← Except.ok.inj hd'] at he
      exact he
    · rintro ⟨⟨⟨v, hv⟩, hall⟩, he⟩
      have hrest : collect key (fun x => given (f x)) xs (d.setSome (key x) (given (f x))) = e := he
      rw [hv] at hrest
      exact ⟨d.setSome (key x) v, ⟨v, hv, rfl⟩, ih.mpr ⟨hall, hrest⟩⟩

end Dict

end ChainMonitor.ProofKit
