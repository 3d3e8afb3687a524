import ChainMonitor.ProofKit.OrderedDict
import Mathlib.Data.List.Sort

/-! Eviction by age. A `dict` holds for each key when it was last used, and the keys that were used
longest ago are evicted until the others are as many as there is room for. -/

namespace ChainMonitor.ProofKit.Dict

variable {κ τ : Type*} [DecidableEq κ]

/-- The keys, as a set. -/
def keySet (d : Dict κ τ) : Finset κ := d.keys.toFinset

theorem mem_keySet {d : Dict κ τ} {k : κ} : k ∈ d.keySet ↔ (d.get? k).isSome := by
  rw [keySet, List.mem_toFinset, mem_keys]

theorem card_keySet (d : Dict κ τ) : d.keySet.card = d.size := by
  rw [keySet, List.toFinset_card_of_nodup d.nodup_keys]
  exact List.length_map _

theorem keySet_set {d : Dict κ τ} {k : κ} {v : τ} : (d.set k v).keySet = insert k d.keySet := by
  ext j
  rw [Finset.mem_insert, mem_keySet, mem_keySet, get?_set]
  by_cases h : j = k <;> simp [h]

variable [LinearOrder τ] {d : Dict κ τ} {n : ℕ} {j k : κ} {s t : τ}

/-- The rows, from the one used longest ago on. -/
def byAge (d : Dict κ τ) : List (κ × τ) := d.rows.insertionSort fun r s => r.2 ≤ s.2

/-- The `n` keys used longest ago. -/
def oldest (d : Dict κ τ) (n : ℕ) : List κ := (d.byAge.take n).map Prod.fst

omit [DecidableEq κ] in
theorem byAge_perm (d : Dict κ τ) : d.byAge.Perm d.rows := List.perm_insertionSort _ _

omit [DecidableEq κ] in
theorem byAge_sorted (d : Dict κ τ) : d.byAge.Pairwise fun r s => r.2 ≤ s.2 :=
  haveI : Std.Total fun r s : κ × τ => r.2 ≤ s.2 := ⟨fun r s => le_total r.2 s.2⟩
  haveI : IsTrans (κ × τ) fun r s => r.2 ≤ s.2 := ⟨fun _ _ _ => le_trans⟩
  List.pairwise_insertionSort _ _

omit [DecidableEq κ] in
theorem nodup_oldest (d : Dict κ τ) (n : ℕ) : (d.oldest n).Nodup :=
  (((d.byAge_perm.map Prod.fst).nodup_iff.mpr d.nodup_keys).sublist
    ((List.take_sublist n _).map Prod.fst))

omit [DecidableEq κ] in
theorem length_oldest (h : n ≤ d.size) : (d.oldest n).length = n := by
  rw [oldest, List.length_map, List.length_take, d.byAge_perm.length_eq]
  exact min_eq_left h

theorem oldest_subset (d : Dict κ τ) (n : ℕ) : (d.oldest n).toFinset ⊆ d.keySet := by
  intro k hk
  obtain ⟨r, hr, rfl⟩ := List.mem_map.mp (List.mem_toFinset.mp hk)
  exact List.mem_toFinset.mpr
    (List.mem_map_of_mem ((d.byAge_perm.mem_iff).mp (List.mem_of_mem_take hr)))

/-- What is evicted was used no later than what stays. -/
theorem le_of_mem_oldest (hk : k ∈ d.oldest n) (hj : j ∉ d.oldest n) (hs : d.get? k = some s)
    (ht : d.get? j = some t) : s ≤ t := by
  obtain ⟨r, hr, rfl⟩ := List.mem_map.mp hk
  have hown : d.get? r.1 = some r.2 :=
    get?_eq_some.mpr ((d.byAge_perm.mem_iff).mp (List.mem_of_mem_take hr))
  have hrow : (j, t) ∈ d.byAge := (d.byAge_perm.mem_iff).mpr (get?_eq_some.mp ht)
  rw [← List.take_append_drop n d.byAge] at hrow
  obtain rfl : r.2 = s := Option.some_inj.mp (hown.symm.trans hs)
  rcases List.mem_append.mp hrow with hrow | hrow
  · exact absurd (List.mem_map_of_mem hrow) hj
  · have hsorted := d.byAge_sorted
    rw [← List.take_append_drop n d.byAge] at hsorted
    exact (List.pairwise_append.mp hsorted).2.2 r hr (j, t) hrow

/-- As many keys stay as there is room for. -/
theorem card_sdiff_oldest (h : n ≤ d.size) :
    (d.keySet \ (d.oldest (d.size - n)).toFinset).card = n := by
  rw [Finset.card_sdiff_of_subset (oldest_subset d _), card_keySet,
    List.toFinset_card_of_nodup (nodup_oldest d _), length_oldest (Nat.sub_le _ _)]
  omega

end ChainMonitor.ProofKit.Dict
