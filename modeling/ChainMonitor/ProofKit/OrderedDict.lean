import ChainMonitor.ProofKit.Dict
import Mathlib.Data.Finset.Card

/-! Python's `OrderedDict` as a bounded cache: a `dict` from which keys are popped, one by one or
from its oldest end on. -/

namespace ChainMonitor.ProofKit.Dict

variable {α κ ν : Type*} [DecidableEq κ] {d : Dict κ ν} {j k : κ} {v : ν} {n : ℕ}

/-- `d.pop(k, None)`, for its effect. -/
def pop (d : Dict κ ν) (k : κ) : Dict κ ν where
  rows := d.rows.filter fun r => r.1 ≠ k
  unique := d.unique.sublist (List.filter_sublist.map _)

theorem get?_pop : (d.pop k).get? j = if j = k then none else d.get? j := by
  ext v
  rw [get?_eq_some, pop, List.mem_filter]
  split
  · rename_i h
    simp [h]
  · rename_i h
    simp [h, get?_eq_some]

theorem get?_pop_set : ((d.pop k).set k v).get? j = if j = k then some v else d.get? j := by
  rw [get?_set]
  split
  · rfl
  · rename_i h
    rw [get?_pop, if_neg h]

theorem size_pop_le : (d.pop k).size ≤ d.size := List.length_filter_le _ _

theorem size_pop_lt (h : (d.get? k).isSome) : (d.pop k).size < d.size := by
  obtain ⟨v, hv⟩ := Option.isSome_iff_exists.mp h
  apply List.length_filter_lt_length_iff_exists.mpr
  exact ⟨(k, v), get?_eq_some.mp hv, by simp⟩

theorem size_set : (d.set k v).size = if (d.get? k).isSome then d.size else d.size + 1 := by
  have hkeys : (k, v).1 ∈ d.keys ↔ (d.get? k).isSome = true := mem_keys
  simp only [size, set, Table.upsert, hkeys]
  split
  · exact List.length_map _
  · simp

/-- An entry that is popped and put back takes no room. -/
theorem size_pop_set_le (h : (d.get? k).isSome ∨ d.size < n) (hd : d.size ≤ n) :
    ((d.pop k).set k v).size ≤ n := by
  have hpop : (d.pop k).get? k = none := by rw [get?_pop, if_pos rfl]
  rw [size_set, hpop, if_neg (by simp)]
  rcases h with h | h
  · have := size_pop_lt h
    omega
  · have := size_pop_le (d := d) (k := k)
    omega

theorem size_set_le (h : (d.get? k).isSome ∨ d.size < n) (hd : d.size ≤ n) :
    (d.set k v).size ≤ n := by
  rw [size_set]
  split
  · exact hd
  · rename_i hnone
    have := h.resolve_left hnone
    omega

/-- `while len(d) > n: d.popitem(last=False)`, on the rows of `d`. -/
def dropOldest (n : ℕ) : List α → List α
  | [] => []
  | r :: rows => if n < (r :: rows).length then dropOldest n rows else r :: rows

theorem dropOldest_suffix (rows : List α) : dropOldest n rows <:+ rows := by
  induction rows with
  | nil => exact List.suffix_rfl
  | cons r rows ih =>
    unfold dropOldest
    split
    · exact ih.trans (List.suffix_cons r rows)
    · exact List.suffix_rfl

theorem length_dropOldest_le (rows : List α) : (dropOldest n rows).length ≤ n := by
  induction rows with
  | nil => exact Nat.zero_le n
  | cons r rows ih =>
    unfold dropOldest
    split
    · exact ih
    · omega

theorem dropOldest_of_le {rows : List α} (h : rows.length ≤ n) : dropOldest n rows = rows := by
  cases rows with
  | nil => rfl
  | cons r rows => rw [dropOldest, if_neg (by omega)]

/-- The newest rows stay, as many as there is room for. -/
theorem dropOldest_append {post : List α} (h : post.length ≤ n) (pre : List α) :
    ∃ kept, dropOldest n (pre ++ post) = kept ++ post := by
  induction pre with
  | nil => exact ⟨[], dropOldest_of_le h⟩
  | cons r pre ih =>
    rw [List.cons_append, dropOldest]
    split
    · exact ih
    · exact ⟨r :: pre, rfl⟩

def compact (d : Dict κ ν) (n : ℕ) : Dict κ ν where
  rows := dropOldest n d.rows
  unique := d.unique.sublist ((dropOldest_suffix d.rows).sublist.map _)

omit [DecidableEq κ] in
theorem size_compact_le : (d.compact n).size ≤ n := length_dropOldest_le d.rows

omit [DecidableEq κ] in
theorem compact_of_size_le (h : d.size ≤ n) : d.compact n = d :=
  Table.ext_rows (dropOldest_of_le h)

theorem get?_of_compact (h : (d.compact n).get? k = some v) : d.get? k = some v :=
  get?_eq_some.mpr ((dropOldest_suffix d.rows).subset (get?_eq_some.mp h))

/-- The value that was assigned last outlives the compaction. -/
theorem get?_compact_set (hn : 0 < n) (hd : d.size ≤ n) :
    ((d.set k v).compact n).get? k = some v := by
  by_cases h : (d.get? k).isSome
  · rw [compact_of_size_le (size_set_le (.inl h) hd), get?_set_self]
  · have hrows := rows_set_of_none (v := v) (Option.not_isSome_iff_eq_none.mp h)
    obtain ⟨kept, hkept⟩ := dropOldest_append (show [(k, v)].length ≤ n from hn) d.rows
    apply get?_eq_some.mpr
    show (k, v) ∈ dropOldest n (d.set k v).rows
    rw [hrows, hkept]
    simp

/-! ### Recency -/

/-- `k` holds `v`, and the entries that are newer have their keys in `ks`. -/
def Recent (d : Dict κ ν) (k : κ) (v : ν) (ks : Finset κ) : Prop :=
  ∃ pre post, d.rows = pre ++ (k, v) :: post ∧ ∀ r ∈ post, r.1 ∈ ks

section Recent

variable {ks : Finset κ} {w : ν}

theorem Recent.get? (h : d.Recent k v ks) : d.get? k = some v := by
  obtain ⟨pre, post, hrows, -⟩ := h
  rw [get?_eq_some, hrows]
  simp

theorem Recent.pop (h : d.Recent k v ks) (hne : j ≠ k) : (d.pop j).Recent k v ks := by
  obtain ⟨pre, post, hrows, hpost⟩ := h
  refine ⟨pre.filter fun r => r.1 ≠ j, post.filter fun r => r.1 ≠ j, ?_, ?_⟩
  · simp [Dict.pop, hrows, hne.symm]
  · intro r hr
    exact hpost r (List.mem_of_mem_filter hr)

theorem rows_pop_set : ((d.pop k).set k v).rows = (d.pop k).rows ++ [(k, v)] :=
  rows_set_of_none (by rw [get?_pop, if_pos rfl])

/-- What is popped and put back is the newest. -/
theorem recent_pop_set : ((d.pop k).set k v).Recent k v ∅ :=
  ⟨(d.pop k).rows, [], rows_pop_set, by simp⟩

theorem Recent.pop_set (h : d.Recent k v ks) (hne : j ≠ k) :
    ((d.pop j).set j w).Recent k v (insert j ks) := by
  obtain ⟨pre, post, hrows, hpost⟩ := h.pop hne
  refine ⟨pre, post ++ [(j, w)], ?_, ?_⟩
  · rw [rows_pop_set, hrows]
    simp
  · intro r hr
    rcases List.mem_append.mp hr with hr | hr
    · exact Finset.mem_insert_of_mem (hpost r hr)
    · rw [List.mem_singleton.mp hr]
      exact Finset.mem_insert_self j ks

/-- An entry with fewer than `n` newer ones outlives the compaction. -/
theorem Recent.compact (h : d.Recent k v ks) (hcard : ks.card < n) :
    (d.compact n).Recent k v ks := by
  obtain ⟨pre, post, hrows, hpost⟩ := h
  have hnodup : (post.map Prod.fst).Nodup := by
    have hunique := d.unique
    rw [hrows, List.map_append, List.map_cons] at hunique
    exact (List.nodup_cons.mp (List.nodup_append.mp hunique).2.1).2
  have hsub : (post.map Prod.fst).toFinset ⊆ ks := by
    intro j hj
    obtain ⟨r, hr, rfl⟩ := List.mem_map.mp (List.mem_toFinset.mp hj)
    exact hpost r hr
  have hlength : post.length ≤ ks.card := by
    calc post.length = (post.map Prod.fst).toFinset.card := by
          rw [List.toFinset_card_of_nodup hnodup, List.length_map]
      _ ≤ ks.card := Finset.card_le_card hsub
  have hroom : ((k, v) :: post).length ≤ n := by
    rw [List.length_cons]
    omega
  obtain ⟨kept, hkept⟩ := dropOldest_append hroom pre
  rw [← hrows] at hkept
  exact ⟨kept, post, hkept, hpost⟩

end Recent

end ChainMonitor.ProofKit.Dict
