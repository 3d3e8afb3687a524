import Mathlib.Data.List.Nodup

/-! Tables under a unique constraint. `upsert` is `INSERT ... ON CONFLICT DO UPDATE` on the key of
the constraint, with every other column taken from the new row. -/

namespace ChainMonitor.ProofKit

variable {α κ : Type*} {key : α → κ}

/-- Rows of which no two have the same key. -/
structure Table (key : α → κ) where
  rows : List α
  unique : (rows.map key).Nodup

namespace Table

/-- The empty table. -/
def empty : Table key := ⟨[], List.nodup_nil⟩

def keys (t : Table key) : List κ := t.rows.map key

theorem ext_rows {s t : Table key} (h : s.rows = t.rows) : s = t := by
  cases s
  cases t
  cases h
  rfl

theorem nodup_rows (t : Table key) : t.rows.Nodup := t.unique.of_map key

variable [DecidableEq κ]

/-- The rows after the row under the key of `row`, if there is one, has become `row`. -/
def replace (key : α → κ) (row : α) (rows : List α) : List α :=
  rows.map fun r => if key r = key row then row else r

theorem map_key_replace (row : α) (rows : List α) :
    (replace key row rows).map key = rows.map key := by
  simp only [replace, List.map_map]
  refine List.map_congr_left fun r _ => ?_
  simp only [Function.comp]
  split
  · rename_i h
    exact h.symm
  · rfl

def upsert (row : α) (t : Table key) : Table key where
  rows := if key row ∈ t.keys then replace key row t.rows else t.rows ++ [row]
  unique := by
    split
    · rw [map_key_replace]
      exact t.unique
    · rename_i h
      rw [List.map_append]
      refine List.Nodup.append t.unique (List.nodup_singleton _) ?_
      intro k hk hrow
      rw [List.mem_singleton.mp hrow] at hk
      exact h hk

def upsertAll (rows : List α) (t : Table key) : Table key :=
  rows.foldl (fun t row => t.upsert row) t

variable {t : Table key} {row r : α} {rows : List α} {k : κ}

/-- A row stands for itself under its key, and the rows of other keys stay. -/
theorem mem_upsert : r ∈ (t.upsert row).rows ↔ r = row ∨ r ∈ t.rows ∧ key r ≠ key row := by
  simp only [upsert]
  split
  · rename_i hk
    obtain ⟨old, hold, hkey⟩ := List.mem_map.mp hk
    simp only [replace, List.mem_map]
    constructor
    · rintro ⟨s, hs, rfl⟩
      split
      · exact .inl rfl
      · exact .inr ⟨hs, by assumption⟩
    · rintro (rfl | ⟨hr, hne⟩)
      · exact ⟨old, hold, if_pos hkey⟩
      · exact ⟨r, hr, if_neg hne⟩
  · rename_i hk
    have hne : ∀ s ∈ t.rows, key s ≠ key row := fun s hs he => hk (List.mem_map.mpr ⟨s, hs, he⟩)
    rw [List.mem_append, List.mem_singleton]
    constructor
    · rintro (hr | hr)
      · exact .inr ⟨hr, hne r hr⟩
      · exact .inl hr
    · rintro (hr | ⟨hr, -⟩)
      · exact .inr hr
      · exact .inl hr

/-- The row that is found under the key of an upsert is the one upserted. -/
theorem find?_upsert (row : α) (t : Table key) :
    (t.upsert row).rows.find? (fun r => key r = key row) = some row := by
  have hmem : row ∈ (t.upsert row).rows := mem_upsert.mpr (.inl rfl)
  cases h : (t.upsert row).rows.find? fun r => key r = key row with
  | none =>
    have hnot := List.find?_eq_none.mp h row hmem
    simp at hnot
  | some r =>
    have hkey : key r = key row := by simpa using List.find?_some h
    rcases mem_upsert.mp (List.mem_of_find?_eq_some h) with rfl | ⟨-, hne⟩
    · rfl
    · exact absurd hkey hne

/-- An upsert never deletes. -/
theorem mem_keys_upsert : k ∈ (t.upsert row).keys ↔ k = key row ∨ k ∈ t.keys := by
  simp only [keys, List.mem_map, mem_upsert]
  constructor
  · rintro ⟨r, rfl | ⟨hr, -⟩, rfl⟩
    · exact .inl rfl
    · exact .inr ⟨r, hr, rfl⟩
  · rintro (rfl | ⟨r, hr, rfl⟩)
    · exact ⟨row, .inl rfl, rfl⟩
    · by_cases he : key r = key row
      · exact ⟨row, .inl rfl, he.symm⟩
      · exact ⟨r, .inr ⟨hr, he⟩, rfl⟩

@[simp] theorem upsertAll_nil : t.upsertAll [] = t := rfl

@[simp] theorem upsertAll_cons :
    t.upsertAll (row :: rows) = (t.upsert row).upsertAll rows := rfl

theorem upsertAll_append (more : List α) :
    t.upsertAll (rows ++ more) = (t.upsertAll rows).upsertAll more :=
  List.foldl_append

theorem mem_keys_upsertAll : k ∈ (t.upsertAll rows).keys ↔ k ∈ rows.map key ∨ k ∈ t.keys := by
  induction rows generalizing t with
  | nil => simp
  | cons row rows ih =>
    rw [upsertAll_cons, ih, mem_keys_upsert, List.map_cons, List.mem_cons]
    tauto

/-- Rows of different keys all stand after they have been upserted in turn. -/
theorem mem_upsertAll (hrows : (rows.map key).Nodup) :
    r ∈ (t.upsertAll rows).rows ↔ r ∈ rows ∨ r ∈ t.rows ∧ key r ∉ rows.map key := by
  induction rows generalizing t with
  | nil => simp
  | cons row rows ih =>
    obtain ⟨hrow, hrest⟩ := List.nodup_cons.mp hrows
    rw [upsertAll_cons, ih hrest, mem_upsert, List.map_cons, List.mem_cons, List.mem_cons, not_or]
    constructor
    · rintro (hr | ⟨rfl | ⟨hr, hne⟩, hn⟩)
      · exact .inl (.inr hr)
      · exact .inl (.inl rfl)
      · exact .inr ⟨hr, hne, hn⟩
    · rintro ((rfl | hr) | ⟨hr, hne, hn⟩)
      · exact .inr ⟨.inl rfl, hrow⟩
      · exact .inl hr
      · exact .inr ⟨.inr ⟨hr, hne⟩, hn⟩

theorem rows_upsert_of_new (h : key row ∉ t.keys) : (t.upsert row).rows = t.rows ++ [row] :=
  if_neg h

/-- Rows of different keys that are all new go to the end. -/
theorem rows_upsertAll_of_new (hrows : (rows.map key).Nodup) (h : ∀ r ∈ rows, key r ∉ t.keys) :
    (t.upsertAll rows).rows = t.rows ++ rows := by
  induction rows generalizing t with
  | nil => simp
  | cons row rows ih =>
    obtain ⟨hrow, hrest⟩ := List.nodup_cons.mp hrows
    have hnew := rows_upsert_of_new (h row List.mem_cons_self)
    rw [upsertAll_cons, ih hrest, hnew, List.append_assoc, List.singleton_append]
    intro r hr hmem
    rcases mem_keys_upsert.mp hmem with heq | hold
    · exact hrow (heq ▸ List.mem_map_of_mem hr)
    · exact h r (List.mem_cons_of_mem _ hr) hold

/-! ### Reads by key -/

/-- The row under a key. -/
def get? (t : Table key) (k : κ) : Option α := t.rows.find? fun r => key r = k

/-- The last row of a list under a key. -/
def lastOf (key : α → κ) (k : κ) (rows : List α) : Option α := rows.reverse.find? fun r => key r = k

@[simp] theorem lastOf_nil : lastOf key k [] = none := rfl

theorem lastOf_append (more : List α) :
    lastOf key k (rows ++ more) = (lastOf key k more).or (lastOf key k rows) := by
  rw [lastOf, List.reverse_append, List.find?_append]
  rfl

theorem lastOf_singleton : lastOf key k [r] = if key r = k then some r else none := by
  rw [lastOf, List.reverse_singleton, List.find?_singleton]
  simp

/-- The rows may be images of others, whose keys they keep. -/
theorem lastOf_map {β : Type*} {key' : β → κ} (f : β → α) (hkey : ∀ b, key (f b) = key' b)
    (bs : List β) : lastOf key k (bs.map f) = (lastOf key' k bs).map f := by
  rw [lastOf, ← List.map_reverse, List.find?_map]
  simp only [Function.comp_def, hkey]
  rfl

theorem mem_of_lastOf (h : lastOf key k rows = some r) : r ∈ rows ∧ key r = k :=
  ⟨List.mem_reverse.mp (List.mem_of_find?_eq_some h), by simpa using List.find?_some h⟩

theorem isSome_lastOf : (lastOf key k rows).isSome ↔ k ∈ rows.map key := by
  simp [lastOf, List.find?_isSome]

/-- Of rows of different keys each is the last one under its key. -/
theorem lastOf_eq_some (hrows : (rows.map key).Nodup) :
    lastOf key k rows = some r ↔ r ∈ rows ∧ key r = k := by
  constructor
  · exact mem_of_lastOf
  · rintro ⟨hr, rfl⟩
    obtain ⟨r', hr'⟩ := Option.isSome_iff_exists.mp
      (isSome_lastOf.mpr (List.mem_map_of_mem (f := key) hr))
    obtain ⟨hmem, hkey⟩ := mem_of_lastOf hr'
    rw [hr', List.inj_on_of_nodup_map hrows hmem hr hkey]

theorem get?_eq_some : t.get? k = some r ↔ r ∈ t.rows ∧ key r = k := by
  constructor
  · intro h
    exact ⟨List.mem_of_find?_eq_some h, by simpa using List.find?_some h⟩
  · rintro ⟨hr, rfl⟩
    cases hfound : t.get? (key r) with
    | none =>
      have hnot := List.find?_eq_none.mp hfound r hr
      simp at hnot
    | some r' =>
      have hkey : key r' = key r := by simpa using List.find?_some hfound
      exact congrArg some (List.inj_on_of_nodup_map t.unique (List.mem_of_find?_eq_some hfound)
        hr hkey)

theorem filter_key (t : Table key) (k : κ) :
    (t.rows.filter fun r => key r = k) = (t.get? k).toList := by
  have hone : ∀ rows : List α, (rows.map key).Nodup →
      (rows.filter fun r => key r = k) = (rows.find? fun r => key r = k).toList := by
    intro rows hrows
    induction rows with
    | nil => rfl
    | cons r rows ih =>
      obtain ⟨hr, hrest⟩ := List.nodup_cons.mp hrows
      by_cases hk : key r = k
      · have hnone : (rows.filter fun r => key r = k) = [] := by
          refine List.filter_eq_nil_iff.mpr fun r' hr' hkey => hr ?_
          rw [hk, ← of_decide_eq_true hkey]
          exact List.mem_map_of_mem hr'
        simp [hk, hnone]
      · simp [hk, ih hrest]
  exact hone t.rows t.unique

theorem get?_empty : (empty : Table key).get? k = none := rfl

/-- `DELETE ... WHERE key = k`. -/
def delete (k : κ) (t : Table key) : Table key where
  rows := t.rows.filter fun r => key r ≠ k
  unique := t.unique.sublist (List.filter_sublist.map key)

theorem get?_delete {j : κ} : (t.delete j).get? k = if k = j then none else t.get? k := by
  apply Option.ext
  intro r
  rw [get?_eq_some, delete, List.mem_filter]
  split
  · rename_i hk
    simp [hk]
  · rename_i hk
    rw [get?_eq_some]
    constructor
    · rintro ⟨⟨hr, -⟩, hkey⟩
      exact ⟨hr, hkey⟩
    · rintro ⟨hr, hkey⟩
      exact ⟨⟨hr, by simpa [hkey] using hk⟩, hkey⟩

theorem get?_upsert : (t.upsert row).get? k = if key row = k then some row else t.get? k := by
  apply Option.ext
  intro r
  split
  · rename_i hk
    rw [get?_eq_some, mem_upsert, Option.some.injEq]
    constructor
    · rintro ⟨rfl | ⟨-, hne⟩, hr⟩
      · rfl
      · exact absurd (hr.trans hk.symm) hne
    · rintro rfl
      exact ⟨.inl rfl, hk⟩
  · rename_i hk
    rw [get?_eq_some, get?_eq_some, mem_upsert]
    constructor
    · rintro ⟨rfl | ⟨hr, -⟩, hkey⟩
      · exact absurd hkey hk
      · exact ⟨hr, hkey⟩
    · rintro ⟨hr, rfl⟩
      exact ⟨.inr ⟨hr, Ne.symm hk⟩, rfl⟩

/-- Of the rows that are upserted under a key the last one stands. -/
theorem get?_upsertAll : (t.upsertAll rows).get? k = (lastOf key k rows).or (t.get? k) := by
  induction rows generalizing t with
  | nil => rfl
  | cons row rows ih =>
    rw [upsertAll_cons, ih, get?_upsert, ← List.singleton_append, lastOf_append, lastOf_singleton,
      Option.or_assoc]
    split <;> simp

end Table

end ChainMonitor.ProofKit
