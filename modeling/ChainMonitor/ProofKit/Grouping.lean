import ChainMonitor.ProofKit.Dict
import Mathlib.Algebra.BigOperators.Group.List.Basic

/-! Python's `defaultdict(list)`: pairs grouped under their keys. Every key stands once, its group
holds what came with it in order, and all groups together hold what was grouped. -/

namespace ChainMonitor.ProofKit.Dict

variable {κ α : Type*} [DecidableEq κ] {k : κ} {x : α} {ps : List (κ × α)}

/-- `d[k].append(x)`. -/
def append (d : Dict κ (List α)) (k : κ) (x : α) : Dict κ (List α) :=
  d.set k ((d.get? k).getD [] ++ [x])

/-- `for k, x in ps: d[k].append(x)`. -/
def groups (ps : List (κ × α)) : Dict κ (List α) :=
  ps.foldl (fun d p => d.append p.1 p.2) empty

/-- What is grouped under some key. -/
def members (d : Dict κ (List α)) : List α := d.rows.flatMap Prod.snd

/-- What came with a key. -/
def own (ps : List (κ × α)) (k : κ) : List α := (ps.filter fun p => p.1 = k).map Prod.snd

theorem own_cons (p : κ × α) (ps : List (κ × α)) :
    own (p :: ps) k = (if p.1 = k then [p.2] else []) ++ own ps k := by
  by_cases h : p.1 = k
  · simp [own, h]
  · simp [own, h]

/-- An append adds one member. -/
theorem members_append (d : Dict κ (List α)) (k : κ) (x : α) :
    (d.append k x).members.Perm (x :: d.members) := by
  unfold append
  cases hk : d.get? k with
  | none =>
    rw [members, rows_set_of_none hk, List.flatMap_append]
    show (d.members ++ [x]).Perm _
    exact List.perm_append_singleton x d.members
  | some xs =>
    obtain ⟨pre, post, hsplit⟩ := List.append_of_mem (get?_eq_some.mp hk)
    rw [members, members, rows_set_of_split hsplit, hsplit]
    simp only [List.flatMap_append, List.flatMap_cons, Option.getD_some]
    rw [List.append_assoc xs]
    show (pre.flatMap Prod.snd ++ (xs ++ x :: post.flatMap Prod.snd)).Perm _
    rw [← List.append_assoc, ← List.append_assoc]
    exact List.perm_middle

theorem members_foldl (d : Dict κ (List α)) (ps : List (κ × α)) :
    (ps.foldl (fun d p => d.append p.1 p.2) d).members.Perm (d.members ++ ps.map Prod.snd) := by
  induction ps generalizing d with
  | nil => simp
  | cons p ps ih =>
    rw [List.foldl_cons, List.map_cons]
    refine (ih _).trans (((members_append d p.1 p.2).append_right _).trans ?_)
    exact List.perm_middle.symm

/-- The groups together hold what was grouped. -/
theorem members_groups (ps : List (κ × α)) : (groups ps).members.Perm (ps.map Prod.snd) :=
  members_foldl empty ps

theorem get?_foldl (d : Dict κ (List α)) (ps : List (κ × α)) (k : κ) :
    (ps.foldl (fun d p => d.append p.1 p.2) d).get? k =
      if own ps k = [] then d.get? k else some ((d.get? k).getD [] ++ own ps k) := by
  induction ps generalizing d with
  | nil => rfl
  | cons p ps ih =>
    rw [List.foldl_cons, ih, own_cons, append, get?_set]
    by_cases h : p.1 = k
    · subst h
      by_cases hnil : own ps p.1 = []
      · simp [hnil]
      · simp [hnil]
    · simp [h, Ne.symm h]

/-- The group of a key holds what came with it. -/
theorem mem_groups {g : κ × List α} :
    g ∈ (groups ps).rows ↔ own ps g.1 ≠ [] ∧ g.2 = own ps g.1 := by
  obtain ⟨k, xs⟩ := g
  rw [← get?_eq_some, groups, get?_foldl]
  by_cases hnil : own ps k = []
  · simp [hnil]
  · simp [hnil, eq_comm]

/-- A total over the groups is the total over what was grouped. -/
theorem sum_groups {M : Type*} [AddCommMonoid M] (f : α → M) (ps : List (κ × α)) :
    ((groups ps).rows.map fun g => (g.2.map f).sum).sum = (ps.map fun p => f p.2).sum := by
  have hperm := ((members_groups ps).map f).sum_eq
  rw [members, List.map_flatMap, List.flatMap_def, List.sum_flatten, List.map_map, List.map_map]
    at hperm
  exact hperm

end ChainMonitor.ProofKit.Dict
