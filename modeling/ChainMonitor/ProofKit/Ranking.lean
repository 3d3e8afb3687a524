import Mathlib.Data.List.Sort

/-! Rankings: a list in order, each element with its place. The places that a selection of the
elements has in the whole ranking are its own places `1..n` exactly when no element outside the
selection is placed before one of it. -/

namespace ChainMonitor.ProofKit

variable {α : Type*} {p : α → Bool} {l : List α}

/-- The elements that `p` selects, with their places in the whole ranking, counted from `n`. -/
def placed (p : α → Bool) (l : List α) (n : ℕ) : List (α × ℕ) := (l.zipIdx n).filter fun e => p e.1

/-- No element outside the selection comes before an element of it. -/
def SelectedFirst (p : α → Bool) (l : List α) : Prop :=
  l.Pairwise fun a b => p b = true → p a = true

theorem placed_eq (h : SelectedFirst p l) (n : ℕ) : placed p l n = (l.filter p).zipIdx n := by
  induction l generalizing n with
  | nil => rfl
  | cons a l ih =>
    obtain ⟨ha, hl⟩ := List.pairwise_cons.mp h
    have hrest := ih hl (n + 1)
    by_cases hp : p a = true
    · simp only [placed] at hrest ⊢
      simp [List.zipIdx_cons, hp, hrest]
    · have hnone : l.filter p = [] := List.filter_eq_nil_iff.mpr fun b hb hpb => hp (ha b hb hpb)
      rw [hnone] at hrest
      simp only [placed] at hrest ⊢
      simp [List.zipIdx_cons, hp, hnone, hrest]

theorem mem_placed {a : α} {i : ℕ} (h : l[i]? = some a) (hp : p a = true) (n : ℕ) :
    (a, n + i) ∈ placed p l n := by
  refine List.mem_filter.mpr ⟨List.mk_mem_zipIdx_iff_le_and_getElem?_sub.mpr ⟨by omega, ?_⟩, hp⟩
  rwa [Nat.add_sub_cancel_left]

theorem map_fst_placed (n : ℕ) : (placed p l n).map Prod.fst = l.filter p := by
  induction l generalizing n with
  | nil => rfl
  | cons a l ih =>
    have hrest := ih (n + 1)
    simp only [placed] at hrest ⊢
    by_cases hp : p a = true <;> simp [List.zipIdx_cons, hp, hrest]

/-- When the place of every selected element is at most the number of selected ones, they are all in
front. -/
theorem selectedFirst_of_index_lt
    (h : ∀ (i : ℕ) a, l[i]? = some a → p a = true → i < (l.filter p).length) :
    SelectedFirst p l := by
  have hdrop : (l.drop (l.filter p).length).filter p = [] := by
    refine List.filter_eq_nil_iff.mpr fun a ha hp => ?_
    obtain ⟨i, hi⟩ := List.mem_iff_getElem?.mp ha
    rw [List.getElem?_drop] at hi
    have := h _ a hi hp
    omega
  have hsplit : (l.filter p).length = ((l.take (l.filter p).length).filter p).length := by
    conv_lhs => rw [← List.take_append_drop (l.filter p).length l]
    rw [List.filter_append, List.length_append, hdrop, List.length_nil, Nat.add_zero]
  have htake : ∀ a ∈ l.take (l.filter p).length, p a = true := by
    refine List.length_filter_eq_length_iff.mp (Nat.le_antisymm (List.length_filter_le _ _) ?_)
    rw [← hsplit]
    exact List.length_take_le _ _
  refine List.pairwise_iff_getElem.mpr fun i j hi hj hij hp => htake _ ?_
  have hlt := h j l[j] (List.getElem?_eq_getElem hj) hp
  exact List.mem_iff_getElem.mpr ⟨i, by simp; omega, by simp⟩

/-! ### Sorting by place -/

theorem zipIdx_rising (l : List α) (n : ℕ) : (l.zipIdx n).Pairwise fun a b => a.2 < b.2 := by
  refine List.pairwise_map.mp (?_ : ((l.zipIdx n).map Prod.snd).Pairwise (· < ·))
  rw [List.zipIdx_map_snd]
  exact List.pairwise_lt_range'

/-- A sort by a key finds the one order in which the keys rise. -/
theorem insertionSort_of_rising {κ : Type*} [LinearOrder κ] {key : α → κ} {xs ys : List α}
    (hperm : xs.Perm ys) (hrising : ys.Pairwise fun a b => key a < key b) :
    xs.insertionSort (fun a b => key a ≤ key b) = ys := by
  have hsort := List.perm_insertionSort (fun a b => key a ≤ key b) xs
  have hdistinct : (ys.map key).Nodup := List.pairwise_map.mpr (hrising.imp fun h => h.ne)
  refine List.Perm.eq_of_pairwise ?_ (List.pairwise_insertionSort _ xs)
    (hrising.imp fun h => h.le) (hsort.trans hperm)
  intro a b ha hb hab hba
  have ha' : a ∈ ys := hperm.mem_iff.mp (hsort.mem_iff.mp ha)
  exact List.inj_on_of_nodup_map hdistinct ha' hb (le_antisymm hab hba)

/-! ### The first of the greatest -/

variable {κ : Type*}

/-- The first of the elements that have the greatest key. A stable sort by falling keys puts it in
front. -/
def firstMax [LT κ] [DecidableLT κ] (key : α → κ) (b : α) : List α → α
  | [] => b
  | x :: xs => firstMax key (if key b < key x then x else b) xs

theorem firstMax_mem [LT κ] [DecidableLT κ] (key : α → κ) (b : α) (xs : List α) :
    firstMax key b xs ∈ b :: xs := by
  induction xs generalizing b with
  | nil => exact List.mem_singleton_self b
  | cons x xs ih =>
    rw [firstMax]
    rcases List.mem_cons.mp (ih (if key b < key x then x else b)) with h | h
    · rw [h]
      split
      · simp
      · simp
    · exact List.mem_cons_of_mem b (List.mem_cons_of_mem x h)

theorem firstMax_map {β : Type*} [LT κ] [DecidableLT κ] (g : α → β) (key : β → κ) (b : α)
    (xs : List α) : firstMax key (g b) (xs.map g) = g (firstMax (fun x => key (g x)) b xs) := by
  induction xs generalizing b with
  | nil => rfl
  | cons x xs ih =>
    rw [List.map_cons, firstMax, firstMax, ← ih]
    congr 1
    split
    · rfl
    · rfl

/-- Keys that compare alike select alike. -/
theorem firstMax_congr {κ' : Type*} [LT κ] [DecidableLT κ] [LT κ'] [DecidableLT κ'] {key : α → κ}
    {key' : α → κ'} {b : α} {xs : List α}
    (h : ∀ x ∈ b :: xs, ∀ y ∈ b :: xs, key x < key y ↔ key' x < key' y) :
    firstMax key b xs = firstMax key' b xs := by
  induction xs generalizing b with
  | nil => rfl
  | cons x xs ih =>
    have hhead := h b List.mem_cons_self x (List.mem_cons_of_mem b List.mem_cons_self)
    have hnext : (if key b < key x then x else b) = if key' b < key' x then x else b :=
      if_congr hhead rfl rfl
    rw [firstMax, firstMax, hnext]
    apply ih
    have hsub : (if key' b < key' x then x else b) :: xs ⊆ b :: x :: xs := by
      intro y hy
      rcases List.mem_cons.mp hy with rfl | hy
      · split
        · simp
        · simp
      · exact List.mem_cons_of_mem b (List.mem_cons_of_mem x hy)
    intro y hy z hz
    exact h y (hsub hy) z (hsub hz)

variable [LinearOrder κ] {key : α → κ}

/-- What comes before the selected element has a smaller key, and what comes after it no greater
one. -/
theorem firstMax_split (key : α → κ) (b : α) (xs : List α) :
    ∃ pre post, b :: xs = pre ++ firstMax key b xs :: post ∧
      (∀ x ∈ pre, key x < key (firstMax key b xs)) ∧
      ∀ x ∈ post, key x ≤ key (firstMax key b xs) := by
  induction xs generalizing b with
  | nil => exact ⟨[], [], rfl, by simp, by simp⟩
  | cons x xs ih =>
    rw [firstMax]
    by_cases hlt : key b < key x
    · rw [if_pos hlt]
      obtain ⟨pre, post, hsplit, hpre, hpost⟩ := ih x
      have hx : key x ≤ key (firstMax key x xs) := by
        have hmem : x ∈ pre ++ firstMax key x xs :: post := hsplit ▸ List.mem_cons_self
        rcases List.mem_append.mp hmem with h | h
        · exact (hpre x h).le
        · rcases List.mem_cons.mp h with h | h
          · exact le_of_eq (congrArg key h)
          · exact hpost x h
      refine ⟨b :: pre, post, by rw [hsplit]; rfl, ?_, hpost⟩
      intro y hy
      rcases List.mem_cons.mp hy with rfl | hy
      · exact hlt.trans_le hx
      · exact hpre y hy
    · rw [if_neg hlt]
      obtain ⟨pre, post, hsplit, hpre, hpost⟩ := ih b
      cases pre with
      | nil =>
        obtain ⟨hb, hxs⟩ := List.cons.inj hsplit
        refine ⟨[], x :: post, by rw [← hb, ← hxs]; rfl, by simp, ?_⟩
        intro y hy
        rcases List.mem_cons.mp hy with rfl | hy
        · rw [← hb]
          exact not_lt.mp hlt
        · exact hpost y hy
      | cons c pre =>
        obtain ⟨rfl, hxs⟩ := List.cons.inj hsplit
        refine ⟨b :: x :: pre, post, congrArg (b :: x :: ·) hxs, ?_, hpost⟩
        intro y hy
        have hb := hpre b List.mem_cons_self
        rcases List.mem_cons.mp hy with rfl | hy
        · exact hb
        · rcases List.mem_cons.mp hy with rfl | hy
          · exact (not_lt.mp hlt).trans_lt hb
          · exact hpre y (List.mem_cons_of_mem b hy)

/-- Two such splits of one list select the same element. -/
theorem eq_of_splits {m m' : α} {pre post pre' post' : List α}
    (h : pre ++ m :: post = pre' ++ m' :: post')
    (hpre : ∀ x ∈ pre, key x < key m) (hpost : ∀ x ∈ post, key x ≤ key m)
    (hpre' : ∀ x ∈ pre', key x < key m') (hpost' : ∀ x ∈ post', key x ≤ key m') : m = m' := by
  rcases List.append_eq_append_iff.mp h with ⟨as, rfl, has⟩ | ⟨as, rfl, has⟩
  · cases as with
    | nil => exact (List.cons.inj has).1
    | cons a as =>
      obtain ⟨rfl, hmem⟩ := List.cons.inj has
      have hlt := hpre' m (by simp)
      have hle := hpost m' (by simp [hmem])
      exact absurd hlt (not_lt.mpr hle)
  · cases as with
    | nil => exact (List.cons.inj has).1.symm
    | cons a as =>
      obtain ⟨rfl, hmem⟩ := List.cons.inj has
      have hlt := hpre m' (by simp)
      have hle := hpost' m (by simp [hmem])
      exact absurd hlt (not_lt.mpr hle)

theorem le_firstMax (key : α → κ) (b : α) (xs : List α) :
    ∀ x ∈ b :: xs, key x ≤ key (firstMax key b xs) := by
  obtain ⟨pre, post, hsplit, hpre, hpost⟩ := firstMax_split key b xs
  intro x hx
  rw [hsplit] at hx
  rcases List.mem_append.mp hx with hx | hx
  · exact (hpre x hx).le
  · rcases List.mem_cons.mp hx with rfl | hx
    · exact le_rfl
    · exact hpost x hx

theorem firstMax_cons (key : α → κ) (a b : α) (xs : List α) : firstMax key a (b :: xs) =
    if key (firstMax key b xs) ≤ key a then a else firstMax key b xs := by
  obtain ⟨pre, post, hsplit, hpre, hpost⟩ := firstMax_split key a (b :: xs)
  split
  · rename_i hle
    refine eq_of_splits (hsplit.symm.trans (List.nil_append _).symm) hpre hpost nofun ?_
    exact fun x hx => (le_firstMax key b xs x hx).trans hle
  · rename_i hlt
    obtain ⟨pre', post', hsplit', hpre', hpost'⟩ := firstMax_split key b xs
    have hfront : a :: b :: xs = (a :: pre') ++ firstMax key b xs :: post' := by
      rw [hsplit', List.cons_append]
    refine eq_of_splits (hsplit.symm.trans hfront) hpre hpost ?_ hpost'
    intro x hx
    rcases List.mem_cons.mp hx with rfl | hx
    · exact not_le.mp hlt
    · exact hpre' x hx

/-- A stable sort by falling keys puts the first of the greatest in front. -/
theorem head?_insertionSort (key : α → κ) (b : α) (xs : List α) :
    ((b :: xs).insertionSort fun x y => key y ≤ key x).head? = some (firstMax key b xs) := by
  induction xs generalizing b with
  | nil => rfl
  | cons x xs ih =>
    have hrest := ih x
    rw [firstMax_cons, List.insertionSort_cons]
    cases hsorted : (x :: xs).insertionSort fun x y => key y ≤ key x with
    | nil =>
      rw [hsorted] at hrest
      cases hrest
    | cons m ms =>
      rw [hsorted] at hrest
      obtain rfl : m = firstMax key x xs := Option.some.inj hrest
      rw [List.orderedInsert_cons]
      split
      · rfl
      · rfl

/-- Of pairs of equal keys it is the first element of one. -/
theorem firstMax_mem_fst {pairs : List (α × α)} (hkey : ∀ p ∈ pairs, key p.1 = key p.2) {b : α}
    {xs : List α} (h : pairs.flatMap (fun p => [p.1, p.2]) = b :: xs) :
    firstMax key b xs ∈ pairs.map Prod.fst := by
  have hpairs : ∀ (pairs : List (α × α)) (b : α), (∀ p ∈ pairs, key p.1 = key p.2) →
      firstMax key b (pairs.flatMap fun p => [p.1, p.2]) = firstMax key b (pairs.map Prod.fst) := by
    intro pairs
    induction pairs with
    | nil => exact fun _ _ => rfl
    | cons p pairs ih =>
      intro b hkey
      have hnot : ¬ key (if key b < key p.1 then p.1 else b) < key p.2 := by
        rw [← hkey p List.mem_cons_self]
        split
        · exact lt_irrefl _
        · assumption
      simp only [List.flatMap_cons, List.cons_append, List.nil_append, List.map_cons, firstMax,
        if_neg hnot]
      exact ih _ fun q hq => hkey q (List.mem_cons_of_mem _ hq)
  cases pairs with
  | nil => cases h
  | cons p pairs =>
    obtain ⟨rfl, rfl⟩ := List.cons.inj h
    have hnot : ¬ key p.1 < key p.2 := (hkey p List.mem_cons_self).not_lt
    have hfirst : firstMax key p.1 (p.2 :: pairs.flatMap fun p => [p.1, p.2]) =
        firstMax key p.1 (pairs.map Prod.fst) := by
      rw [firstMax, if_neg hnot, hpairs pairs p.1 fun q hq => hkey q (List.mem_cons_of_mem _ hq)]
    show firstMax key p.1 (p.2 :: pairs.flatMap fun p => [p.1, p.2]) ∈ _
    rw [hfirst]
    exact firstMax_mem key p.1 _

/-- Elements that are left out change nothing, as long as the selected one stays. -/
theorem firstMax_filter {b c : α} {xs ys : List α} (hp : p (firstMax key b xs) = true)
    (h : (b :: xs).filter p = c :: ys) : firstMax key c ys = firstMax key b xs := by
  obtain ⟨pre, post, hsplit, hpre, hpost⟩ := firstMax_split key b xs
  obtain ⟨pre', post', hsplit', hpre', hpost'⟩ := firstMax_split key c ys
  rw [hsplit, List.filter_append, List.filter_cons_of_pos hp] at h
  refine eq_of_splits (hsplit'.symm.trans h.symm) hpre' hpost' ?_ ?_
  · intro x hx
    exact hpre x (List.mem_filter.mp hx).1
  · intro x hx
    exact hpost x (List.mem_filter.mp hx).1

end ChainMonitor.ProofKit
