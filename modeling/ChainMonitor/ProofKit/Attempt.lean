import Mathlib.Data.List.Forall2
import Mathlib.Data.List.Monad
import Mathlib.Data.List.ReduceOption

/-! Computations that may raise, as `Except`: when a sequence of them returns, and what. -/

namespace ChainMonitor.ProofKit

universe u

variable {ε α β : Type u}

theorem bind_eq_ok {x : Except ε α} {f : α → Except ε β} {b : β} :
    (x >>= f) = .ok b ↔ ∃ a, x = .ok a ∧ f a = .ok b := by
  cases x with
  | error e => simp [bind, Except.bind]
  | ok a => simp [bind, Except.bind]

theorem bind_eq_error {x : Except ε α} {f : α → Except ε β} {e : ε} :
    (x >>= f) = .error e ↔ x = .error e ∨ ∃ a, x = .ok a ∧ f a = .error e := by
  cases x with
  | error e' => simp [bind, Except.bind]
  | ok a => simp [bind, Except.bind]

theorem map_eq_ok {x : Except ε α} {f : α → β} {b : β} :
    f <$> x = .ok b ↔ ∃ a, x = .ok a ∧ f a = b := by
  cases x with
  | error e => simp [Functor.map, Except.map]
  | ok a => simp [Functor.map, Except.map]

theorem toOption_eq_some {x : Except ε α} {a : α} : x.toOption = some a ↔ x = .ok a := by
  cases x with
  | error e => simp [Except.toOption]
  | ok a => simp [Except.toOption]

/-- Each element has a value under a relation when all of them together have a list of values. -/
theorem exists_forall₂ {R : α → β → Prop} {as : List α} :
    (∃ bs, List.Forall₂ R as bs) ↔ ∀ a ∈ as, ∃ b, R a b := by
  constructor
  · rintro ⟨bs, h⟩
    induction h with
    | nil =>
      intro a ha
      cases ha
    | cons hhead htail ih => exact List.forall_mem_cons.mpr ⟨⟨_, hhead⟩, ih⟩
  · intro h
    induction as with
    | nil => exact ⟨[], .nil⟩
    | cons a as ih =>
      obtain ⟨⟨b, hb⟩, hrest⟩ := List.forall_mem_cons.mp h
      obtain ⟨bs, hbs⟩ := ih hrest
      exact ⟨b :: bs, .cons hb hbs⟩

theorem forall₂_mem_left {R : α → β → Prop} {as : List α} {bs : List β} (h : List.Forall₂ R as bs)
    {a : α} (ha : a ∈ as) : ∃ b ∈ bs, R a b := by
  induction h with
  | nil => cases ha
  | cons hhead htail ih =>
    rcases List.mem_cons.mp ha with rfl | ha
    · exact ⟨_, List.mem_cons_self, hhead⟩
    · obtain ⟨b, hb, hR⟩ := ih ha
      exact ⟨b, List.mem_cons_of_mem _ hb, hR⟩

theorem forall₂_congr_mem {R S : α → β → Prop} {as : List α} {bs : List β}
    (h : ∀ a ∈ as, ∀ b, R a b ↔ S a b) : List.Forall₂ R as bs ↔ List.Forall₂ S as bs := by
  have hmem : ∀ Q : α → β → Prop,
      List.Forall₂ Q as bs ↔ List.Forall₂ (fun a b => a ∈ as ∧ Q a b) as bs := fun Q =>
    ⟨fun hQ => (List.forall₂_and_left as bs).mpr ⟨fun _ ha => ha, hQ⟩,
      fun hQ => ((List.forall₂_and_left as bs).mp hQ).2⟩
  rw [hmem R, hmem S]
  have hsame : ∀ a b, a ∈ as ∧ R a b ↔ a ∈ as ∧ S a b :=
    fun a b => and_congr_right fun ha => h a ha b
  simp only [hsame]

/-- What holds of the elements of one list when it holds of their partners. -/
theorem forall_mem_iff_of_forall₂ {P : α → Prop} {Q : β → Prop} {as : List α} {bs : List β}
    (h : List.Forall₂ (fun a b => P a ↔ Q b) as bs) : (∀ a ∈ as, P a) ↔ ∀ b ∈ bs, Q b := by
  induction h with
  | nil => simp
  | cons hhead htail ih => rw [List.forall_mem_cons, List.forall_mem_cons, hhead, ih]

theorem map_eq_of_forall₂ {γ : Type u} {f : α → γ} {g : β → γ} {as : List α} {bs : List β}
    (h : List.Forall₂ (fun a b => f a = g b) as bs) : as.map f = bs.map g := by
  induction h with
  | nil => rfl
  | cons hhead htail ih => rw [List.map_cons, List.map_cons, hhead, ih]

/-- What is done to the elements beside their values is done to each of them. -/
theorem exists_forall₂_zip {γ : Type u} {R : α → β → Prop} {S : α × β → γ → Prop} {as : List α}
    {cs : List γ} :
    (∃ bs, List.Forall₂ R as bs ∧ List.Forall₂ S (as.zip bs) cs) ↔
      List.Forall₂ (fun a c => ∃ b, R a b ∧ S (a, b) c) as cs := by
  induction as generalizing cs with
  | nil =>
    constructor
    · rintro ⟨bs, hR, hS⟩
      rw [List.zip_nil_left, List.forall₂_nil_left_iff] at hS
      exact hS ▸ .nil
    · intro h
      rw [List.forall₂_nil_left_iff] at h
      exact ⟨[], .nil, h ▸ .nil⟩
  | cons a as ih =>
    constructor
    · rintro ⟨bs, hR, hS⟩
      obtain ⟨b, bs, hb, hbs, rfl⟩ := List.forall₂_cons_left_iff.mp hR
      obtain ⟨c, cs, hc, hcs, rfl⟩ := List.forall₂_cons_left_iff.mp hS
      exact .cons ⟨b, hb, hc⟩ (ih.mp ⟨bs, hbs, hcs⟩)
    · intro h
      obtain ⟨c, cs, ⟨b, hb, hc⟩, hcs, rfl⟩ := List.forall₂_cons_left_iff.mp h
      obtain ⟨bs, hbs, hrest⟩ := ih.mpr hcs
      exact ⟨b :: bs, .cons hb hbs, .cons hc hrest⟩

/-- A list of computations returns when each of them does, in order. -/
theorem mapM_eq_ok {f : α → Except ε β} {as : List α} {bs : List β} :
    as.mapM f = .ok bs ↔ List.Forall₂ (fun a b => f a = .ok b) as bs := by
  induction as generalizing bs with
  | nil =>
    rw [List.mapM_nil, List.forall₂_nil_left_iff]
    show Except.ok [] = .ok bs ↔ _
    rw [Except.ok.injEq, eq_comm]
  | cons a as ih =>
    simp only [List.mapM_cons, bind_eq_ok, ih, List.forall₂_cons_left_iff]
    constructor
    · rintro ⟨b, hb, cs, hcs, h⟩
      exact ⟨b, cs, hb, hcs, (Except.ok.inj h).symm⟩
    · rintro ⟨b, cs, hb, hcs, rfl⟩
      exact ⟨b, hb, cs, hcs, rfl⟩

/-- What is done to each value may as well be done to the list of them. -/
theorem mapM_map_eq {γ : Type u} {f : α → Except ε β} {g : β → γ} (as : List α) :
    (as.mapM fun a => g <$> f a) = List.map g <$> as.mapM f := by
  induction as with
  | nil => rfl
  | cons a as ih =>
    rw [List.mapM_cons, List.mapM_cons, ih]
    cases f a with
    | error e => rfl
    | ok b => cases as.mapM f <;> rfl

theorem exists_of_mapM_eq_ok {f : α → Except ε β} {as : List α} {bs : List β}
    (h : as.mapM f = .ok bs) : ∀ a ∈ as, ∃ b, f a = .ok b :=
  exists_forall₂.mp ⟨bs, mapM_eq_ok.mp h⟩

/-- A list of computations raises what one of them raises. -/
theorem exists_of_mapM_eq_error {f : α → Except ε β} {as : List α} {e : ε}
    (h : as.mapM f = .error e) : ∃ a ∈ as, f a = .error e := by
  induction as with
  | nil => cases h
  | cons a as ih =>
    rw [List.mapM_cons, bind_eq_error] at h
    rcases h with ha | ⟨b, -, hrest⟩
    · exact ⟨a, List.mem_cons_self, ha⟩
    · rw [bind_eq_error] at hrest
      rcases hrest with hrest | ⟨bs, -, hpure⟩
      · obtain ⟨x, hx, he⟩ := ih hrest
        exact ⟨x, List.mem_cons_of_mem a hx, he⟩
      · cases hpure

/-! ### Whether a computation returns -/

def Returns (x : Except ε α) : Prop := ∃ a, x = .ok a

section Returns

variable {x : Except ε α} {f : α → Except ε β}

theorem returns_pure (a : α) : Returns (pure a : Except ε α) := ⟨a, rfl⟩

theorem Returns.bind (hx : Returns x) (hf : ∀ a, Returns (f a)) : Returns (x >>= f) := by
  obtain ⟨a, ha⟩ := hx
  obtain ⟨b, hb⟩ := hf a
  exact ⟨b, bind_eq_ok.mpr ⟨a, ha, hb⟩⟩

theorem Returns.left (h : Returns (x >>= f)) : Returns x := by
  obtain ⟨b, hb⟩ := h
  obtain ⟨a, ha, -⟩ := bind_eq_ok.mp hb
  exact ⟨a, ha⟩

/-- Two steps of which the second returns or raises whatever the first returned. -/
theorem returns_bind_iff {P : Prop} (h : ∀ a, Returns (f a) ↔ P) :
    Returns (x >>= f) ↔ Returns x ∧ P := by
  constructor
  · intro hbind
    obtain ⟨b, hb⟩ := hbind
    obtain ⟨a, ha, hfa⟩ := bind_eq_ok.mp hb
    exact ⟨⟨a, ha⟩, (h a).mp ⟨b, hfa⟩⟩
  · rintro ⟨hx, hP⟩
    exact hx.bind fun a => (h a).mpr hP

theorem returns_mapM {as : List α} : Returns (as.mapM f) ↔ ∀ a ∈ as, Returns (f a) := by
  simp only [Returns, mapM_eq_ok]
  exact exists_forall₂

end Returns

section Loop

variable {σ : Type u} {step : σ → α → Except ε σ} {s t : σ} {as : List α}

/-- A loop whose steps return or raise whatever the state is returns when each of them does. -/
theorem foldlM_isOk {P : α → Prop} (hstep : ∀ s a, (∃ t, step s a = .ok t) ↔ P a) :
    (∃ t, as.foldlM step s = .ok t) ↔ ∀ a ∈ as, P a := by
  induction as generalizing s with
  | nil => exact ⟨fun _ => by simp, fun _ => ⟨s, rfl⟩⟩
  | cons a as ih =>
    simp only [List.foldlM_cons, bind_eq_ok, List.forall_mem_cons, ← hstep s a]
    constructor
    · rintro ⟨t, mid, hmid, hrest⟩
      exact ⟨⟨mid, hmid⟩, ih.mp ⟨t, hrest⟩⟩
    · rintro ⟨⟨mid, hmid⟩, hall⟩
      obtain ⟨t, hrest⟩ := ih.mpr hall
      exact ⟨t, mid, hmid, hrest⟩

/-- A loop that raises at some elements, and at the others does what `f` does, returns where it
meets none of the former. -/
theorem foldlM_eq_ok_of_guarded {P : α → Prop} {f : σ → α → σ}
    (hstep : ∀ s a t, step s a = .ok t ↔ P a ∧ f s a = t) :
    as.foldlM step s = .ok t ↔ (∀ a ∈ as, P a) ∧ as.foldl f s = t := by
  induction as generalizing s with
  | nil => simp [pure, Except.pure]
  | cons a as ih =>
    simp only [List.foldlM_cons, bind_eq_ok, List.forall_mem_cons, List.foldl_cons, hstep, ih]
    constructor
    · rintro ⟨_, ⟨ha, rfl⟩, hall, hfold⟩
      exact ⟨⟨ha, hall⟩, hfold⟩
    · rintro ⟨⟨ha, hall⟩, hfold⟩
      exact ⟨_, ⟨ha, rfl⟩, hall, hfold⟩

end Loop

/-- The value of a computation that returns one, and `none` where it raises. -/
def given (x : Except ε (Option α)) : Option α :=
  match x with
  | .ok a => a
  | .error _ => none

theorem given_eq_some {x : Except ε (Option α)} {a : α} : given x = some a ↔ x = .ok (some a) := by
  cases x with
  | error e => simp [given]
  | ok a => simp [given]

/-- The values that are there belong to the elements that have one, in order. -/
theorem forall₂_reduceOption {f : α → Except ε (Option β)} {as : List α} {os : List (Option β)}
    (h : as.mapM f = .ok os) :
    List.Forall₂ (fun a b => f a = .ok (some b)) (as.filter fun a => (given (f a)).isSome)
      os.reduceOption := by
  rw [mapM_eq_ok] at h
  induction h with
  | nil => exact .nil
  | @cons a o as os hhead htail ih =>
    cases o with
    | none => simpa [List.filter_cons, hhead, given] using ih
    | some b =>
      have hgiven : (given (f a)).isSome = true := by rw [hhead]; rfl
      rw [List.filter_cons, if_pos hgiven, List.reduceOption_cons_of_some]
      exact .cons hhead ih

end ChainMonitor.ProofKit
