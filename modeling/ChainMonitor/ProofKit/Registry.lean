import ChainMonitor.ProofKit.Clock
import Mathlib.Algebra.BigOperators.Group.Finset.Basic
import Mathlib.Algebra.BigOperators.Group.Finset.Piecewise
import Mathlib.Algebra.BigOperators.Ring.Finset
import Mathlib.Algebra.Order.BigOperators.Group.Finset
import Mathlib.Algebra.Order.Ring.Defs

/-! Registries of shared objects. `get` answers the object that is registered under a name as long
as its settings fit the wanted ones; otherwise it makes an object, registers it in place of the old
one, and answers it. Whoever got an object keeps it, and may use it after it has been replaced. -/

namespace ChainMonitor.ProofKit

/-- What a registry holds: how a name and the arguments of `get` are normalized, when the settings
of an object fit wanted ones, and how an object starts and steps. -/
structure Wares (τ ν κ ρ γ σ α : Type*) where
  key : ν → κ
  normalize : ρ → γ
  fits : γ → γ → Bool
  fresh : γ → τ → σ
  step : γ → σ → τ → α → Option σ

/-- An object, with the key under which it was made and the time when. -/
structure Entry (τ κ γ σ : Type*) where
  key : κ
  settings : γ
  madeAt : τ
  inner : σ

/-- The objects made so far, and which of them is registered under a key. -/
structure Registry (τ κ γ σ : Type*) where
  made : List (Entry τ κ γ σ)
  current : κ → Option ℕ

inductive RegistryAct (ν ρ α : Type*)
  | get (name : ν) (args : ρ)
  | use (i : ℕ) (act : α)

namespace Registry

variable {τ ν κ ρ γ σ α : Type*}

def empty : Registry τ κ γ σ := ⟨[], fun _ => none⟩

/-- The registered object, where its settings fit. -/
def lookup (fits : γ → γ → Bool) (key : κ) (want : γ) (r : Registry τ κ γ σ) : Option ℕ :=
  (r.current key).filter fun i => (r.made[i]?).any fun e => fits e.settings want

section Step

variable [DecidableEq κ] (W : Wares τ ν κ ρ γ σ α)

/-- The object that `get` answers, by its place among those made, and the registry after it. -/
def get (now : τ) (name : ν) (args : ρ) (r : Registry τ κ γ σ) : ℕ × Registry τ κ γ σ :=
  match r.lookup W.fits (W.key name) (W.normalize args) with
  | some i => (i, r)
  | none => (r.made.length,
      { made := r.made ++
          [⟨W.key name, W.normalize args, now, W.fresh (W.normalize args) now⟩]
        current := Function.update r.current (W.key name) (some r.made.length) })

def step (r : Registry τ κ γ σ) (now : τ) : RegistryAct ν ρ α → Option (Registry τ κ γ σ)
  | .get name args => some (r.get W now name args).2
  | .use i act =>
    r.made[i]?.bind fun e => (W.step e.settings e.inner now act).map fun inner =>
      { r with made := r.made.set i { e with inner } }

/-- A step at the time that its label carries. -/
def stepAt (r : Registry τ κ γ σ) (a : Stamped τ (RegistryAct ν ρ α)) :
    Option (Registry τ κ γ σ) :=
  r.step W a.now a.act

end Step

/-! ### What a step does -/

section Steps

variable [DecidableEq κ] {W : Wares τ ν κ ρ γ σ α} {r r' : Registry τ κ γ σ} {now : τ}
  {name : ν} {args : ρ} {i j : ℕ} {e e' : Entry τ κ γ σ}

omit [DecidableEq κ] in
theorem lookup_eq_some {key : κ} {want : γ} : r.lookup W.fits key want = some i ↔
    r.current key = some i ∧ ∃ e, r.made[i]? = some e ∧ W.fits e.settings want = true := by
  rw [lookup, Option.filter_eq_some_iff, Option.any_eq_true]

theorem step_use_eq_some {act : α} : r.step W now (.use i act) = some r' ↔
    ∃ e inner, r.made[i]? = some e ∧ W.step e.settings e.inner now act = some inner ∧
      { r with made := r.made.set i { e with inner } } = r' := by
  simp only [step, Option.bind_eq_some_iff, Option.map_eq_some_iff]
  constructor
  · rintro ⟨e, he, inner, hs, hr⟩
    exact ⟨e, inner, he, hs, hr⟩
  · rintro ⟨e, inner, he, hs, hr⟩
    exact ⟨e, he, inner, hs, hr⟩

theorem get_cases (W : Wares τ ν κ ρ γ σ α) (r : Registry τ κ γ σ) (now : τ) (name : ν)
    (args : ρ) :
    (∃ i, r.lookup W.fits (W.key name) (W.normalize args) = some i ∧
      r.get W now name args = (i, r)) ∨
    (r.lookup W.fits (W.key name) (W.normalize args) = none ∧
      (r.get W now name args).1 = r.made.length ∧
      (r.get W now name args).2.made = r.made ++
        [⟨W.key name, W.normalize args, now, W.fresh (W.normalize args) now⟩] ∧
      (r.get W now name args).2.current =
        Function.update r.current (W.key name) (some r.made.length)) := by
  unfold get
  cases h : r.lookup W.fits (W.key name) (W.normalize args) with
  | some i => exact .inl ⟨i, rfl, rfl⟩
  | none => exact .inr ⟨rfl, rfl, rfl, rfl⟩

theorem current_get_of_ne {key : κ} (h : key ≠ W.key name) :
    (r.get W now name args).2.current key = r.current key := by
  rcases get_cases W r now name args with ⟨i, -, heq⟩ | ⟨-, -, -, hcurrent⟩
  · rw [heq]
  · rw [hcurrent, Function.update_of_ne h]

/-- What `get` answers is registered afterwards. -/
theorem current_get : (r.get W now name args).2.current (W.key name) =
    some (r.get W now name args).1 := by
  rcases get_cases W r now name args with ⟨i, hi, heq⟩ | ⟨-, hlen, -, hcurrent⟩
  · rw [heq]
    exact (lookup_eq_some.mp hi).1
  · rw [hcurrent, hlen, Function.update_self]

theorem get_of_fits (hi : r.current (W.key name) = some i) (he : r.made[i]? = some e)
    (hfits : W.fits e.settings (W.normalize args) = true) : r.get W now name args = (i, r) := by
  rw [get, lookup_eq_some.mpr ⟨hi, e, he, hfits⟩]

theorem get_of_not_fits (hi : r.current (W.key name) = some i) (he : r.made[i]? = some e)
    (hfits : W.fits e.settings (W.normalize args) = false) :
    (r.get W now name args).1 = r.made.length := by
  rcases get_cases W r now name args with ⟨j, hj, -⟩ | ⟨-, hlen, -, -⟩
  · obtain ⟨hcurrent, d, hd, hfits'⟩ := lookup_eq_some.mp hj
    obtain rfl : i = j := Option.some.inj (hi.symm.trans hcurrent)
    obtain rfl : e = d := Option.some.inj (he.symm.trans hd)
    exact absurd hfits' (by simp [hfits])
  · exact hlen

/-- Whatever a step does, an object keeps its place, its key, its settings and the time when it was
made. -/
theorem kept {act : RegistryAct ν ρ α} (h : r.step W now act = some r') (he : r.made[i]? = some e) :
    ∃ inner, r'.made[i]? = some { e with inner } := by
  cases act with
  | get name args =>
    cases h
    rcases get_cases W r now name args with ⟨j, -, heq⟩ | ⟨-, -, hmade, -⟩
    · exact ⟨e.inner, by rw [heq]; exact he⟩
    · have hi : i < r.made.length := (List.getElem?_eq_some_iff.mp he).1
      exact ⟨e.inner, by rw [hmade, List.getElem?_append_left hi]; exact he⟩
  | use j act =>
    obtain ⟨d, inner, hd, -, rfl⟩ := step_use_eq_some.mp h
    have hi : i < r.made.length := (List.getElem?_eq_some_iff.mp he).1
    by_cases hij : j = i
    · subst hij
      obtain rfl : d = e := Option.some.inj (hd.symm.trans he)
      exact ⟨inner, List.getElem?_set_self hi⟩
    · exact ⟨e.inner, by rw [List.getElem?_set_ne hij]; exact he⟩

/-- The object registered under a key is the newest one made under it. -/
structure Sound (r : Registry τ κ γ σ) : Prop where
  registered : ∀ key i, r.current key = some i → ∃ e, r.made[i]? = some e ∧ e.key = key
  newest : ∀ i e, r.made[i]? = some e → ∃ j, r.current e.key = some j ∧ i ≤ j

omit [DecidableEq κ] in
theorem sound_empty : (empty : Registry τ κ γ σ).Sound where
  registered _ _ h := by cases h
  newest _ _ h := by cases h

theorem Sound.get (h : r.Sound) (W : Wares τ ν κ ρ γ σ α) (now : τ) (name : ν) (args : ρ) :
    (r.get W now name args).2.Sound := by
  rcases get_cases W r now name args with ⟨i, -, heq⟩ | ⟨-, -, hmade, hcurrent⟩
  · rw [heq]
    exact h
  · refine ⟨fun key i hi => ?_, fun i e he => ?_⟩
    · rw [hcurrent] at hi
      rw [hmade]
      rcases update_eq_some.mp hi with ⟨rfl, rfl⟩ | ⟨-, hi⟩
      · exact ⟨_, List.getElem?_concat_length, rfl⟩
      · obtain ⟨e, he, hkey⟩ := h.registered key i hi
        have hlt : i < r.made.length := (List.getElem?_eq_some_iff.mp he).1
        exact ⟨e, by rw [List.getElem?_append_left hlt]; exact he, hkey⟩
    · rw [hmade] at he
      rw [hcurrent]
      rcases Nat.lt_or_ge i r.made.length with hlt | hge
      · rw [List.getElem?_append_left hlt] at he
        by_cases hkey : e.key = W.key name
        · exact ⟨r.made.length, by rw [hkey, Function.update_self], hlt.le⟩
        · rw [Function.update_of_ne hkey]
          exact h.newest i e he
      · rw [List.getElem?_append_right hge, List.getElem?_singleton] at he
        split at he
        · cases he
          exact ⟨r.made.length, Function.update_self .., by omega⟩
        · cases he

theorem Sound.step (h : r.Sound) {act : RegistryAct ν ρ α} (hs : r.step W now act = some r') :
    r'.Sound := by
  cases act with
  | get name args =>
    cases hs
    exact h.get W now name args
  | use j act =>
    obtain ⟨d, inner, hd, -, rfl⟩ := step_use_eq_some.mp hs
    have hj : j < r.made.length := (List.getElem?_eq_some_iff.mp hd).1
    refine ⟨fun key i hi => ?_, fun i e he => ?_⟩
    · obtain ⟨e, he, rfl⟩ := h.registered key i hi
      obtain ⟨inner', he'⟩ := kept hs he
      exact ⟨_, he', rfl⟩
    · by_cases hij : j = i
      · subst hij
        rw [List.getElem?_set_self hj] at he
        cases he
        exact h.newest j d hd
      · rw [List.getElem?_set_ne hij] at he
        exact h.newest i e he

end Steps

/-! ### Who shares an object -/

section Sharing

variable [DecidableEq κ] {W : Wares τ ν κ ρ γ σ α} {r : Registry τ κ γ σ}
  {now : τ} {name name' : ν} {args args' : ρ} {i : ℕ} {e : Entry τ κ γ σ}

/-- The settings that a step asks for under a key. -/
def wanted (W : Wares τ ν κ ρ γ σ α) (key : κ) : RegistryAct ν ρ α → Option γ
  | .get name args => if W.key name = key then some (W.normalize args) else none
  | .use _ _ => none

/-- The settings that the steps ask for under a key. -/
def wants (W : Wares τ ν κ ρ γ σ α) (key : κ) (acts : List (Stamped τ (RegistryAct ν ρ α))) :
    List γ :=
  acts.filterMap fun a => wanted W key a.act

theorem wants_concat {key : κ} (acts : List (Stamped τ (RegistryAct ν ρ α)))
    (a : Stamped τ (RegistryAct ν ρ α)) :
    wants W key (acts ++ [a]) = wants W key acts ++ (wanted W key a.act).toList := by
  unfold wants
  cases h : wanted W key a.act <;> simp [List.filterMap_append, h]

/-- Object `i`, made under `key` with `settings`, is registered unless one of the settings asked for
since then did not fit it. From then on a newer object is. -/
structure Holds (W : Wares τ ν κ ρ γ σ α) (key : κ) (settings : γ) (i : ℕ) (wants : List γ)
    (r : Registry τ κ γ σ) : Prop where
  kept : ∃ e, r.made[i]? = some e ∧ e.key = key ∧ e.settings = settings
  registered : (∀ want ∈ wants, W.fits settings want = true) → r.current key = some i
  replaced : (∃ want ∈ wants, W.fits settings want = false) → ∃ j, r.current key = some j ∧ i < j

theorem Holds.step {key : κ} {settings : γ} {asked : List γ} {act : RegistryAct ν ρ α}
    {r' : Registry τ κ γ σ} (h : Holds W key settings i asked r)
    (hs : r.step W now act = some r') :
    Holds W key settings i (asked ++ (wanted W key act).toList) r' := by
  obtain ⟨e, he, hkey, rfl⟩ := h.kept
  obtain ⟨inner, he'⟩ := Registry.kept hs he
  have hkept : ∃ e', r'.made[i]? = some e' ∧ e'.key = key ∧ e'.settings = e.settings :=
    ⟨_, he', hkey, rfl⟩
  cases act with
  | use j act =>
    obtain ⟨d, inner, -, -, rfl⟩ := step_use_eq_some.mp hs
    simp only [wanted, Option.toList_none, List.append_nil]
    exact ⟨hkept, h.registered, h.replaced⟩
  | get name args =>
    cases hs
    by_cases hname : W.key name = key
    · subst hname
      simp only [wanted, if_true, Option.toList_some]
      -- what `get` answers becomes the registered object, which was `i` or a newer one before
      by_cases hasked : ∀ want ∈ asked, W.fits e.settings want = true
      · have hcurrent := h.registered hasked
        refine ⟨hkept, fun hall => ?_, fun ⟨want, hmem, hnot⟩ => ?_⟩
        · have hfits := hall (W.normalize args) (by simp)
          rw [get_of_fits hcurrent he hfits]
          exact hcurrent
        · have hlast : want = W.normalize args := by
            rcases List.mem_append.mp hmem with hin | hin
            · exact absurd (hasked want hin) (by simp [hnot])
            · exact List.mem_singleton.mp hin
          refine ⟨_, current_get, ?_⟩
          rw [get_of_not_fits hcurrent he (hlast ▸ hnot)]
          exact (List.getElem?_eq_some_iff.mp he).1
      · obtain ⟨want, hmem, hnot⟩ := by simpa using hasked
        obtain ⟨j, hj, hij⟩ := h.replaced ⟨want, hmem, hnot⟩
        refine ⟨hkept, fun hall => ?_, fun _ => ⟨_, current_get, ?_⟩⟩
        · exact absurd (hall want (by simp [hmem])) (by simp [hnot])
        · rcases get_cases W r now name args with ⟨j', hj', heq⟩ | ⟨-, hlen, -, -⟩
          · have hsame : j = j' := Option.some.inj (hj.symm.trans (lookup_eq_some.mp hj').1)
            rw [heq]
            exact hsame ▸ hij
          · rw [hlen]
            exact (List.getElem?_eq_some_iff.mp he).1
    · simp only [wanted, if_neg hname, Option.toList_none, List.append_nil]
      have hsame : (r.get W now name args).2.current key = r.current key :=
        current_get_of_ne (Ne.symm hname)
      exact ⟨hkept, fun hall => hsame.trans (h.registered hall),
        fun hex => by rw [hsame]; exact h.replaced hex⟩

theorem holds_get (hr : r.Sound) (W : Wares τ ν κ ρ γ σ α) (now : τ) (name : ν) (args : ρ) :
    ∃ e, (r.get W now name args).2.made[(r.get W now name args).1]? = some e ∧
      Holds W (W.key name) e.settings (r.get W now name args).1 [] (r.get W now name args).2 := by
  obtain ⟨e, he, hkey⟩ := (hr.get W now name args).registered (W.key name) _ current_get
  exact ⟨e, he, ⟨e, he, hkey, rfl⟩, fun _ => current_get, fun ⟨_, hmem, _⟩ => by simp at hmem⟩

/-- The object that a call of `get` answered is the one that a later call answers, exactly when both
names have the same key and all settings asked for under it since then fit the object's. -/
theorem get_same_iff {t : τ} {acts : List (Stamped τ (RegistryAct ν ρ α))}
    {s : Registry τ κ γ σ} (hr : r.Sound)
    (he : (r.get W t name args).2.made[(r.get W t name args).1]? = some e)
    (hrun : exec (stepAt W) (r.get W t name args).2 acts = some s) :
    (s.get W now name' args').1 = (r.get W t name args).1 ↔ W.key name' = W.key name ∧
      ∀ want ∈ wants W (W.key name) acts ++ [W.normalize args'], W.fits e.settings want = true := by
  obtain ⟨d, hd, hholds⟩ := holds_get hr W t name args
  obtain rfl : e = d := Option.some.inj (he.symm.trans hd)
  have hsound := hr.get W t name args
  generalize (r.get W t name args).1 = i at *
  generalize (r.get W t name args).2 = r₀ at *
  obtain ⟨hs, hheld⟩ : s.Sound ∧
      Holds W (W.key name) e.settings i (wants W (W.key name) acts) s := by
    refine exec_history (fun acts s => s.Sound ∧
      Holds W (W.key name) e.settings i (wants W (W.key name) acts) s) ⟨hsound, hholds⟩ ?_ hrun
    intro acts u a v _ ⟨hu, hheld⟩ hv
    rw [wants_concat]
    exact ⟨hu.step hv, hheld.step hv⟩
  have hget : Holds W (W.key name) e.settings i (wants W (W.key name) acts ++
      (wanted W (W.key name) (.get name' args' : RegistryAct ν ρ α)).toList)
      (s.get W now name' args').2 := hheld.step rfl
  have hanswer : (s.get W now name' args').2.current (W.key name') =
    some (s.get W now name' args').1 := current_get
  by_cases hkey : W.key name' = W.key name
  · rw [hkey] at hanswer
    simp only [wanted, hkey, if_true, Option.toList_some] at hget
    simp only [hkey, true_and]
    refine ⟨fun heq => ?_, fun hall => Option.some.inj (hanswer.symm.trans (hget.registered hall))⟩
    by_contra hnot
    obtain ⟨j, hj, hlt⟩ := hget.replaced (by simpa using hnot)
    have hsame := Option.some.inj (hj.symm.trans hanswer)
    omega
  · simp only [hkey, false_and, iff_false]
    intro heq
    obtain ⟨f, hf, hfkey⟩ := (hs.get W now name' args').registered _ _ hanswer
    obtain ⟨d, hd, hdkey, -⟩ := hget.kept
    rw [heq] at hf
    obtain rfl : f = d := Option.some.inj (hf.symm.trans hd)
    exact hkey (hfkey.symm.trans hdkey)

end Sharing

/-! ### The run of one object -/

section Objects

variable {W : Wares τ ν κ ρ γ σ α}

/-- The step as a step of object `i`, when it uses this one. -/
def use? (i : ℕ) : Stamped τ (RegistryAct ν ρ α) → Option (Stamped τ α)
  | ⟨now, .use j act⟩ => if j = i then some ⟨now, act⟩ else none
  | ⟨_, .get _ _⟩ => none

/-- The uses of object `i`. -/
def usesOf (i : ℕ) (acts : List (Stamped τ (RegistryAct ν ρ α))) : List (Stamped τ α) :=
  acts.filterMap (use? i)

theorem usesOf_concat (i : ℕ) (acts : List (Stamped τ (RegistryAct ν ρ α)))
    (a : Stamped τ (RegistryAct ν ρ α)) :
    usesOf i (acts ++ [a]) = usesOf i acts ++ (use? i a).toList := by
  unfold usesOf
  cases h : use? i a <;> simp [List.filterMap_append, h]

/-- The object as it was made. -/
def started (W : Wares τ ν κ ρ γ σ α) (e : Entry τ κ γ σ) : Clocked τ σ :=
  ⟨e.madeAt, W.fresh e.settings e.madeAt⟩

variable [LinearOrder τ] [DecidableEq κ] {t₀ : τ} {i : ℕ} {e : Entry τ κ γ σ}
  {acts : List (Stamped τ (RegistryAct ν ρ α))} {a : Stamped τ (RegistryAct ν ρ α)}
  {s s' : Clocked τ (Registry τ κ γ σ)}

/-- The state of every object comes from the uses of it alone, and none is used before it is
made. -/
structure Follows (W : Wares τ ν κ ρ γ σ α) (acts : List (Stamped τ (RegistryAct ν ρ α)))
    (s : Clocked τ (Registry τ κ γ σ)) : Prop where
  unused : ∀ i, s.inner.made.length ≤ i → usesOf i acts = []
  run : ∀ i e, s.inner.made[i]? = some e → ∃ c ≤ s.clock,
    exec (clocked (W.step e.settings)) (started W e) (usesOf i acts) = some ⟨c, e.inner⟩

omit [DecidableEq κ] in
theorem follows_empty (W : Wares τ ν κ ρ γ σ α) (t₀ : τ) :
    Follows W [] (⟨t₀, empty⟩ : Clocked τ (Registry τ κ γ σ)) where
  unused _ _ := rfl
  run _ _ h := by cases h

theorem Follows.step (h : Follows W acts s) (hs : clocked (step W) s a = some s') :
    Follows W (acts ++ [a]) s' := by
  obtain ⟨hle, hclock, hstep⟩ := clocked_eq_some.mp hs
  obtain ⟨now, act⟩ := a
  cases act with
  | get name args =>
    have hlater : ∀ i e, s.inner.made[i]? = some e → ∃ c ≤ s'.clock,
        exec (clocked (W.step e.settings)) (started W e) (usesOf i acts) = some ⟨c, e.inner⟩ :=
      fun i e he => (h.run i e he).imp fun c hc => ⟨hc.1.trans (hclock ▸ hle), hc.2⟩
    have hsame : ∀ i, usesOf i (acts ++ [⟨now, .get name args⟩]) = usesOf i acts :=
      fun i => by rw [usesOf_concat]; exact List.append_nil _
    have hinner : (s.inner.get W now name args).2 = s'.inner := Option.some.inj hstep
    suffices Follows W acts s' from
      ⟨fun i => hsame i ▸ this.unused i, fun i => hsame i ▸ this.run i⟩
    rcases get_cases W s.inner now name args with ⟨j, -, heq⟩ | ⟨-, -, hmade, -⟩
    · rw [heq] at hinner
      exact ⟨hinner ▸ h.unused, hinner ▸ hlater⟩
    · rw [hinner] at hmade
      refine ⟨fun i hi => h.unused i (by rw [hmade, List.length_append] at hi; omega),
        fun i e he => ?_⟩
      rcases Nat.lt_or_ge i s.inner.made.length with hlt | hge
      · rw [hmade, List.getElem?_append_left hlt] at he
        exact hlater i e he
      · rw [hmade, List.getElem?_append_right hge, List.getElem?_singleton] at he
        split at he
        · cases he
          exact ⟨now, hclock.ge, by rw [h.unused i hge]; rfl⟩
        · cases he
  | use j act =>
    obtain ⟨d, inner, hd, huse, hinner⟩ := step_use_eq_some.mp hstep
    have hj : j < s.inner.made.length := (List.getElem?_eq_some_iff.mp hd).1
    have hmade : s'.inner.made = s.inner.made.set j { d with inner } := by rw [← hinner]
    have hother : ∀ i, j ≠ i → usesOf i (acts ++ [⟨now, .use j act⟩]) = usesOf i acts :=
      fun i hij => by rw [usesOf_concat, use?, if_neg hij]; exact List.append_nil _
    refine ⟨fun i hi => ?_, fun i e he => ?_⟩
    · rw [hmade, List.length_set] at hi
      rw [hother i (by omega)]
      exact h.unused i hi
    · rw [hmade] at he
      by_cases hij : j = i
      · subst hij
        rw [List.getElem?_set_self hj] at he
        cases he
        obtain ⟨c, hc, hrun⟩ := h.run j d hd
        refine ⟨now, hclock.ge, ?_⟩
        rw [usesOf_concat, use?, if_pos rfl, Option.toList_some, exec_concat_eq_some]
        exact ⟨_, hrun, clocked_eq_some.mpr ⟨hc.trans hle, rfl, huse⟩⟩
      · rw [List.getElem?_set_ne hij] at he
        rw [hother i hij]
        exact (h.run i e he).imp fun c hc => ⟨hc.1.trans (hclock ▸ hle), hc.2⟩

theorem follows_of_run (h : exec (clocked (step W)) ⟨t₀, empty⟩ acts = some s) : Follows W acts s :=
  exec_history (Follows W) (follows_empty W t₀) (fun _ _ _ _ _ hf hs => hf.step hs) h

/-! ### What all objects of a key grant together -/

section Grants

variable (count : γ → σ → Stamped τ α → ℕ) (key : κ)

/-- What a step grants through an object made under `key`. -/
def grantsUnder (s : Clocked τ (Registry τ κ γ σ)) : Stamped τ (RegistryAct ν ρ α) → ℕ
  | ⟨now, .use i act⟩ =>
    (s.inner.made[i]?).elim 0 fun e =>
      if e.key = key then count e.settings e.inner ⟨now, act⟩ else 0
  | ⟨_, .get _ _⟩ => 0

/-- What object `i` grants in its own run, when it is made under `key`. -/
def grantsOf (W : Wares τ ν κ ρ γ σ α) (acts : List (Stamped τ (RegistryAct ν ρ α)))
    (r : Registry τ κ γ σ) (i : ℕ) : ℕ :=
  (r.made[i]?).elim 0 fun e =>
    if e.key = key then
      total (clocked (W.step e.settings)) (fun s a => count e.settings s.inner a) (started W e)
        (usesOf i acts)
    else 0

variable {count key} {r r' : Registry τ κ γ σ} {inner : σ}

theorem grantsOf_unused (h : usesOf i acts = []) : grantsOf count key W acts r i = 0 := by
  unfold grantsOf
  rw [h]
  cases r.made[i]? <;> simp [total]

theorem grantsOf_kept {more : List (Stamped τ (RegistryAct ν ρ α))} (he : r.made[i]? = some e)
    (he' : r'.made[i]? = some { e with inner }) (h : usesOf i more = usesOf i acts) :
    grantsOf count key W more r' i = grantsOf count key W acts r i := by
  rw [grantsOf, grantsOf, he, he', h]
  rfl

theorem grantsOf_used {more : List (Stamped τ (RegistryAct ν ρ α))} {c now : τ} {act : α}
    (he : r.made[i]? = some e) (he' : r'.made[i]? = some { e with inner })
    (h : usesOf i more = usesOf i acts ++ [⟨now, act⟩])
    (hrun : exec (clocked (W.step e.settings)) (started W e) (usesOf i acts) = some ⟨c, e.inner⟩) :
    grantsOf count key W more r' i = grantsOf count key W acts r i +
      if e.key = key then count e.settings e.inner ⟨now, act⟩ else 0 := by
  rw [grantsOf, grantsOf, he, he', h]
  by_cases hkey : e.key = key
  · simp only [Option.elim_some, hkey, if_true]
    exact total_concat hrun
  · simp [hkey]

/-- The grants of a run under a key are those of the runs of its objects together. -/
theorem total_grantsUnder (h : exec (clocked (step W)) ⟨t₀, empty⟩ acts = some s) :
    total (clocked (step W)) (grantsUnder count key) ⟨t₀, empty⟩ acts =
      ∑ i ∈ Finset.range s.inner.made.length, grantsOf count key W acts s.inner i := by
  refine exec_history (fun acts s =>
    total (clocked (step W)) (grantsUnder count key) ⟨t₀, empty⟩ acts =
    ∑ i ∈ Finset.range s.inner.made.length, grantsOf count key W acts s.inner i) rfl ?_ h
  intro acts s a s' hrun ih hs
  have hfollows := follows_of_run hrun
  obtain ⟨-, -, hstep⟩ := clocked_eq_some.mp hs
  obtain ⟨now, act⟩ := a
  have hkept : ∀ i < s.inner.made.length, ∃ e inner, s.inner.made[i]? = some e ∧
      s'.inner.made[i]? = some { e with inner } := fun i hi =>
    (kept hstep (List.getElem?_eq_getElem hi)).imp' (fun _ => s.inner.made[i]) fun inner he =>
      ⟨inner, List.getElem?_eq_getElem hi, he⟩
  rw [total_concat hrun, ih]
  cases act with
  | get name args =>
    have hsame : ∀ i, usesOf i (acts ++ [⟨now, .get name args⟩]) = usesOf i acts :=
      fun i => by rw [usesOf_concat]; exact List.append_nil _
    have hinner : (s.inner.get W now name args).2 = s'.inner := Option.some.inj hstep
    have hold : ∀ i ∈ Finset.range s.inner.made.length,
        grantsOf count key W acts s.inner i =
          grantsOf count key W (acts ++ [⟨now, .get name args⟩]) s'.inner i := by
      intro i hi
      obtain ⟨e, inner, he, he'⟩ := hkept i (Finset.mem_range.mp hi)
      exact (grantsOf_kept he he' (hsame i)).symm
    rw [Finset.sum_congr rfl hold]
    rcases get_cases W s.inner now name args with ⟨j, -, heq⟩ | ⟨-, -, hmade, -⟩
    · rw [← hinner, heq]
      rfl
    · rw [← hinner, hmade, List.length_append, List.length_singleton, Finset.sum_range_succ, hinner,
        grantsOf_unused ((hsame _).trans (hfollows.unused _ le_rfl))]
      rfl
  | use j act =>
    obtain ⟨d, inner, hd, -, hinner⟩ := step_use_eq_some.mp hstep
    have hj : j < s.inner.made.length := (List.getElem?_eq_some_iff.mp hd).1
    have hmade : s'.inner.made = s.inner.made.set j { d with inner } := by rw [← hinner]
    have hd' : s'.inner.made[j]? = some { d with inner } := by rw [hmade, List.getElem?_set_self hj]
    obtain ⟨c, -, hown⟩ := hfollows.run j d hd
    -- the step adds to the grants of object `j`, and to those of no other
    have hall : ∀ i ∈ Finset.range s.inner.made.length,
        grantsOf count key W (acts ++ [⟨now, .use j act⟩]) s'.inner i =
          grantsOf count key W acts s.inner i +
            if i = j then
              grantsUnder count key s (⟨now, .use j act⟩ : Stamped τ (RegistryAct ν ρ α))
            else 0 := by
      intro i hi
      by_cases hij : i = j
      · subst hij
        rw [grantsOf_used hd hd' (by rw [usesOf_concat, use?, if_pos rfl]; rfl) hown, if_pos rfl,
          grantsUnder, hd]
        rfl
      · obtain ⟨e, inner', he, he'⟩ := hkept i (Finset.mem_range.mp hi)
        have hsame : usesOf i (acts ++ [⟨now, .use j act⟩]) = usesOf i acts := by
          rw [usesOf_concat, use?, if_neg (Ne.symm hij)]
          exact List.append_nil _
        rw [if_neg hij, grantsOf_kept he he' hsame, Nat.add_zero]
    rw [hmade, List.length_set, Finset.sum_congr rfl hall, Finset.sum_add_distrib,
      Finset.sum_ite_eq', if_pos (Finset.mem_range.mpr hj)]

variable {K : Type*} [CommSemiring K] [PartialOrder K] {bound : γ → K}

/-- No run of an object that is made with `settings` grants more than `bound settings`. -/
def Bounds (W : Wares τ ν κ ρ γ σ α) (count : γ → σ → Stamped τ α → ℕ) (bound : γ → K) : Prop :=
  ∀ settings t uses c, exec (clocked (W.step settings)) ⟨t, W.fresh settings t⟩ uses = some c →
    (total (clocked (W.step settings)) (fun s a => count settings s.inner a)
      ⟨t, W.fresh settings t⟩ uses : K) ≤ bound settings

theorem grantsOf_le (hbound : Bounds W count bound) (hfollows : Follows W acts s)
    (he : s.inner.made[i]? = some e) (hkey : e.key = key) :
    (grantsOf count key W acts s.inner i : K) ≤ bound e.settings := by
  obtain ⟨c, -, hrun⟩ := hfollows.run i e he
  rw [grantsOf, he, Option.elim_some, if_pos hkey]
  exact hbound e.settings e.madeAt _ _ hrun

/-- The objects made under a key. -/
def madeUnder (key : κ) (r : Registry τ κ γ σ) : List (Entry τ κ γ σ) :=
  r.made.filter fun e => e.key = key

omit [LinearOrder τ] [PartialOrder K] in
theorem sum_madeUnder (bound : γ → K) (made : List (Entry τ κ γ σ)) :
    ∑ i ∈ Finset.range made.length,
      ((made[i]?).elim 0 fun e => if e.key = key then bound e.settings else 0) =
    ((made.filter fun e => e.key = key).map fun e => bound e.settings).sum := by
  induction made using List.reverseRecOn with
  | nil => rfl
  | append_singleton made e ih =>
    have hold : ∀ i ∈ Finset.range made.length, (made ++ [e])[i]? = made[i]? :=
      fun i hi => List.getElem?_append_left (Finset.mem_range.mp hi)
    rw [List.length_append, List.length_singleton, Finset.sum_range_succ,
      Finset.sum_congr rfl fun i hi => by rw [hold i hi], ih, List.getElem?_concat_length,
      Option.elim_some, List.filter_append, List.map_append, List.sum_append]
    by_cases hkey : e.key = key <;> simp [hkey]

variable [IsOrderedRing K]

/-- What the objects of a key may grant together, when each keeps to its bound. -/
theorem total_grantsUnder_le (hbound : Bounds W count bound)
    (h : exec (clocked (step W)) ⟨t₀, empty⟩ acts = some s) :
    (total (clocked (step W)) (grantsUnder count key) ⟨t₀, empty⟩ acts : K) ≤
      ((s.inner.madeUnder key).map fun e => bound e.settings).sum := by
  rw [total_grantsUnder h, Nat.cast_sum, madeUnder, ← sum_madeUnder]
  refine Finset.sum_le_sum fun i hi => ?_
  have he := List.getElem?_eq_getElem (Finset.mem_range.mp hi)
  rw [he, Option.elim_some]
  split
  · exact grantsOf_le hbound (follows_of_run h) he (by assumption)
  · rw [grantsOf, he, Option.elim_some, if_neg (by assumption), Nat.cast_zero]

/-- As long as the same settings are asked for under a key, one object serves it. -/
theorem made_of_constant {settings : γ} (hfits : W.fits settings settings = true)
    (h : exec (clocked (step W)) ⟨t₀, empty⟩ acts = some s)
    (hall : ∀ want ∈ wants W key acts, want = settings) :
    s.inner.Sound ∧ ∀ i e, s.inner.made[i]? = some e → e.key = key →
      e.settings = settings ∧ s.inner.current key = some i := by
  refine exec_history (fun acts s => (∀ want ∈ wants W key acts, want = settings) →
    s.inner.Sound ∧ ∀ i e, s.inner.made[i]? = some e → e.key = key →
      e.settings = settings ∧ s.inner.current key = some i)
    (fun _ => ⟨sound_empty, fun i e he _ => by cases he⟩) ?_ h hall
  intro acts s a s' _ ih hs hall
  rw [wants_concat] at hall
  obtain ⟨hsound, hone⟩ := ih fun want hw => hall want (List.mem_append_left _ hw)
  obtain ⟨-, -, hstep⟩ := clocked_eq_some.mp hs
  refine ⟨hsound.step hstep, ?_⟩
  obtain ⟨now, act⟩ := a
  cases act with
  | use j act =>
    obtain ⟨d, inner, hd, -, hinner⟩ := step_use_eq_some.mp hstep
    have hj : j < s.inner.made.length := (List.getElem?_eq_some_iff.mp hd).1
    rw [← hinner]
    intro i e he hkey
    by_cases hij : j = i
    · subst hij
      rw [List.getElem?_set_self hj] at he
      cases he
      exact hone j d hd hkey
    · rw [List.getElem?_set_ne hij] at he
      exact hone i e he hkey
  | get name args =>
    have hinner : (s.inner.get W now name args).2 = s'.inner := Option.some.inj hstep
    rw [← hinner]
    rcases get_cases W s.inner now name args with ⟨j, -, heq⟩ | ⟨hnone, -, hmade, hcurrent⟩
    · rw [heq]
      exact hone
    · intro i e he hkey
      rw [hmade] at he
      rw [hcurrent]
      rcases Nat.lt_or_ge i s.inner.made.length with hlt | hge
      · rw [List.getElem?_append_left hlt] at he
        obtain ⟨hsettings, hi⟩ := hone i e he hkey
        -- an object of the key is there already, so `get` under this key would have found it
        have hname : key ≠ W.key name := by
          intro hname
          have hwant : W.normalize args = settings :=
            hall _ (List.mem_append_right _ (by simp [wanted, hname]))
          have hfound : s.inner.lookup W.fits (W.key name) (W.normalize args) = some i :=
            lookup_eq_some.mpr ⟨hname ▸ hi, e, he, by rw [hsettings, hwant, hfits]⟩
          rw [hfound] at hnone
          cases hnone
        exact ⟨hsettings, by rw [Function.update_of_ne hname]; exact hi⟩
      · rw [List.getElem?_append_right hge, List.getElem?_singleton] at he
        split at he
        · cases he
          have hi : i = s.inner.made.length := by omega
          subst hkey
          refine ⟨hall _ (List.mem_append_right _ (by simp [wanted])), ?_⟩
          rw [Function.update_self, hi]
        · cases he

omit [IsOrderedRing K] in
/-- What may be granted under a key when every call of `get` asks for the same settings. -/
theorem total_grantsUnder_le_of_constant {settings : γ} (hfits : W.fits settings settings = true)
    (hbound : Bounds W count bound) (hnonneg : 0 ≤ bound settings)
    (h : exec (clocked (step W)) ⟨t₀, empty⟩ acts = some s)
    (hall : ∀ want ∈ wants W key acts, want = settings) :
    (total (clocked (step W)) (grantsUnder count key) ⟨t₀, empty⟩ acts : K) ≤ bound settings := by
  obtain ⟨-, hone⟩ := made_of_constant hfits h hall
  rw [total_grantsUnder h]
  have hzero : ∀ i, (∀ e, s.inner.made[i]? = some e → e.key ≠ key) →
      grantsOf count key W acts s.inner i = 0 := by
    intro i hi
    rw [grantsOf]
    cases he : s.inner.made[i]? with
    | none => rfl
    | some e => simp [hi e he]
  by_cases hex : ∃ (i : ℕ) (e : Entry τ κ γ σ), s.inner.made[i]? = some e ∧ e.key = key
  · obtain ⟨i, e, he, hkey⟩ := hex
    obtain ⟨hsettings, hi⟩ := hone i e he hkey
    rw [Finset.sum_eq_single i]
    · exact hsettings ▸ grantsOf_le hbound (follows_of_run h) he hkey
    · intro j _ hji
      refine hzero j fun d hd hdkey => hji ?_
      exact Option.some.inj ((hone j d hd hdkey).2.symm.trans hi)
    · intro hout
      exact absurd (Finset.mem_range.mpr (List.getElem?_eq_some_iff.mp he).1) hout
  · rw [Finset.sum_eq_zero fun i _ => hzero i fun e he hkey => hex ⟨i, e, he, hkey⟩, Nat.cast_zero]
    exact hnonneg

end Grants

end Objects

end Registry

end ChainMonitor.ProofKit
