import ChainMonitor.Scanner.Detector
import Mathlib.Algebra.Order.Field.Rat
import Mathlib.Data.Set.Card

/-! `CooldownManager` of `scanner/cooldown.py`: when the cooldown of an address expires, and how
often the address has been marked. -/

namespace ChainMonitor.Cooldown

open ProofKit Detector

structure Config where
  cooldownHighSeconds : ℤ
  cooldownMediumSeconds : ℤ
  cooldownObserveSeconds : ℤ

/-- The defaults of `CooldownManager.__init__`. -/
def Config.default : Config := ⟨900, 1800, 300⟩

structure CooldownManager where
  cooldown : Dict String ℚ
  hitCounts : Dict String ℕ

def init : CooldownManager := ⟨Dict.empty, Dict.empty⟩

/-- When the cooldown of `address` expires, with the default of `is_cooling`. -/
def expires (m : CooldownManager) (address : String) : ℚ := (m.cooldown.get? address).getD 0

def isCooling (now : ℚ) (m : CooldownManager) (address : String) : Bool := expires m address > now

def hits (m : CooldownManager) (address : String) : ℕ := (m.hitCounts.get? address).getD 0

def decayFactor (m : CooldownManager) (address : String) : Float :=
  if 3 ≤ hits m address then 0.3 else if hits m address = 2 then 0.6 else 1.0

/-- The cooldown of a level. -/
def seconds (cfg : Config) : Level → ℤ
  | .high => cfg.cooldownHighSeconds
  | .observe => cfg.cooldownObserveSeconds
  | .medium => cfg.cooldownMediumSeconds

def mark (cfg : Config) (now : ℚ) (address : String) (level : Level) (m : CooldownManager) :
    CooldownManager where
  cooldown := m.cooldown.set address (now + seconds cfg level)
  hitCounts := m.hitCounts.set address (hits m address + 1)

def poolSize (now : ℚ) (m : CooldownManager) : ℕ :=
  (m.cooldown.rows.filter fun r => r.2 > now).length

variable {cfg : Config} {m m' : CooldownManager} {now : ℚ} {a b : String} {l : Level}

theorem expires_mark_self : expires (mark cfg now a l m) a = now + seconds cfg l := by
  simp [expires, mark]

theorem expires_mark_of_ne (h : b ≠ a) : expires (mark cfg now a l m) b = expires m b := by
  simp [expires, mark, Dict.get?_set_of_ne h]

theorem hits_mark : hits (mark cfg now a l m) b = if b = a then hits m a + 1 else hits m b := by
  unfold hits mark
  rw [Dict.get?_set]
  split
  · rfl
  · rfl

/-- An address that the manager does not know is not cooling from the epoch on. -/
theorem isCooling_iff (hnow : 0 ≤ now) :
    isCooling now m a ↔ ∃ t, (a, t) ∈ m.cooldown.rows ∧ now < t := by
  simp only [isCooling, expires, gt_iff_lt, decide_eq_true_eq]
  cases h : m.cooldown.get? a with
  | none =>
    simp only [Option.getD_none, not_lt.mpr hnow, false_iff, not_exists, not_and]
    intro t ht
    exact absurd ht (Dict.get?_eq_none.mp h t)
  | some e =>
    simp only [Option.getD_some]
    constructor
    · intro he
      exact ⟨e, Dict.get?_eq_some.mp h, he⟩
    · rintro ⟨t, ht, hlt⟩
      have het : e = t := Option.some_inj.mp (h.symm.trans (Dict.get?_eq_some.mpr ht))
      rwa [het]

theorem poolSize_eq_ncard (hnow : 0 ≤ now) (m : CooldownManager) :
    poolSize now m = {a | isCooling now m a = true}.ncard := by
  have hset : {a | isCooling now m a = true} =
      (((m.cooldown.rows.filter fun r => r.2 > now).map Prod.fst).toFinset : Set String) := by
    ext a
    simp only [Set.mem_ofPred_eq, isCooling_iff hnow, List.coe_toFinset, List.mem_map,
      List.mem_filter, decide_eq_true_eq]
    constructor
    · rintro ⟨t, ht, hlt⟩
      exact ⟨(a, t), ⟨ht, hlt⟩, rfl⟩
    · rintro ⟨⟨b, t⟩, ⟨ht, hlt⟩, rfl⟩
      exact ⟨t, ht, hlt⟩
  have hnodup : ((m.cooldown.rows.filter fun r => r.2 > now).map Prod.fst).Nodup :=
    m.cooldown.unique.sublist (List.filter_sublist.map Prod.fst)
  rw [hset, Set.ncard_coe_finset, List.toFinset_card_of_nodup hnodup, List.length_map, poolSize]

/-! ### Managers that agree on a set of addresses -/

variable {A : Set String}

/-- The managers hold the same expiry and the same count for each address of `A`. -/
def AgreeOn (A : Set String) (m m' : CooldownManager) : Prop :=
  ∀ a ∈ A, m.cooldown.get? a = m'.cooldown.get? a ∧ m.hitCounts.get? a = m'.hitCounts.get? a

theorem AgreeOn.refl (A : Set String) (m : CooldownManager) : AgreeOn A m m :=
  fun _ _ => ⟨rfl, rfl⟩

theorem AgreeOn.symm (h : AgreeOn A m m') : AgreeOn A m' m :=
  fun a ha => ⟨(h a ha).1.symm, (h a ha).2.symm⟩

theorem AgreeOn.isCooling (h : AgreeOn A m m') (ha : a ∈ A) :
    isCooling now m a = isCooling now m' a := by
  simp [Cooldown.isCooling, expires, (h a ha).1]

theorem AgreeOn.hits (h : AgreeOn A m m') (ha : a ∈ A) : hits m a = hits m' a := by
  simp [Cooldown.hits, (h a ha).2]

theorem AgreeOn.decayFactor (h : AgreeOn A m m') (ha : a ∈ A) :
    decayFactor m a = decayFactor m' a := by
  simp [Cooldown.decayFactor, h.hits ha]

theorem AgreeOn.mark (h : AgreeOn A m m') (ha : a ∈ A) :
    AgreeOn A (mark cfg now a l m) (mark cfg now a l m') := by
  intro b hb
  simp only [Cooldown.mark, Dict.get?_set, h.hits ha]
  split
  · exact ⟨rfl, rfl⟩
  · exact h b hb

/-- A mark outside of `A` changes nothing on `A`. -/
theorem AgreeOn.mark_left (h : AgreeOn A m m') (ha : a ∉ A) :
    AgreeOn A (Cooldown.mark cfg now a l m) m' := by
  intro b hb
  have hne : b ≠ a := fun he => ha (he ▸ hb)
  simp only [Cooldown.mark, Dict.get?_set_of_ne hne]
  exact h b hb

end ChainMonitor.Cooldown
