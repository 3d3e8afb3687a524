import ChainMonitor.ProofKit.Dict

/-! Registries that create an object for a key when it is first asked for, and then give the same
object again. An object is known by its number in the order of creation. -/

namespace ChainMonitor.ProofKit

variable {κ : Type*} [DecidableEq κ]

/-- The objects by their keys. No two keys have one object, and later objects have greater
numbers. -/
structure Pool (κ : Type*) [DecidableEq κ] where
  entries : Dict κ ℕ
  created : ℕ
  lt_created : ∀ k n, entries.get? k = some n → n < created
  injective : ∀ j k n, entries.get? j = some n → entries.get? k = some n → j = k

namespace Pool

def empty : Pool κ := ⟨Dict.empty, 0, by simp, by simp⟩

/-- The registry after the object of `k` has been created. -/
def create (P : Pool κ) (k : κ) : Pool κ where
  entries := P.entries.set k P.created
  created := P.created + 1
  lt_created j n h := by
    rw [Dict.get?_set] at h
    split at h
    · cases h
      omega
    · have := P.lt_created j n h
      omega
  injective i j n hi hj := by
    rw [Dict.get?_set] at hi hj
    split at hi
    · rename_i hik
      cases hi
      split at hj
      · rename_i hjk
        rw [hik, hjk]
      · exact absurd (P.lt_created j _ hj) (Nat.lt_irrefl _)
    · split at hj
      · cases hj
        exact absurd (P.lt_created i _ hi) (Nat.lt_irrefl _)
      · exact P.injective i j n hi hj

/-- The object of `k`, which is created if there is none. -/
def getOrCreate (P : Pool κ) (k : κ) : ℕ × Pool κ :=
  match P.entries.get? k with
  | some n => (n, P)
  | none => (P.created, P.create k)

variable {P : Pool κ} {j k : κ} {n : ℕ}

/-- The registry keeps the object that it gives. -/
theorem get?_getOrCreate_self (P : Pool κ) (k : κ) :
    (P.getOrCreate k).2.entries.get? k = some (P.getOrCreate k).1 := by
  unfold getOrCreate
  cases h : P.entries.get? k with
  | some n => exact h
  | none => exact Dict.get?_set_self

/-- The registry keeps the objects that it has given. -/
theorem get?_getOrCreate_of_some (h : P.entries.get? j = some n) (k : κ) :
    (P.getOrCreate k).2.entries.get? j = some n := by
  unfold getOrCreate
  cases hk : P.entries.get? k with
  | some m => exact h
  | none =>
    have hne : j ≠ k := by
      rintro rfl
      rw [h] at hk
      cases hk
    exact (Dict.get?_set_of_ne hne).trans h

/-- Objects of the registry are the same when their keys are. -/
theorem eq_iff {m : ℕ} (hj : P.entries.get? j = some m) (hk : P.entries.get? k = some n) :
    m = n ↔ j = k := by
  constructor
  · rintro rfl
    exact P.injective j k m hj hk
  · rintro rfl
    exact Option.some.inj (hj.symm.trans hk)

end Pool

end ChainMonitor.ProofKit
