import Mathlib.Data.List.Basic
import Mathlib.Data.List.Chain

/-! Texts as Python has them, lists of code points that may be surrogates, and the UTF-16 code units
that stand for them in a JSON text. A surrogate that stands alone is kept, and two that make up a
pair are read as one code point. -/

namespace ChainMonitor.ProofKit

@[ext] structure CodePoint where
  val : ℕ
  isLt : val < 0x110000
  deriving DecidableEq

structure CodeUnit where
  val : ℕ
  isLt : val < 0x10000
  deriving DecidableEq

/-- A Python `str`. -/
abbrev PyStr := List CodePoint

namespace Utf16

def IsHigh (n : ℕ) : Prop := 0xD800 ≤ n ∧ n < 0xDC00

def IsLow (n : ℕ) : Prop := 0xDC00 ≤ n ∧ n < 0xE000

instance (n : ℕ) : Decidable (IsHigh n) := by
  unfold IsHigh
  infer_instance

instance (n : ℕ) : Decidable (IsLow n) := by
  unfold IsLow
  infer_instance

def high (c : CodePoint) : CodeUnit :=
  ⟨0xD800 + (c.val - 0x10000) / 0x400, by have := c.isLt; omega⟩

def low (c : CodePoint) : CodeUnit := ⟨0xDC00 + (c.val - 0x10000) % 0x400, by omega⟩

def encodeOne (c : CodePoint) : List CodeUnit :=
  if h : c.val < 0x10000 then [⟨c.val, h⟩] else [high c, low c]

def encode (s : PyStr) : List CodeUnit := s.flatMap encodeOne

/-- The code point of a unit that is read alone. -/
def single (u : CodeUnit) : CodePoint := ⟨u.val, by have := u.isLt; omega⟩

/-- The code point of a pair of surrogates. -/
def combine (u v : CodeUnit) (h : IsHigh u.val ∧ IsLow v.val) : CodePoint :=
  ⟨0x10000 + (u.val - 0xD800) * 0x400 + (v.val - 0xDC00), by
    obtain ⟨⟨-, hu⟩, -, hv⟩ := h
    omega⟩

def decode : List CodeUnit → PyStr
  | [] => []
  | [u] => [single u]
  | u :: v :: rest =>
    if h : IsHigh u.val ∧ IsLow v.val then combine u v h :: decode rest
    else single u :: decode (v :: rest)

/-- No surrogate of the text is followed by one that it makes up a pair with. -/
def NoSplitPair (s : PyStr) : Prop :=
  List.IsChain (fun c d : CodePoint => ¬(IsHigh c.val ∧ IsLow d.val)) s

instance (s : PyStr) : Decidable (NoSplitPair s) := by
  unfold NoSplitPair
  infer_instance

variable {c d : CodePoint} {s : PyStr} {u v : CodeUnit} {units : List CodeUnit}

theorem encode_cons : encode (c :: s) = encodeOne c ++ encode s := List.flatMap_cons

theorem encode_small (h : c.val < 0x10000) : encode (c :: s) = ⟨c.val, h⟩ :: encode s := by
  rw [encode_cons, encodeOne, dif_pos h]
  rfl

theorem encode_large (h : 0x10000 ≤ c.val) : encode (c :: s) = high c :: low c :: encode s := by
  rw [encode_cons, encodeOne, dif_neg (not_lt.mpr h)]
  rfl

theorem decode_pair (h : IsHigh u.val ∧ IsLow v.val) :
    decode (u :: v :: units) = combine u v h :: decode units := dif_pos h

theorem decode_cons (h : ¬(IsHigh u.val ∧ IsLow v.val)) :
    decode (u :: v :: units) = single u :: decode (v :: units) := dif_neg h

@[simp] theorem high_val (c : CodePoint) :
    (high c).val = 0xD800 + (c.val - 0x10000) / 0x400 := rfl

@[simp] theorem low_val (c : CodePoint) : (low c).val = 0xDC00 + (c.val - 0x10000) % 0x400 := rfl

@[simp] theorem combine_val (h : IsHigh u.val ∧ IsLow v.val) :
    (combine u v h).val = 0x10000 + (u.val - 0xD800) * 0x400 + (v.val - 0xDC00) := rfl

theorem isHigh_high (c : CodePoint) : IsHigh (high c).val := by
  have := c.isLt
  rw [IsHigh, high_val]
  omega

theorem isLow_low (c : CodePoint) : IsLow (low c).val := by
  rw [IsLow, low_val]
  omega

theorem combine_high_low (h : 0x10000 ≤ c.val) :
    combine (high c) (low c) ⟨isHigh_high c, isLow_low c⟩ = c := by
  apply CodePoint.ext
  rw [combine_val, high_val, low_val]
  omega

/-- A code point beyond the first plane is written as a pair, and read back. -/
theorem decode_encode_large (h : 0x10000 ≤ c.val) :
    decode (encode (c :: s)) = c :: decode (encode s) := by
  rw [encode_large h, decode_pair ⟨isHigh_high c, isLow_low c⟩, combine_high_low h]

/-- The units of a text begin with a low surrogate if the text does. -/
theorem isLow_of_encode (h : encode (d :: s) = u :: units) : IsLow u.val ↔ IsLow d.val := by
  rcases lt_or_ge d.val 0x10000 with hd | hd
  · rw [encode_small hd] at h
    cases h
    rfl
  · rw [encode_large hd] at h
    cases h
    have hhigh := isHigh_high d
    unfold IsHigh at hhigh
    unfold IsLow
    omega

/-- A unit that begins no pair stands for itself. -/
theorem decode_encode_cons (h : ∀ d ∈ s.head?, ¬(IsHigh c.val ∧ IsLow d.val)) :
    decode (encode (c :: s)) = c :: decode (encode s) := by
  rcases lt_or_ge c.val 0x10000 with hc | hc
  · rw [encode_small hc]
    cases hs : encode s with
    | nil => rfl
    | cons u units =>
      refine decode_cons ?_
      cases s with
      | nil => cases hs
      | cons d s =>
        rw [isLow_of_encode hs]
        exact h d rfl
  · exact decode_encode_large hc

/-- Two surrogates that make up a pair are read as one code point, which is neither. -/
theorem decode_encode_split (s : PyStr) (h : IsHigh c.val ∧ IsLow d.val) :
    ∃ e : CodePoint, e ≠ c ∧ decode (encode (c :: d :: s)) = e :: decode (encode s) := by
  have hc : c.val < 0x10000 := by
    obtain ⟨⟨-, hc⟩, -⟩ := h
    omega
  have hd : d.val < 0x10000 := by
    obtain ⟨-, -, hd⟩ := h
    omega
  refine ⟨combine ⟨c.val, hc⟩ ⟨d.val, hd⟩ h, ?_, ?_⟩
  · intro he
    have hval := congrArg CodePoint.val he
    rw [combine_val] at hval
    omega
  · rw [encode_small hc, encode_small hd]
    exact decode_pair h

/-- The texts that come back from UTF-16 as they were. -/
theorem decode_encode_iff : decode (encode s) = s ↔ NoSplitPair s := by
  unfold NoSplitPair
  induction s with
  | nil => simp [encode, decode]
  | cons c s ih =>
    rw [List.isChain_cons]
    by_cases h : ∀ d ∈ s.head?, ¬(IsHigh c.val ∧ IsLow d.val)
    · rw [decode_encode_cons h, List.cons.injEq, and_iff_right rfl, ih, and_iff_right h]
    · have hnot : decode (encode (c :: s)) ≠ c :: s := by
        push Not at h
        obtain ⟨d, hd, hpair⟩ := h
        obtain ⟨rest, rfl⟩ : ∃ rest, s = d :: rest := List.head?_eq_some_iff.mp hd
        obtain ⟨e, hne, he⟩ := decode_encode_split rest hpair
        rw [he]
        intro heq
        exact hne (List.cons.inj heq).1
      exact ⟨fun he => absurd he hnot, fun hchain => absurd hchain.1 h⟩

end Utf16

end ChainMonitor.ProofKit
