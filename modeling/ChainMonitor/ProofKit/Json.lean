import ChainMonitor.ProofKit.Attempt
import ChainMonitor.ProofKit.PyFloat
import Mathlib.Data.List.Basic

/-! What Python's `json.loads` returns, and how code reads it: `.get` with a default, `str`, and
`float`, each of which raises on some of the values. -/

namespace ChainMonitor.ProofKit

/-- A value that `json.loads` returns, with texts of type `σ`. Where a name stands twice in a list
of members, the last of them is the one that counts. -/
inductive JsonValue (σ : Type)
  | null
  | bool (b : Bool)
  | int (n : ℤ)
  | float (x : Float)
  | str (s : σ)
  | list (items : List (JsonValue σ))
  | dict (items : List (σ × JsonValue σ))

/-- A value whose texts have no surrogates. -/
abbrev Json := JsonValue String

/-- What Python knows of text beyond ASCII, by its Unicode tables, and `str` of a value that is not
text. -/
structure Text where
  lower : String → String
  upper : String → String
  isSpace : Char → Bool
  decimal : Char → Option ℕ
  repr : Json → String

namespace JsonValue

/-- The empty `dict`, which stands for a member that is left out. -/
def empty : Json := .dict []

def isDict : Json → Bool
  | .dict _ => true
  | _ => false

/-- `value == s` for a text `s`. -/
def isStr (s : String) : Json → Bool
  | .str t => t = s
  | _ => false

/-- `value.get(name, default)`, which only a `dict` has. -/
def get (value : Json) (name : String) (default : Json) : Except PyError Json :=
  match value with
  | .dict items => .ok (((items.reverse.find? fun item => item.1 = name).map Prod.snd).getD default)
  | _ => .error .attributeError

/-- `str(value)`. -/
def text (T : Text) : Json → String
  | .str s => s
  | value => T.repr value

section Numbers

variable {σ : Type}

/-- `float(value)`, where `read` is that of a text. -/
def toFloat (read : σ → Option Float) : JsonValue σ → Except PyError Float
  | .null | .list _ | .dict _ => .error .typeError
  | .bool b => .ok (if b then 1 else 0)
  | .int n => PyFloat.ofInt n
  | .float x => .ok x
  | .str s =>
    match read s with
    | some x => .ok x
    | none => .error .valueError

/-- `int(value)`, where `read` is that of a text. -/
def toInt (read : σ → Option ℤ) : JsonValue σ → Except PyError ℤ
  | .null | .list _ | .dict _ => .error .typeError
  | .bool b => .ok (if b then 1 else 0)
  | .int n => .ok n
  | .float x => PyFloat.toInt x
  | .str s =>
    match read s with
    | some n => .ok n
    | none => .error .valueError

end Numbers

end JsonValue

/-! ### The text of a number -/

namespace Text

variable (T : Text)

/-- Decimal digits and spaces of any script as those of ASCII. -/
def ascii (c : Char) : Char :=
  match T.decimal c with
  | some d => Char.ofNat ('0'.toNat + d)
  | none => if T.isSpace c then ' ' else c

def strip (cs : List Char) : List Char :=
  ((cs.dropWhile (· = ' ')).reverse.dropWhile (· = ' ')).reverse

/-- The characters without underscores, which stand only between two digits. `prev` is the character
before. -/
def dropUnderscores (prev : Char) : List Char → Option (List Char)
  | [] => if prev = '_' then none else some []
  | '_' :: cs => if prev.isDigit then dropUnderscores '_' cs else none
  | c :: cs =>
    if prev = '_' ∧ ¬c.isDigit then none else (dropUnderscores c cs).map (c :: ·)

def natOfDigits (cs : List Char) : ℕ := cs.foldl (fun n c => 10 * n + (c.toNat - '0'.toNat)) 0

/-- The sign in front, and the characters after it. -/
def sign : List Char → Bool × List Char
  | '-' :: cs => (true, cs)
  | '+' :: cs => (false, cs)
  | cs => (false, cs)

/-- The exponent, from its letter on. -/
def exponent : List Char → Option ℤ
  | [] => some 0
  | c :: cs =>
    let (negative, digits) := sign cs
    if (c = 'e' ∨ c = 'E') ∧ digits ≠ [] ∧ digits.all Char.isDigit then
      some (if negative then -natOfDigits digits else natOfDigits digits)
    else none

/-- The value of an unsigned number. -/
def magnitude (cs : List Char) : Option Float :=
  let word := cs.map Char.toLower
  if word = "inf".toList ∨ word = "infinity".toList then some (1.0 / 0.0)
  else if word = "nan".toList then some (0.0 / 0.0)
  else
    let whole := cs.takeWhile Char.isDigit
    let rest := cs.dropWhile Char.isDigit
    let (fraction, rest) :=
      match rest with
      | '.' :: ds => (ds.takeWhile Char.isDigit, ds.dropWhile Char.isDigit)
      | _ => ([], rest)
    if whole ++ fraction = [] then none
    else (exponent rest).map fun e => .ofModel
      (Float.Model.ofScientific (natOfDigits (whole ++ fraction)) (e - fraction.length))

/-- `float(text)`, or `none` where that raises a `ValueError`. -/
def float (text : String) : Option Float := do
  let cs ← dropUnderscores ' ' (strip (text.toList.map (ascii T)))
  let (negative, digits) := sign cs
  let x ← magnitude digits
  return if negative then -x else x

/-- `int(text)`, or `none` where that raises a `ValueError`: a text of more than 4300 digits is not
converted. -/
def int (text : String) : Option ℤ := do
  let cs ← dropUnderscores ' ' (strip (text.toList.map (ascii T)))
  let (negative, digits) := sign cs
  if digits ≠ [] ∧ digits.all Char.isDigit ∧ digits.length ≤ 4300 then
    return if negative then -natOfDigits digits else natOfDigits digits
  else none

end Text

/-- `try: return attempt` with `except (TypeError, ValueError): return default`. -/
def excepting {α : Type} (default : α) : Except PyError α → Except PyError α
  | .error .typeError | .error .valueError => .ok default
  | attempt => attempt

/-- Text of ASCII alone. -/
def Text.plain : Text where
  lower := String.toLower
  upper := String.toUpper
  isSpace := Char.isWhitespace
  decimal c := if c.isDigit then some (c.toNat - '0'.toNat) else none
  repr
    | .null => "None"
    | .bool b => if b then "True" else "False"
    | .int n => toString n
    | _ => ""

example : Text.plain.float " -1_2.5e1 " = some (-125) := by decide +kernel

example : Text.plain.int " -1_2 " = some (-12) := by decide +kernel

end ChainMonitor.ProofKit
