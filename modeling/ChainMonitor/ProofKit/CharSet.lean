import Mathlib.Data.List.Basic

/-! Character sets in the regular expressions of Python's `re` module: how a pattern `[...]` is
read, and `re.sub` with such a pattern. A backslash before a letter or a digit, which spells a class
or a character by its number, is left out. -/

namespace ChainMonitor.ProofKit

/-- `re.error`. -/
structure ReError where
  msg : String
  deriving DecidableEq, Repr

namespace CharSet

/-- A character of a pattern, or a backslash with the character after it. -/
inductive Token
  | plain (c : Char)
  | escaped (c : Char)
  deriving DecidableEq

def Token.text : Token → List Char
  | .plain c => [c]
  | .escaped c => ['\\', c]

def tokens : List Char → Except ReError (List Token)
  | [] => .ok []
  | '\\' :: c :: cs => (tokens cs).map (.escaped c :: ·)
  | ['\\'] => .error ⟨"bad escape (end of pattern)"⟩
  | c :: cs => (tokens cs).map (.plain c :: ·)

inductive Item
  | literal (c : Char)
  | range (lo hi : Char)
  deriving DecidableEq

/-- The character that a token stands for inside a set. -/
def char : Token → Except ReError Char
  | .plain c => .ok c
  | .escaped c =>
    if c.isAlphanum then .error ⟨String.ofList ("bad escape ".toList ++ (Token.escaped c).text)⟩
    else .ok c

/-- The range from one character to another, which must not come before it. -/
def rangeItem (this that : Token) (lo hi : Char) : Except ReError Item :=
  let bad := ⟨String.ofList ("bad character range ".toList ++ this.text ++ ['-'] ++ that.text)⟩
  if hi < lo then .error bad else .ok (.range lo hi)

/-- The items of a set up to its closing bracket, and the tokens after it. A bracket that comes
first is an item. -/
def readItems (acc : List Item) : List Token → Except ReError (List Item × List Token)
  | [] => .error ⟨"unterminated character set"⟩
  | this :: .plain '-' :: that :: rest =>
    if this = .plain ']' ∧ acc ≠ [] then .ok (acc, .plain '-' :: that :: rest)
    else do
      let lo ← char this
      if that = .plain ']' then return (acc ++ [.literal lo, .literal '-'], rest)
      let hi ← char that
      readItems (acc ++ [← rangeItem this that lo hi]) rest
  | this :: rest =>
    if this = .plain ']' ∧ acc ≠ [] then .ok (acc, rest)
    else do readItems (acc ++ [.literal (← char this)]) rest

end CharSet

/-- A set of characters. -/
structure CharSet where
  negate : Bool
  items : List CharSet.Item
  deriving DecidableEq

namespace CharSet

def Item.contains (c : Char) : Item → Bool
  | .literal a => c = a
  | .range lo hi => lo ≤ c ∧ c ≤ hi

def contains (set : CharSet) (c : Char) : Bool :=
  set.items.any (·.contains c) != set.negate

/-- The set that the tokens after its opening spell. -/
def readSet (negate : Bool) (rest : List Token) : Except ReError CharSet := do
  match ← readItems [] rest with
  | (found, []) => return ⟨negate, found⟩
  | _ => .error ⟨"not a character set"⟩

/-- `re.compile`, for a pattern that is one set. -/
def compile (pattern : String) : Except ReError CharSet := do
  match ← tokens pattern.toList with
  | .plain '[' :: .plain '^' :: rest => readSet true rest
  | .plain '[' :: rest => readSet false rest
  | _ => .error ⟨"not a character set"⟩

/-- `re.sub` with a pattern that is one set and a replacement of one character. The pattern is
compiled whatever the text is. -/
def sub (pattern : String) (replacement : Char) (text : List Char) :
    Except ReError (List Char) := do
  let set ← compile pattern
  return text.map fun c => if set.contains c then replacement else c

/-- A pattern that does not compile replaces nothing in any text. -/
theorem sub_eq_error {pattern : String} {e : ReError} (h : compile pattern = .error e)
    (replacement : Char) (text : List Char) : sub pattern replacement text = .error e := by
  simp only [sub, h]
  rfl

end CharSet

end ChainMonitor.ProofKit
