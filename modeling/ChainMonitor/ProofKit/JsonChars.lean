import ChainMonitor.ProofKit.Dict
import ChainMonitor.ProofKit.Jsonb

/-! JSON texts as characters: what `json.dumps` writes, which is ASCII and has no line break, and a
reader that returns it. Numbers with a fraction or an exponent are left to a parameter by the writer
and refused by the reader. -/

namespace ChainMonitor.ProofKit.JsonChars

/-! ### Writing -/

/-- The four digits of `\uXXXX`. -/
def hex4 (n : ℕ) : List Char :=
  [Nat.digitChar (n / 4096), Nat.digitChar (n / 256 % 16), Nat.digitChar (n / 16 % 16),
    Nat.digitChar (n % 16)]

/-- The characters with an escape of their own, by the letter of the escape. -/
def shortEscapes : List (ℕ × Char) :=
  [(0x22, '"'), (0x5c, '\\'), (0x08, 'b'), (0x0c, 'f'), (0x0a, 'n'), (0x0d, 'r'), (0x09, 't')]

def escapeUnit (u : CodeUnit) : List Char :=
  match (shortEscapes.find? fun e => e.1 = u.val).map Prod.snd with
  | some letter => ['\\', letter]
  | none =>
    if 0x20 ≤ u.val ∧ u.val ≤ 0x7e then [Char.ofNat u.val] else '\\' :: 'u' :: hex4 u.val

def renderString (units : List CodeUnit) : List Char := '"' :: units.flatMap escapeUnit ++ ['"']

def renderInt (n : ℤ) : List Char :=
  if n < 0 then '-' :: Nat.toDigits 10 n.natAbs else Nat.toDigits 10 n.natAbs

section Render

variable (repr : Float → List Char)

mutual

def render : JsonText → List Char
  | .null => ['n', 'u', 'l', 'l']
  | .bool true => ['t', 'r', 'u', 'e']
  | .bool false => ['f', 'a', 'l', 's', 'e']
  | .int n => renderInt n
  | .number x => repr x
  | .nan => ['N', 'a', 'N']
  | .infinity true => ['-', 'I', 'n', 'f', 'i', 'n', 'i', 't', 'y']
  | .infinity false => ['I', 'n', 'f', 'i', 'n', 'i', 't', 'y']
  | .string units => renderString units
  | .array items => '[' :: renderItems items ++ [']']
  | .object members => '{' :: renderMembers members ++ ['}']

def renderItems : List JsonText → List Char
  | [] => []
  | [t] => render t
  | t :: u :: ts => render t ++ ',' :: ' ' :: renderItems (u :: ts)

def renderMembers : List (List CodeUnit × JsonText) → List Char
  | [] => []
  | [(k, t)] => renderString k ++ ':' :: ' ' :: render t
  | (k, t) :: m :: ms =>
    renderString k ++ ':' :: ' ' :: render t ++ ',' :: ' ' :: renderMembers (m :: ms)

end

end Render

/-! ### Reading -/

def isWs (c : Char) : Bool := c = ' ' || c = '\t' || c = '\n' || c = '\r'

def skipWs (cs : List Char) : List Char := cs.dropWhile isWs

def hexVal (c : Char) : Option ℕ :=
  if '0' ≤ c ∧ c ≤ '9' then some (c.toNat - 0x30)
  else if 'a' ≤ c ∧ c ≤ 'f' then some (c.toNat - 0x57)
  else if 'A' ≤ c ∧ c ≤ 'F' then some (c.toNat - 0x37)
  else none

/-- The code unit of four hexadecimal digits. -/
def unitOfHex (a b c d : Char) : Option CodeUnit := do
  let a ← hexVal a
  let b ← hexVal b
  let c ← hexVal c
  let d ← hexVal d
  let n := 4096 * a + 256 * b + 16 * c + d
  if h : n < 0x10000 then some ⟨n, h⟩ else none

/-- The code unit of an escape of one letter. -/
def unitOfLetter (letter : Char) : Option CodeUnit :=
  if letter = '/' then some ⟨0x2f, by decide⟩
  else (shortEscapes.find? fun e => e.2 = letter).bind fun e =>
    if h : e.1 < 0x10000 then some ⟨e.1, h⟩ else none

theorem toNat_lt (c : Char) : c.toNat < 0x110000 := by
  rcases c.valid with h | h
  · exact lt_of_lt_of_le h (by decide)
  · exact h.2

/-- The code units of a character that stands for itself. -/
def unitsOfChar (c : Char) : List CodeUnit := Utf16.encodeOne ⟨c.toNat, toNat_lt c⟩

/-- The rest of a string after its opening quote. -/
def parseString : List Char → Option (List CodeUnit × List Char)
  | [] => none
  | '"' :: rest => some ([], rest)
  | '\\' :: 'u' :: a :: b :: c :: d :: rest =>
    (unitOfHex a b c d).bind fun u => (parseString rest).map fun r => (u :: r.1, r.2)
  | '\\' :: letter :: rest =>
    (unitOfLetter letter).bind fun u => (parseString rest).map fun r => (u :: r.1, r.2)
  | c :: rest =>
    if c.toNat < 0x20 then none
    else (parseString rest).map fun r => (unitsOfChar c ++ r.1, r.2)

/-- A number without a sign: no digit follows a leading zero. -/
def parseNat (cs : List Char) : Option (ℕ × List Char) :=
  let digits := if cs.head? = some '0' then ['0'] else cs.takeWhile Char.isDigit
  let rest := cs.drop digits.length
  if digits = [] ∨ rest.head? ∈ [some '.', some 'e', some 'E'] then none
  else some (Nat.ofDigitChars 10 digits 0, rest)

def parseInt (cs : List Char) : Option (JsonText × List Char) :=
  if cs.head? = some '-' then (parseNat cs.tail).map fun r => (.int (-r.1), r.2)
  else (parseNat cs).map fun r => (.int r.1, r.2)

def words : List (List Char × JsonText) :=
  [(['n', 'u', 'l', 'l'], .null), (['t', 'r', 'u', 'e'], .bool true),
    (['f', 'a', 'l', 's', 'e'], .bool false), (['N', 'a', 'N'], .nan),
    (['I', 'n', 'f', 'i', 'n', 'i', 't', 'y'], .infinity false),
    (['-', 'I', 'n', 'f', 'i', 'n', 'i', 't', 'y'], .infinity true)]

/-- A value that is no string, array or object. -/
def parseWord (cs : List Char) : Option (JsonText × List Char) :=
  match words.find? fun w => w.1.isPrefixOf cs with
  | some w => some (w.2, cs.drop w.1.length)
  | none => parseInt cs

mutual

/-- The value that the text begins with, and the rest of the text. -/
def parseValue : ℕ → List Char → Option (JsonText × List Char)
  | 0, _ => none
  | _ + 1, [] => none
  | fuel + 1, c :: rest =>
    if c = '"' then (parseString rest).map fun r => (.string r.1, r.2)
    else if c = '[' then
      if (skipWs rest).head? = some ']' then some (.array [], (skipWs rest).tail)
      else (parseItems fuel (skipWs rest)).map fun r => (.array r.1, r.2)
    else if c = '{' then
      if (skipWs rest).head? = some '}' then some (.object [], (skipWs rest).tail)
      else (parseMembers fuel (skipWs rest)).map fun r => (.object r.1, r.2)
    else parseWord (c :: rest)

def parseItems : ℕ → List Char → Option (List JsonText × List Char)
  | 0, _ => none
  | fuel + 1, cs =>
    (parseValue fuel cs).bind fun r =>
      match skipWs r.2 with
      | ',' :: rest => (parseItems fuel (skipWs rest)).map fun s => (r.1 :: s.1, s.2)
      | ']' :: rest => some ([r.1], rest)
      | _ => none

def parseMembers : ℕ → List Char → Option (List (List CodeUnit × JsonText) × List Char)
  | 0, _ => none
  | fuel + 1, cs =>
    match cs with
    | '"' :: rest =>
      (parseString rest).bind fun k =>
        match skipWs k.2 with
        | ':' :: rest =>
          (parseValue fuel (skipWs rest)).bind fun r =>
            match skipWs r.2 with
            | ',' :: rest =>
              (parseMembers fuel (skipWs rest)).map fun s => ((k.1, r.1) :: s.1, s.2)
            | '}' :: rest => some ([(k.1, r.1)], rest)
            | _ => none
        | _ => none
    | _ => none

end

/-- The JSON text that these characters are. The members of an object are those of the text, in
order. -/
def parse (cs : List Char) : Option JsonText :=
  match parseValue (cs.length + 1) (skipWs cs) with
  | some (t, rest) => if skipWs rest = [] then some t else none
  | none => none

/-! ### Strings -/

theorem hexVal_digitChar : ∀ n, n < 16 → hexVal (Nat.digitChar n) = some n := by decide

theorem unitOfHex_hex4 (u : CodeUnit) :
    unitOfHex (Nat.digitChar (u.val / 4096)) (Nat.digitChar (u.val / 256 % 16))
      (Nat.digitChar (u.val / 16 % 16)) (Nat.digitChar (u.val % 16)) = some u := by
  have hlt := u.isLt
  have hn : 4096 * (u.val / 4096) + 256 * (u.val / 256 % 16) + 16 * (u.val / 16 % 16) +
      u.val % 16 = u.val := by omega
  simp only [unitOfHex, hexVal_digitChar (u.val / 4096) (by omega),
    hexVal_digitChar (u.val / 256 % 16) (by omega), hexVal_digitChar (u.val / 16 % 16) (by omega),
    hexVal_digitChar (u.val % 16) (by omega), Option.bind_eq_bind, Option.bind_some, hn]
  exact dif_pos hlt

theorem toNat_ofNat : ∀ n, n < 0x7f → (Char.ofNat n).toNat = n := by decide

/-- A printable character of ASCII stands for its code. -/
theorem unitsOfChar_ofNat {u : CodeUnit} (h : u.val < 0x7f) :
    unitsOfChar (Char.ofNat u.val) = [u] := by
  simp only [unitsOfChar, Utf16.encodeOne, toNat_ofNat u.val h]
  rw [dif_pos u.isLt]

/-- What is read at a character that is neither a quote nor a backslash. -/
theorem parseString_char {c : Char} (hquote : c ≠ '"') (hslash : c ≠ '\\') (rest : List Char) :
    parseString (c :: rest) =
      if c.toNat < 0x20 then none
      else (parseString rest).map fun r => (unitsOfChar c ++ r.1, r.2) := by
  rw [parseString.eq_def]
  split <;> simp_all

theorem parseString_letter {letter : Char} (h : letter ≠ 'u') (rest : List Char) :
    parseString ('\\' :: letter :: rest) =
      (unitOfLetter letter).bind fun u => (parseString rest).map fun r => (u :: r.1, r.2) := by
  rw [parseString.eq_def]
  split <;> simp_all
  rename_i hnot heq
  exact absurd heq.2.symm (hnot _ _ heq.1.symm)

theorem unitOfLetter_shortEscapes : ∀ e ∈ shortEscapes,
    e.2 ≠ 'u' ∧ (unitOfLetter e.2).map CodeUnit.val = some e.1 := by
  decide

/-- A printable character without an escape of its own is no quote and no backslash. -/
theorem printable : ∀ n, n < 0x7f → 0x20 ≤ n → (shortEscapes.find? fun e => e.1 = n) = none →
    Char.ofNat n ≠ '"' ∧ Char.ofNat n ≠ '\\' := by
  decide

theorem CodeUnit.ext_val {u v : CodeUnit} (h : u.val = v.val) : u = v := by
  cases u
  cases v
  cases h
  rfl

/-- The escape of a code unit is read back. -/
theorem parseString_escapeUnit (u : CodeUnit) (rest : List Char) :
    parseString (escapeUnit u ++ rest) =
      (parseString rest).map fun r => (u :: r.1, r.2) := by
  unfold escapeUnit
  cases hfound : shortEscapes.find? fun e => e.1 = u.val with
  | some e =>
    obtain ⟨hletter, hunit⟩ := unitOfLetter_shortEscapes e (List.mem_of_find?_eq_some hfound)
    obtain ⟨v, hv, hval⟩ := Option.map_eq_some_iff.mp hunit
    have he : e.1 = u.val := by simpa using List.find?_some hfound
    obtain rfl : v = u := CodeUnit.ext_val (hval.trans he)
    show parseString ('\\' :: e.2 :: rest) = _
    rw [parseString_letter hletter, hv]
    rfl
  | none =>
    dsimp only [Option.map_none]
    split
    · rename_i hascii
      obtain ⟨hquote, hslash⟩ := printable u.val (by omega) hascii.1 hfound
      have hn := toNat_ofNat u.val (by omega)
      show parseString (Char.ofNat u.val :: rest) = _
      rw [parseString_char hquote hslash, hn, if_neg (by omega), unitsOfChar_ofNat (by omega)]
      rfl
    · show parseString ('\\' :: 'u' :: Nat.digitChar (u.val / 4096) ::
        Nat.digitChar (u.val / 256 % 16) :: Nat.digitChar (u.val / 16 % 16) ::
        Nat.digitChar (u.val % 16) :: rest) = _
      rw [parseString, unitOfHex_hex4]
      rfl

theorem parseString_flatMap (units : List CodeUnit) (rest : List Char) :
    parseString (units.flatMap escapeUnit ++ '"' :: rest) = some (units, rest) := by
  induction units with
  | nil => rfl
  | cons u units ih =>
    rw [List.flatMap_cons, List.append_assoc, parseString_escapeUnit, ih]
    rfl

/-! ### Numbers and words -/

/-- What comes after a value: nothing, a comma or a closing bracket. -/
def Follows (rest : List Char) : Prop := ∀ c ∈ rest.head?, c = ',' ∨ c = ']' ∨ c = '}'

theorem follows_cons {c : Char} {rest : List Char} (h : c = ',' ∨ c = ']' ∨ c = '}') :
    Follows (c :: rest) := by
  intro d hd
  obtain rfl : c = d := Option.some_inj.mp hd
  exact h

/-- Of the digits of a number only those of zero begin with a zero. -/
theorem head_toDigits {n : ℕ} (hn : n ≠ 0) : (Nat.toDigits 10 n).head? ≠ some '0' := by
  induction n using Nat.strongRecOn with
  | ind n ih =>
    rcases lt_or_ge n 10 with hlt | hge
    · rw [Nat.toDigits_of_lt_base hlt]
      simpa using hn
    · rw [Nat.toDigits_of_base_le (by decide) hge, List.head?_append]
      have hdiv := ih (n / 10) (by omega) (by omega)
      cases hds : (Nat.toDigits 10 (n / 10)).head? with
      | none => exact absurd (List.head?_eq_none_iff.mp hds) Nat.toDigits_ne_nil
      | some d => simpa [hds] using hdiv

theorem takeWhile_digits {ds rest : List Char} (hds : ∀ c ∈ ds, c.isDigit)
    (hrest : Follows rest) : (ds ++ rest).takeWhile Char.isDigit = ds := by
  have hstop : rest.takeWhile Char.isDigit = [] := by
    cases rest with
    | nil => rfl
    | cons c rest => rcases hrest c rfl with rfl | rfl | rfl <;> rfl
  rw [List.takeWhile_append_of_pos hds, hstop, List.append_nil]

theorem parseNat_toDigits (n : ℕ) {rest : List Char} (hrest : Follows rest) :
    parseNat (Nat.toDigits 10 n ++ rest) = some (n, rest) := by
  have hdigits : ∀ c ∈ Nat.toDigits 10 n, c.isDigit :=
    fun c hc => Nat.isDigit_of_mem_toDigits (by decide) (by decide) hc
  have hhead : ((Nat.toDigits 10 n ++ rest).head? = some '0') ↔ n = 0 := by
    rw [List.head?_append_of_ne_nil _ Nat.toDigits_ne_nil]
    constructor
    · intro h
      by_contra hn
      exact head_toDigits hn h
    · rintro rfl
      rfl
  have hread : (if (Nat.toDigits 10 n ++ rest).head? = some '0' then ['0']
      else (Nat.toDigits 10 n ++ rest).takeWhile Char.isDigit) = Nat.toDigits 10 n := by
    rw [takeWhile_digits hdigits hrest]
    split
    · rename_i hzero
      obtain rfl := hhead.mp hzero
      rfl
    · rfl
  have hstop : rest.head? ∉ [some '.', some 'e', some 'E'] := by
    cases rest with
    | nil => simp
    | cons c rest => rcases hrest c rfl with rfl | rfl | rfl <;> simp
  unfold parseNat
  dsimp only
  rw [hread, List.drop_left, if_neg (by simp [hstop, Nat.toDigits_ne_nil]),
    Nat.ofDigitChars_ten_toDigits]

/-- The first character of a number is a sign or a digit. -/
theorem renderInt_cons (n : ℤ) : ∃ c cs, renderInt n = c :: cs ∧
    ((c = '-' ∧ ∃ d ds, cs = d :: ds ∧ d.isDigit) ∨ c.isDigit) := by
  have hdigits : ∀ m : ℕ, ∃ d ds, Nat.toDigits 10 m = d :: ds ∧ d.isDigit := by
    intro m
    cases h : Nat.toDigits 10 m with
    | nil => exact absurd h Nat.toDigits_ne_nil
    | cons d ds =>
      exact ⟨d, ds, rfl, Nat.isDigit_of_mem_toDigits (b := 10) (n := m) (by decide) (by decide)
        (by simp [h])⟩
  obtain ⟨d, ds, hd, hdigit⟩ := hdigits n.natAbs
  unfold renderInt
  split
  · exact ⟨'-', d :: ds, by rw [hd], .inl ⟨rfl, d, ds, rfl, hdigit⟩⟩
  · exact ⟨d, ds, hd, .inr hdigit⟩

theorem parseInt_renderInt (n : ℤ) {rest : List Char} (hrest : Follows rest) :
    parseInt (renderInt n ++ rest) = some (.int n, rest) := by
  have hnat := parseNat_toDigits n.natAbs hrest
  unfold renderInt
  split
  · rename_i hneg
    have hn : -(n.natAbs : ℤ) = n := by omega
    rw [parseInt, if_pos (by rfl)]
    show (parseNat (Nat.toDigits 10 n.natAbs ++ rest)).map _ = _
    rw [hnat, Option.map_some, hn]
  · rename_i hpos
    have hn : (n.natAbs : ℤ) = n := by omega
    have hhead : (Nat.toDigits 10 n.natAbs ++ rest).head? ≠ some '-' := by
      cases h : Nat.toDigits 10 n.natAbs with
      | nil => exact absurd h Nat.toDigits_ne_nil
      | cons d ds =>
        have hdigit : d.isDigit := Nat.isDigit_of_mem_toDigits (b := 10) (n := n.natAbs)
          (by decide) (by decide) (by simp [h])
        rintro ⟨⟩
        exact absurd hdigit (by decide)
    rw [parseInt, if_neg hhead, hnat, Option.map_some, hn]

theorem find?_words_renderInt (n : ℤ) (rest : List Char) :
    (words.find? fun w => w.1.isPrefixOf (renderInt n ++ rest)) = none := by
  obtain ⟨c, cs, hcs, hc⟩ := renderInt_cons n
  rw [hcs]
  rcases hc with ⟨rfl, d, ds, rfl, hd⟩ | hc
  · have hne : 'I' ≠ d := by
      rintro rfl
      exact absurd hd (by decide)
    simp [words, hne]
  · have hne : ∀ w : Char, w.isDigit = false → w ≠ c := by
      rintro w hw rfl
      exact absurd hc (by simp [hw])
    simp [words, hne 'n' rfl, hne 't' rfl, hne 'f' rfl, hne 'N' rfl, hne 'I' rfl, hne '-' rfl]

/-! ### Values -/

mutual

/-- The text has no number with a fraction or an exponent. -/
def Whole : JsonText → Prop
  | .null | .bool _ | .int _ | .nan | .infinity _ | .string _ => True
  | .number _ => False
  | .array items => WholeItems items
  | .object members => WholeMembers members

def WholeItems : List JsonText → Prop
  | [] => True
  | t :: ts => Whole t ∧ WholeItems ts

def WholeMembers : List (List CodeUnit × JsonText) → Prop
  | [] => True
  | (_, t) :: members => Whole t ∧ WholeMembers members

end

variable {repr : Float → List Char}

variable (repr) in
/-- A value begins with no blank and no closing bracket. -/
theorem render_cons {t : JsonText} (h : Whole t) :
    ∃ c cs, render repr t = c :: cs ∧ isWs c = false ∧ c ≠ ']' := by
  cases t with
  | null => exact ⟨_, _, rfl, rfl, by decide⟩
  | bool b => cases b <;> exact ⟨_, _, rfl, rfl, by decide⟩
  | int n =>
    obtain ⟨c, cs, hcs, hc⟩ := renderInt_cons n
    refine ⟨c, cs, hcs, ?_⟩
    rcases hc with ⟨rfl, -⟩ | hc
    · exact ⟨rfl, by decide⟩
    · have hne : ∀ w : Char, w.isDigit = false → c ≠ w := by
        rintro w hw rfl
        exact absurd hc (by simp [hw])
      exact ⟨by simp [isWs, hne ' ' rfl, hne '\t' rfl, hne '\n' rfl, hne '\r' rfl], hne ']' rfl⟩
  | number x => exact h.elim
  | nan => exact ⟨_, _, rfl, rfl, by decide⟩
  | infinity b => cases b <;> exact ⟨_, _, rfl, rfl, by decide⟩
  | string units =>
    exact ⟨'"', units.flatMap escapeUnit ++ ['"'], by rw [render]; rfl, rfl, by decide⟩
  | array items => exact ⟨'[', renderItems repr items ++ [']'], by rw [render]; rfl, rfl, by decide⟩
  | object members =>
    exact ⟨'{', renderMembers repr members ++ ['}'], by rw [render]; rfl, rfl, by decide⟩

theorem skipWs_cons {c : Char} {cs : List Char} (h : isWs c = false) :
    skipWs (c :: cs) = c :: cs := by
  simp [skipWs, h]

theorem skipWs_render {t : JsonText} (h : Whole t) (rest : List Char) :
    skipWs (render repr t ++ rest) = render repr t ++ rest := by
  obtain ⟨c, cs, hcs, hws, -⟩ := render_cons repr h
  rw [hcs]
  exact skipWs_cons hws

theorem parseWord_renderInt (n : ℤ) {rest : List Char} (hrest : Follows rest) :
    parseWord (renderInt n ++ rest) = some (.int n, rest) := by
  rw [parseWord, find?_words_renderInt]
  exact parseInt_renderInt n hrest

/-- A number is read as one. -/
theorem parseValue_renderInt (fuel : ℕ) (n : ℤ) {rest : List Char} (hrest : Follows rest) :
    parseValue (fuel + 1) (renderInt n ++ rest) = some (.int n, rest) := by
  have hword := parseWord_renderInt n hrest
  obtain ⟨c, cs, hcs, hc⟩ := renderInt_cons n
  rw [hcs] at hword ⊢
  have hne : c ≠ '"' ∧ c ≠ '[' ∧ c ≠ '{' := by
    rcases hc with ⟨rfl, -⟩ | hc
    · decide
    · refine ⟨?_, ?_, ?_⟩ <;> (rintro rfl; exact absurd hc (by decide))
  rw [List.cons_append, parseValue, if_neg hne.1, if_neg hne.2.1, if_neg hne.2.2]
  exact hword

theorem parseString_renderString (units : List CodeUnit) (rest : List Char) :
    ∃ body, renderString units ++ rest = '"' :: body ∧ parseString body = some (units, rest) := by
  refine ⟨units.flatMap escapeUnit ++ '"' :: rest, ?_, parseString_flatMap units rest⟩
  simp [renderString]

variable (repr) in
/-- The items of an array begin with no blank and no closing bracket. -/
theorem renderItems_cons {items : List JsonText} (hne : items ≠ []) (h : WholeItems items)
    (rest : List Char) :
    ∃ c cs, renderItems repr items ++ rest = c :: cs ∧ isWs c = false ∧ c ≠ ']' := by
  match items with
  | [] => exact absurd rfl hne
  | [t] =>
    obtain ⟨c, cs, hcs, hc⟩ := render_cons repr h.1
    exact ⟨c, cs ++ rest, by rw [renderItems, hcs]; rfl, hc⟩
  | t :: u :: ts =>
    obtain ⟨c, cs, hcs, hc⟩ := render_cons repr h.1
    exact ⟨c, cs ++ ',' :: ' ' :: renderItems repr (u :: ts) ++ rest,
      by rw [renderItems, hcs]; simp, hc⟩

variable (repr) in
/-- The members of an object begin with a quote. -/
theorem renderMembers_cons {members : List (List CodeUnit × JsonText)} (hne : members ≠ [])
    (rest : List Char) : ∃ cs, renderMembers repr members ++ rest = '"' :: cs := by
  match members with
  | [] => exact absurd rfl hne
  | [(k, t)] => exact ⟨_, by rw [renderMembers, renderString]; rfl⟩
  | (k, t) :: m :: ms => exact ⟨_, by rw [renderMembers, renderString]; rfl⟩

theorem skipWs_blank (cs : List Char) : skipWs (' ' :: cs) = skipWs cs := rfl

theorem skipWs_renderItems {items : List JsonText} (hne : items ≠ []) (h : WholeItems items)
    (rest : List Char) :
    skipWs (renderItems repr items ++ rest) = renderItems repr items ++ rest := by
  obtain ⟨c, cs, hcs, hws, -⟩ := renderItems_cons repr hne h rest
  rw [hcs, skipWs_cons hws]

theorem skipWs_renderMembers {members : List (List CodeUnit × JsonText)} (hne : members ≠ [])
    (rest : List Char) :
    skipWs (renderMembers repr members ++ rest) = renderMembers repr members ++ rest := by
  obtain ⟨cs, hcs⟩ := renderMembers_cons repr hne rest
  rw [hcs, skipWs_cons rfl]

/-- A key and the colon after it. -/
theorem parseMembers_key (fuel : ℕ) (k : List CodeUnit) (rest : List Char) :
    parseMembers (fuel + 1) (renderString k ++ ':' :: ' ' :: rest) =
      (parseValue fuel (skipWs rest)).bind fun r =>
        match skipWs r.2 with
        | ',' :: rest =>
          (parseMembers fuel (skipWs rest)).map fun s => ((k, r.1) :: s.1, s.2)
        | '}' :: rest => some ([(k, r.1)], rest)
        | _ => none := by
  obtain ⟨body, hbody, hread⟩ := parseString_renderString k (':' :: ' ' :: rest)
  rw [hbody, parseMembers, hread]
  rfl

mutual

/-- A value is read back, and what comes after it is left. -/
theorem parseValue_render (t : JsonText) (h : Whole t) {fuel : ℕ}
    (hfuel : (render repr t).length ≤ fuel) {rest : List Char} (hrest : Follows rest) :
    parseValue fuel (render repr t ++ rest) = some (t, rest) := by
  obtain ⟨fuel, rfl⟩ : ∃ k, fuel = k + 1 := by
    obtain ⟨c, cs, hcs, -, -⟩ := render_cons repr h
    rw [hcs, List.length_cons] at hfuel
    exact ⟨fuel - 1, by omega⟩
  cases t with
  | null => rfl
  | bool b => cases b <;> rfl
  | int n => exact parseValue_renderInt fuel n hrest
  | number x => exact h.elim
  | nan => rfl
  | infinity b => cases b <;> rfl
  | string units =>
    obtain ⟨body, hbody, hread⟩ := parseString_renderString units rest
    rw [render, hbody, parseValue, if_pos rfl, hread]
    rfl
  | array items =>
    cases items with
    | nil => rfl
    | cons t ts =>
      rw [render] at hfuel ⊢
      have hlen : (renderItems repr (t :: ts)).length < fuel := by
        simp at hfuel
        omega
      have hitems := parseItems_render (t :: ts) (by simp) h hlen rest
      obtain ⟨c, cs, hcs, hws, hc⟩ :=
        renderItems_cons repr (List.cons_ne_nil t ts) h (']' :: rest)
      rw [List.append_assoc, List.cons_append, List.singleton_append, hcs, parseValue,
        if_neg (by decide), if_pos rfl, skipWs_cons hws, if_neg (by simpa using hc), ← hcs, hitems]
      rfl
  | object members =>
    cases members with
    | nil => rfl
    | cons m ms =>
      rw [render] at hfuel ⊢
      have hlen : (renderMembers repr (m :: ms)).length < fuel := by
        simp at hfuel
        omega
      have hmembers := parseMembers_render (m :: ms) (by simp) h hlen rest
      obtain ⟨cs, hcs⟩ :=
        renderMembers_cons repr (List.cons_ne_nil m ms) ('}' :: rest)
      rw [List.append_assoc, List.cons_append, List.singleton_append, hcs, parseValue,
        if_neg (by decide), if_neg (by decide), if_pos rfl, skipWs_cons rfl, if_neg (by simp),
        ← hcs, hmembers]
      rfl

theorem parseItems_render (items : List JsonText) (hne : items ≠ []) (h : WholeItems items)
    {fuel : ℕ} (hfuel : (renderItems repr items).length < fuel) (rest : List Char) :
    parseItems fuel (renderItems repr items ++ ']' :: rest) = some (items, rest) := by
  obtain ⟨fuel, rfl⟩ : ∃ k, fuel = k + 1 := ⟨fuel - 1, by omega⟩
  match items with
  | [] => exact absurd rfl hne
  | [t] =>
    rw [renderItems] at hfuel ⊢
    rw [parseItems, parseValue_render t h.1 (by omega) (follows_cons (.inr (.inl rfl)))]
    rfl
  | t :: u :: ts =>
    rw [renderItems, List.length_append, List.length_cons, List.length_cons] at hfuel
    have hrest := parseItems_render (u :: ts) (by simp) h.2 (by omega : _ < fuel) rest
    rw [renderItems, List.append_assoc, List.cons_append, List.cons_append, parseItems,
      parseValue_render t h.1 (by omega) (follows_cons (.inl rfl)), Option.bind_some]
    show (parseItems fuel (skipWs (' ' :: (renderItems repr (u :: ts) ++ ']' :: rest)))).map _ = _
    rw [skipWs_blank, skipWs_renderItems (by simp) h.2, hrest]
    rfl

theorem parseMembers_render (members : List (List CodeUnit × JsonText)) (hne : members ≠ [])
    (h : WholeMembers members) {fuel : ℕ} (hfuel : (renderMembers repr members).length < fuel)
    (rest : List Char) :
    parseMembers fuel (renderMembers repr members ++ '}' :: rest) = some (members, rest) := by
  obtain ⟨fuel, rfl⟩ : ∃ k, fuel = k + 1 := ⟨fuel - 1, by omega⟩
  match members with
  | [] => exact absurd rfl hne
  | [(k, t)] =>
    rw [renderMembers, List.length_append, List.length_cons, List.length_cons] at hfuel
    rw [renderMembers, List.append_assoc, List.cons_append, List.cons_append, parseMembers_key,
      skipWs_render h.1, parseValue_render t h.1 (by omega) (follows_cons (.inr (.inr rfl)))]
    rfl
  | (k, t) :: m :: ms =>
    rw [renderMembers] at hfuel ⊢
    simp only [List.append_assoc, List.cons_append, List.length_append, List.length_cons]
      at hfuel ⊢
    have hrest := parseMembers_render (m :: ms) (by simp) h.2 (by omega : _ < fuel) rest
    rw [parseMembers_key, skipWs_render h.1,
      parseValue_render t h.1 (by omega) (follows_cons (.inl rfl)), Option.bind_some]
    show (parseMembers fuel (skipWs (' ' :: (renderMembers repr (m :: ms) ++
      '}' :: rest)))).map _ = _
    rw [skipWs_blank, skipWs_renderMembers (by simp), hrest]
    rfl

end

/-- What is written is read back. -/
theorem parse_render {t : JsonText} (h : Whole t) : parse (render repr t) = some t := by
  have hread : parseValue ((render repr t).length + 1) (render repr t ++ []) = some (t, []) :=
    parseValue_render t h (by omega) (by simp [Follows])
  have hskip : skipWs (render repr t ++ []) = render repr t ++ [] := skipWs_render h []
  rw [List.append_nil] at hread hskip
  rw [parse, hskip, hread]
  rfl

/-! ### Lines -/

/-- The lines of a text, as a file gives them. -/
def lines : List Char → List (List Char)
  | [] => []
  | c :: cs =>
    if c = '\n' then [] :: lines cs
    else match lines cs with
      | [] => [[c]]
      | l :: ls => (c :: l) :: ls

theorem lines_append {l : List Char} (h : '\n' ∉ l) (rest : List Char) :
    lines (l ++ '\n' :: rest) = l :: lines rest := by
  induction l with
  | nil => simp [lines]
  | cons c l ih =>
    obtain ⟨hc, hl⟩ := not_or.mp (mt List.mem_cons.mpr h)
    rw [List.cons_append, lines, if_neg (Ne.symm hc), ih hl]

theorem lines_flatMap {ls : List (List Char)} (h : ∀ l ∈ ls, '\n' ∉ l) :
    lines (ls.flatMap fun l => l ++ ['\n']) = ls := by
  induction ls with
  | nil => rfl
  | cons l ls ih =>
    obtain ⟨hl, hls⟩ := List.forall_mem_cons.mp h
    rw [List.flatMap_cons, List.append_assoc, List.singleton_append, lines_append hl, ih hls]

theorem newline_notMem_hex4 (n : ℕ) : '\n' ∉ hex4 n := by
  have hdigit : ∀ d, Nat.digitChar d ≠ '\n' := fun d => Nat.digitChar_ne '\n' (by decide)
  simp [hex4, fun d => (hdigit d).symm]

theorem newline_notMem_escapeUnit (u : CodeUnit) : '\n' ∉ escapeUnit u := by
  have hletters : ∀ e ∈ shortEscapes, e.2 ≠ '\n' := by decide
  have hascii : ∀ n, n < 0x7f → 0x20 ≤ n → Char.ofNat n ≠ '\n' := by decide
  unfold escapeUnit
  cases hfound : shortEscapes.find? fun e => e.1 = u.val with
  | some e =>
    have hletter := hletters e (List.mem_of_find?_eq_some hfound)
    simp [hletter.symm]
  | none =>
    dsimp only [Option.map_none]
    split
    · have hchar := hascii u.val (by omega) (by omega)
      simpa using hchar.symm
    · simpa using newline_notMem_hex4 u.val

theorem newline_notMem_renderString (units : List CodeUnit) : '\n' ∉ renderString units := by
  simp [renderString, newline_notMem_escapeUnit]

theorem newline_notMem_renderInt (n : ℤ) : '\n' ∉ renderInt n := by
  have hdigits : '\n' ∉ Nat.toDigits 10 n.natAbs := fun hmem =>
    absurd (Nat.isDigit_of_mem_toDigits (by decide) (by decide) hmem) (by decide)
  unfold renderInt
  split
  · simpa using hdigits
  · exact hdigits

mutual

/-- A text is written on one line. -/
theorem newline_notMem_render (t : JsonText) (h : Whole t) : '\n' ∉ render repr t := by
  cases t with
  | null => simp [render]
  | bool b => cases b <;> simp [render]
  | int n => exact newline_notMem_renderInt n
  | number x => exact h.elim
  | nan => simp [render]
  | infinity b => cases b <;> simp [render]
  | string units => exact newline_notMem_renderString units
  | array items => simp [render, newline_notMem_renderItems items h]
  | object members => simp [render, newline_notMem_renderMembers members h]

theorem newline_notMem_renderItems (items : List JsonText) (h : WholeItems items) :
    '\n' ∉ renderItems repr items := by
  match items with
  | [] => simp [renderItems]
  | [t] => exact newline_notMem_render t h.1
  | t :: u :: ts =>
    simp [renderItems, newline_notMem_render t h.1, newline_notMem_renderItems (u :: ts) h.2]

theorem newline_notMem_renderMembers (members : List (List CodeUnit × JsonText))
    (h : WholeMembers members) : '\n' ∉ renderMembers repr members := by
  match members with
  | [] => simp [renderMembers]
  | [(k, t)] =>
    simp [renderMembers, newline_notMem_renderString k, newline_notMem_render t h.1]
  | (k, t) :: m :: ms =>
    simp [renderMembers, newline_notMem_renderString k, newline_notMem_render t h.1,
      newline_notMem_renderMembers (m :: ms) h.2]

end

/-! ### Python values -/

mutual

/-- What `json.loads` makes of a JSON text. -/
def loads : JsonText → PyValue
  | .null => .null
  | .bool b => .bool b
  | .int n => .int n
  | .number x => .float x
  | .nan => .float (0 / 0)
  | .infinity negative => .float (if negative then -1 / 0 else 1 / 0)
  | .string units => .str (Utf16.decode units)
  | .array items => .list (loadsItems items)
  | .object members => .dict (Dict.ofPairs (loadsMembers members)).rows

def loadsItems : List JsonText → List PyValue
  | [] => []
  | t :: ts => loads t :: loadsItems ts

def loadsMembers : List (List CodeUnit × JsonText) → List (PyStr × PyValue)
  | [] => []
  | (k, t) :: members => (Utf16.decode k, loads t) :: loadsMembers members

end

mutual

/-- The value has no floats, no text with a surrogate that is followed by one that it makes up a
pair with, and no dict in which a key stands twice. -/
def Plain : PyValue → Prop
  | .null | .bool _ | .int _ => True
  | .float _ => False
  | .str s => Utf16.NoSplitPair s
  | .list items => PlainList items
  | .dict items => PlainItems items ∧ (items.map Prod.fst).Nodup

def PlainList : List PyValue → Prop
  | [] => True
  | v :: vs => Plain v ∧ PlainList vs

def PlainItems : List (PyStr × PyValue) → Prop
  | [] => True
  | (k, v) :: items => Utf16.NoSplitPair k ∧ Plain v ∧ PlainItems items

end

mutual

theorem whole_dumps (v : PyValue) (h : Plain v) : Whole (Jsonb.dumps v) := by
  cases v with
  | null | bool | int | str => trivial
  | float x => exact h.elim
  | list items => exact wholeItems_dumpsList items h
  | dict items => exact wholeMembers_dumpsItems items h.1

theorem wholeItems_dumpsList (vs : List PyValue) (h : PlainList vs) :
    WholeItems (Jsonb.dumpsList vs) := by
  cases vs with
  | nil => trivial
  | cons v vs => exact ⟨whole_dumps v h.1, wholeItems_dumpsList vs h.2⟩

theorem wholeMembers_dumpsItems (items : List (PyStr × PyValue)) (h : PlainItems items) :
    WholeMembers (Jsonb.dumpsItems items) := by
  match items with
  | [] => trivial
  | (k, v) :: items => exact ⟨whole_dumps v h.2.1, wholeMembers_dumpsItems items h.2.2⟩

end

mutual

theorem loads_dumps (v : PyValue) (h : Plain v) : loads (Jsonb.dumps v) = v := by
  cases v with
  | null | bool | int => rfl
  | float x => exact h.elim
  | str s => exact congrArg JsonValue.str (Utf16.decode_encode_iff.mpr h)
  | list items => exact congrArg JsonValue.list (loadsItems_dumpsList items h)
  | dict items =>
    rw [Jsonb.dumps, loads, loadsMembers_dumpsItems items h.1, Dict.rows_ofPairs h.2]

theorem loadsItems_dumpsList (vs : List PyValue) (h : PlainList vs) :
    loadsItems (Jsonb.dumpsList vs) = vs := by
  cases vs with
  | nil => rfl
  | cons v vs =>
    rw [Jsonb.dumpsList, loadsItems, loads_dumps v h.1, loadsItems_dumpsList vs h.2]

theorem loadsMembers_dumpsItems (items : List (PyStr × PyValue)) (h : PlainItems items) :
    loadsMembers (Jsonb.dumpsItems items) = items := by
  match items with
  | [] => rfl
  | (k, v) :: items =>
    rw [Jsonb.dumpsItems, loadsMembers, loads_dumps v h.2.1, loadsMembers_dumpsItems items h.2.2,
      Utf16.decode_encode_iff.mpr h.1]

end

/-- `json.dumps(value)`, as characters. -/
def write (repr : Float → List Char) (v : PyValue) : List Char := render repr (Jsonb.dumps v)

/-- `json.loads(text)`. -/
def read (text : List Char) : Option PyValue := (parse text).map loads

theorem read_write {v : PyValue} (h : Plain v) : read (write repr v) = some v := by
  rw [read, write, parse_render (whole_dumps v h), Option.map_some, loads_dumps v h]

theorem newline_notMem_write {v : PyValue} (h : Plain v) : '\n' ∉ write repr v :=
  newline_notMem_render _ (whole_dumps v h)

/-- The values on the lines of a text. -/
def readLines (text : List Char) : Option (List PyValue) := (lines text).mapM read

theorem readLines_write {vs : List PyValue} (h : ∀ v ∈ vs, Plain v) :
    readLines (vs.flatMap fun v => write repr v ++ ['\n']) = some vs := by
  have hlines : lines ((vs.map (write repr)).flatMap fun l => l ++ ['\n']) =
      vs.map (write repr) := by
    refine lines_flatMap fun l hl => ?_
    obtain ⟨v, hv, rfl⟩ := List.mem_map.mp hl
    exact newline_notMem_write (h v hv)
  rw [List.flatMap_map] at hlines
  rw [readLines, hlines]
  clear hlines
  induction vs with
  | nil => rfl
  | cons v vs ih =>
    obtain ⟨hv, hvs⟩ := List.forall_mem_cons.mp h
    rw [List.map_cons, List.mapM_cons, read_write hv, ih hvs]
    rfl

end ChainMonitor.ProofKit.JsonChars
