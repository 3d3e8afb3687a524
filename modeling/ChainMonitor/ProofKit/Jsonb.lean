import ChainMonitor.ProofKit.Json
import ChainMonitor.ProofKit.Utf16

/-! Python values on their way through a JSONB column: the JSON text that `json.dumps` writes, which
may have the `NaN` and `Infinity` that JSON lacks, and what the column makes of such a text. A text
is given by its literals; how a string is split into escapes does not matter to who reads it. -/

namespace ChainMonitor.ProofKit

/-- What `json.loads` returns and `json.dumps` takes, with texts that may have surrogates. The keys
of a `dict` are distinct. -/
abbrev PyValue := JsonValue PyStr

/-- A JSON text. A number with a fraction or an exponent is given by the `float` that it is the
`repr` of, and a string by its UTF-16 code units. -/
inductive JsonText
  | null
  | bool (b : Bool)
  | int (n : ℤ)
  | number (x : Float)
  | nan
  | infinity (negative : Bool)
  | string (units : List CodeUnit)
  | array (items : List JsonText)
  | object (members : List (List CodeUnit × JsonText))

namespace Jsonb

/-- The `repr` of a `float`, with the names that `json.dumps` has for what is no number. -/
def dumpsFloat (x : Float) : JsonText :=
  if PyFloat.isFinite x then .number x else if x.isNaN then .nan else .infinity (x < 0)

mutual

/-- `json.dumps(value)`. -/
def dumps : PyValue → JsonText
  | .null => .null
  | .bool b => .bool b
  | .int n => .int n
  | .float x => dumpsFloat x
  | .str s => .string (Utf16.encode s)
  | .list items => .array (dumpsList items)
  | .dict items => .object (dumpsItems items)

def dumpsList : List PyValue → List JsonText
  | [] => []
  | v :: vs => dumps v :: dumpsList vs

def dumpsItems : List (PyStr × PyValue) → List (List CodeUnit × JsonText)
  | [] => []
  | (k, v) :: items => (Utf16.encode k, dumps v) :: dumpsItems items

end

/-- A string of the column, which has no NUL. -/
def castString (units : List CodeUnit) : Option PyStr :=
  if ∃ u ∈ units, u.val = 0 then none else some (Utf16.decode units)

mutual

/-- `CAST(text AS JSONB)`, read back as Python values, or `none` where it fails. -/
def cast : JsonText → Option PyValue
  | .null => some .null
  | .bool b => some (.bool b)
  | .int n => some (.int n)
  | .number x => some (.float x)
  | .nan => none
  | .infinity _ => none
  | .string units => (castString units).map .str
  | .array items => (castList items).map .list
  | .object members => (castMembers members).map .dict

def castList : List JsonText → Option (List PyValue)
  | [] => some []
  | t :: ts => do return (← cast t) :: (← castList ts)

def castMembers : List (List CodeUnit × JsonText) → Option (List (PyStr × PyValue))
  | [] => some []
  | (units, t) :: members => do
    return (← castString units, ← cast t) :: (← castMembers members)

end

/-- The text has no NUL. -/
def NoNul (s : PyStr) : Prop := ∀ c ∈ s, c.val ≠ 0

instance (s : PyStr) : Decidable (NoNul s) := by
  unfold NoNul
  infer_instance

mutual

/-- Every number in the value is finite, and no text in it has a NUL. -/
def Writable : PyValue → Prop
  | .null | .bool _ | .int _ => True
  | .float x => PyFloat.isFinite x
  | .str s => NoNul s
  | .list items => WritableList items
  | .dict items => WritableItems items

def WritableList : List PyValue → Prop
  | [] => True
  | v :: vs => Writable v ∧ WritableList vs

def WritableItems : List (PyStr × PyValue) → Prop
  | [] => True
  | (k, v) :: items => (NoNul k ∧ Writable v) ∧ WritableItems items

end

/-- A text after it has been through UTF-16. -/
def reread (s : PyStr) : PyStr := Utf16.decode (Utf16.encode s)

mutual

/-- The value with each text as it comes back. -/
def rereadValue : PyValue → PyValue
  | .null => .null
  | .bool b => .bool b
  | .int n => .int n
  | .float x => .float x
  | .str s => .str (reread s)
  | .list items => .list (rereadList items)
  | .dict items => .dict (rereadItems items)

def rereadList : List PyValue → List PyValue
  | [] => []
  | v :: vs => rereadValue v :: rereadList vs

def rereadItems : List (PyStr × PyValue) → List (PyStr × PyValue)
  | [] => []
  | (k, v) :: items => (reread k, rereadValue v) :: rereadItems items

end

theorem encodeOne_zero {c : CodePoint} :
    (∃ u ∈ Utf16.encodeOne c, u.val = 0) ↔ c.val = 0 := by
  unfold Utf16.encodeOne
  split
  · simp
  · rename_i h
    simp only [List.mem_cons, List.not_mem_nil, or_false, exists_eq_or_imp, exists_eq_left,
      Utf16.high_val, Utf16.low_val]
    omega

/-- A text has a NUL if its code units have one. -/
theorem encode_zero {s : PyStr} : (∃ u ∈ Utf16.encode s, u.val = 0) ↔ ¬NoNul s := by
  simp only [Utf16.encode, List.mem_flatMap, NoNul]
  push Not
  constructor
  · rintro ⟨u, ⟨c, hc, hu⟩, hzero⟩
    exact ⟨c, hc, encodeOne_zero.mp ⟨u, hu, hzero⟩⟩
  · rintro ⟨c, hc, hzero⟩
    obtain ⟨u, hu, hzero⟩ := encodeOne_zero.mpr hzero
    exact ⟨u, ⟨c, hc, hu⟩, hzero⟩

theorem castString_encode {s t : PyStr} :
    castString (Utf16.encode s) = some t ↔ NoNul s ∧ reread s = t := by
  unfold castString
  split
  · rename_i h
    simp [encode_zero.mp h]
  · rename_i h
    rw [encode_zero, not_not] at h
    simp [h, reread]

theorem cast_dumpsFloat {x : Float} {w : PyValue} :
    cast (dumpsFloat x) = some w ↔ PyFloat.isFinite x ∧ .float x = w := by
  unfold dumpsFloat
  split
  · rename_i h
    simp [cast, h]
  · rename_i h
    split <;> simp [cast, h]

mutual

/-- What the column makes of the text of a value. -/
theorem cast_dumps (v w : PyValue) :
    cast (dumps v) = some w ↔ Writable v ∧ rereadValue v = w := by
  cases v with
  | null | bool | int => simp [dumps, cast, Writable, rereadValue]
  | float x => simp only [dumps, Writable, rereadValue, cast_dumpsFloat]
  | str s => simp [dumps, cast, Writable, rereadValue, Option.map_eq_some_iff, castString_encode]
  | list items =>
    simp only [dumps, cast, Writable, rereadValue, Option.map_eq_some_iff]
    constructor
    · rintro ⟨ws, hws, rfl⟩
      obtain ⟨hw, rfl⟩ := (castList_dumpsList items ws).mp hws
      exact ⟨hw, rfl⟩
    · rintro ⟨hw, rfl⟩
      exact ⟨_, (castList_dumpsList items _).mpr ⟨hw, rfl⟩, rfl⟩
  | dict items =>
    simp only [dumps, cast, Writable, rereadValue, Option.map_eq_some_iff]
    constructor
    · rintro ⟨ws, hws, rfl⟩
      obtain ⟨hw, rfl⟩ := (castMembers_dumpsItems items ws).mp hws
      exact ⟨hw, rfl⟩
    · rintro ⟨hw, rfl⟩
      exact ⟨_, (castMembers_dumpsItems items _).mpr ⟨hw, rfl⟩, rfl⟩

theorem castList_dumpsList (vs ws : List PyValue) :
    castList (dumpsList vs) = some ws ↔ WritableList vs ∧ rereadList vs = ws := by
  cases vs with
  | nil => simp [dumpsList, castList, WritableList, rereadList]
  | cons v vs =>
    simp only [dumpsList, castList, WritableList, rereadList, Option.bind_eq_bind,
      Option.bind_eq_some_iff, cast_dumps v, castList_dumpsList vs, Option.pure_def,
      Option.some.injEq]
    constructor
    · rintro ⟨_, ⟨hv, rfl⟩, _, ⟨hvs, rfl⟩, rfl⟩
      exact ⟨⟨hv, hvs⟩, rfl⟩
    · rintro ⟨⟨hv, hvs⟩, rfl⟩
      exact ⟨_, ⟨hv, rfl⟩, _, ⟨hvs, rfl⟩, rfl⟩

theorem castMembers_dumpsItems (items ws : List (PyStr × PyValue)) :
    castMembers (dumpsItems items) = some ws ↔ WritableItems items ∧ rereadItems items = ws := by
  match items with
  | [] => simp [dumpsItems, castMembers, WritableItems, rereadItems]
  | (k, v) :: items =>
    simp only [dumpsItems, castMembers, WritableItems, rereadItems, Option.bind_eq_bind,
      Option.bind_eq_some_iff, castString_encode, cast_dumps v, castMembers_dumpsItems items,
      Option.pure_def, Option.some.injEq]
    constructor
    · rintro ⟨_, ⟨hk, rfl⟩, _, ⟨hv, rfl⟩, _, ⟨hitems, rfl⟩, rfl⟩
      exact ⟨⟨⟨hk, hv⟩, hitems⟩, rfl⟩
    · rintro ⟨⟨⟨hk, hv⟩, hitems⟩, rfl⟩
      exact ⟨_, ⟨hk, rfl⟩, _, ⟨hv, rfl⟩, _, ⟨hitems, rfl⟩, rfl⟩

end

end Jsonb

end ChainMonitor.ProofKit
