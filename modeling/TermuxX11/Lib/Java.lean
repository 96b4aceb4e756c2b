import TermuxX11.Lib.Unicode

/-!
# Java numbers, strings and `org.json`

The conversion `(int)` of exact rationals, the arithmetic of `int`, strings as rows of UTF-16 units,
and the part of `org.json` that reads and builds documents.  A document is a tree.  The parser is
the identity on trees; the writer is one but for the texts, of which `getBytes` makes UTF-8
(`Json.written`).  The getters coerce as the library does: a string is accepted where a number or a
truth value is asked for, and anything can be read as a string.  `Coercions` collects the two
conversions between text and values that are left open.

A number is a `Long` or a `Double`; a `Double` that is infinite stands as the exact number that
was too large for it, and `NaN`, which is no JSON, is left out.  An exception is `none`.
-/

namespace Java

open Unicode

/-! ### Numbers -/

/-- The integer part of a number. -/
def truncate (q : ℚ) : ℤ := if 0 ≤ q then ⌊q⌋ else ⌈q⌉

@[simp] theorem truncate_intCast (n : ℤ) : truncate n = n := by
  simp [truncate]

@[simp] theorem truncate_zero : truncate 0 = 0 := by
  simp [truncate]

/-- `(int)` on a floating-point number that is an integer: the nearest `int`. -/
def saturate (n : ℤ) : ℤ := max (-2 ^ 31) (min n (2 ^ 31 - 1))

/-- The number is an `int`. -/
def IsInt (n : ℤ) : Prop := -2 ^ 31 ≤ n ∧ n < 2 ^ 31

instance (n : ℤ) : Decidable (IsInt n) := inferInstanceAs (Decidable (_ ∧ _))

theorem isInt_zero : IsInt 0 := by decide

theorem saturate_of_mem {n : ℤ} (hlow : -2 ^ 31 ≤ n) (hhigh : n < 2 ^ 31) : saturate n = n := by
  rw [saturate]
  omega

theorem isInt_saturate (n : ℤ) : IsInt (saturate n) := by
  rw [IsInt, saturate]
  omega

theorem saturate_eq_iff {n : ℤ} : saturate n = n ↔ IsInt n := by
  rw [IsInt, saturate]
  omega

/-- `(int)` on a floating-point number. -/
def toInt (q : ℚ) : ℤ := saturate (truncate q)

theorem isInt_toInt (q : ℚ) : IsInt (toInt q) := isInt_saturate _

theorem toInt_intCast {n : ℤ} (h : IsInt n) : toInt n = n := by
  rw [toInt, truncate_intCast, saturate_eq_iff.2 h]

/-- The `int` that a sum or product of `int`s wraps around to. -/
def int (n : ℤ) : ℤ := n.bmod (2 ^ 32)

theorem int_of_mem {n : ℤ} (hlow : -2 ^ 31 ≤ n) (hhigh : n < 2 ^ 31) : int n = n :=
  Int.bmod_eq_of_le (by norm_num; omega) (by norm_num; omega)

theorem isInt_int32 (n : Int32) : IsInt n.toInt := ⟨n.le_toInt, n.toInt_lt⟩

theorem toInt_ofInt32 {n : ℤ} (h : IsInt n) : (Int32.ofInt n).toInt = n :=
  Int32.toInt_ofInt_of_le h.1 h.2

/-- The number is infinite as a `float`. -/
@[irreducible]
def overflowsFloat (q : ℚ) : Bool := 2 ^ 128 - 2 ^ 103 ≤ |q|

/-- The number is infinite as a `double`. -/
@[irreducible]
def overflowsDouble (q : ℚ) : Bool := 2 ^ 1024 - 2 ^ 970 ≤ |q|

/-! ### Strings -/

/-- A `String`, as its units. -/
abbrev JString := List UInt16

/-- The string of a literal. -/
def lit (s : String) : JString := utf16 s.toList

instance : Coe String JString := ⟨lit⟩

/-- The text of a string, with a question mark for a surrogate that has no partner. -/
def textOf (s : JString) : String := String.ofList (decode s)

/-- What is read of a string that was written as UTF-8. -/
def written (s : JString) : JString := utf16 (decode s)

/-- The string has no surrogate without a partner. -/
def WellFormed (s : JString) : Prop := written s = s

instance (s : JString) : Decidable (WellFormed s) := inferInstanceAs (Decidable (_ = _))

theorem decode_utf16 (text : List Char) : decode (utf16 text) = text := by
  have h := decode_utf16_append text []
  rwa [List.append_nil, show decode [] = [] from rfl, List.append_nil] at h

@[simp] theorem textOf_lit (s : String) : textOf s = s := by
  rw [textOf, lit, decode_utf16, String.ofList_toList]

@[simp] theorem written_lit (s : String) : written s = s := by
  rw [written, lit, decode_utf16]

theorem wellFormed_lit (s : String) : WellFormed s := written_lit s

theorem lit_injective : Function.Injective lit := by
  intro s t h
  rw [← textOf_lit s, ← textOf_lit t, h]

theorem lit_append (s t : String) : lit (s ++ t) = lit s ++ lit t := by
  rw [lit, String.toList_append, utf16_append]
  rfl

/-! ### `org.json` -/

/-- A JSON value; `int` is a `Long`, `num` a `Double`. -/
inductive Json
  | null
  | bool (b : Bool)
  | int (n : ℤ)
  | num (q : ℚ)
  | str (s : JString)
  | arr (values : List Json)
  | obj (fields : List (String × Json))

/-- The fields of a `JSONObject`. -/
abbrev JSONObject := List (String × Json)

/-- `String.valueOf` on a value that is no string, and `Double.valueOf` on a string. -/
structure Coercions where
  valueOf : Json → JString
  parseDouble : JString → Option ℚ

/-- For documents whose fields have the types that are asked for, where nothing is converted. -/
def Coercions.strict : Coercions := ⟨fun _ => [], fun _ => none⟩

namespace Json

/-- `JSON.toString(Object)`. -/
def toText (C : Coercions) : Json → JString
  | str s => s
  | j => C.valueOf j

/-- `JSON.toDouble(Object)`. -/
def toDouble (C : Coercions) : Json → Option ℚ
  | int n => some n
  | num q => some q
  | str s => C.parseDouble s
  | _ => none

/-- `JSON.toInteger(Object)`: `intValue` of a `Long` wraps around, that of a `Double` does not. -/
def toInteger (C : Coercions) : Json → Option Int32
  | int n => some (Int32.ofInt n)
  | num q => some (Int32.ofInt (toInt q))
  | str s => (C.parseDouble s).map fun q => Int32.ofInt (toInt q)
  | _ => none

/-- `JSON.toBoolean(Object)`. -/
def toBoolean : Json → Option Bool
  | bool b => some b
  | str s =>
    if (textOf s).toLower = "true" then some true
    else if (textOf s).toLower = "false" then some false
    else none
  | _ => none

/-- The value as a `JSONObject`. -/
def toObject : Json → Option JSONObject
  | obj fields => some fields
  | _ => none

/-- The value as a `JSONArray`. -/
def toArray : Json → Option (List Json)
  | arr values => some values
  | _ => none

mutual

/-- The document that is read where `toString().getBytes(UTF_8)` was written. -/
def written : Json → Json
  | null => null
  | bool b => bool b
  | int n => int n
  | num q => num q
  | str s => str (Java.written s)
  | arr values => arr (writtenValues values)
  | obj fields => obj (writtenFields fields)

def writtenValues : List Json → List Json
  | [] => []
  | j :: js => j.written :: writtenValues js

def writtenFields : List (String × Json) → List (String × Json)
  | [] => []
  | (key, j) :: fields => (key, j.written) :: writtenFields fields

end

theorem writtenValues_eq_map (values : List Json) : writtenValues values = values.map written := by
  induction values with
  | nil => rfl
  | cons j js ih => rw [writtenValues, ih, List.map_cons]

theorem writtenFields_eq_map (fields : List (String × Json)) :
    writtenFields fields = fields.map fun f => (f.1, f.2.written) := by
  induction fields with
  | nil => rfl
  | cons f fields ih => rw [writtenFields, ih, List.map_cons]

end Json

namespace JSONObject

variable (C : Coercions) (o : JSONObject) (key : String)

/-- `opt`. -/
def opt : Option Json := o.lookup key

/-- `has`. -/
def has : Bool := (opt o key).isSome

/-- `getString`. -/
def getString : Option JString := (opt o key).map (Json.toText C)

/-- `optString`. -/
def optString (fallback : JString) : JString := (getString C o key).getD fallback

/-- `getDouble`. -/
def getDouble : Option ℚ := (opt o key).bind (Json.toDouble C)

/-- `getInt`. -/
def getInt : Option Int32 := (opt o key).bind (Json.toInteger C)

/-- `optInt`. -/
def optInt (fallback : Int32) : Int32 := (getInt C o key).getD fallback

/-- `getBoolean`. -/
def getBoolean : Option Bool := (opt o key).bind Json.toBoolean

/-- `getJSONArray`. -/
def getJSONArray : Option (List Json) := (opt o key).bind Json.toArray

end JSONObject

end Java
