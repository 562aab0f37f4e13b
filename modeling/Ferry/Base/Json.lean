import Ferry.Base.Text

/-!
# JSON values as Python sees them

The values that `json.loads` returns, with the conversions `str` and `int`.  The text that `str`
makes of a float or of a container is part of the value, since nothing here depends on how Python
formats it.
-/

namespace Ferry

/-- What `int` makes of a float. -/
inductive FloatTrunc
  | finite (n : ℤ)
  | nan
  | infinite
  deriving DecidableEq

inductive JsonValue
  | null
  | bool (b : Bool)
  | int (n : ℤ)
  | float (trunc : FloatTrunc) (text : Text)
  | str (t : Text)
  | arr (items : List JsonValue) (text : Text)
  | obj (fields : List (Text × JsonValue)) (text : Text)

/-- A payload: the fields of a decoded JSON object. -/
abbrev Payload := List (Text × JsonValue)

/-- The exceptions of `int(value)`. -/
inductive IntError
  | valueError
  | typeError
  | overflowError
  deriving DecidableEq

namespace JsonValue

/-- `str(value)`. -/
def toText : JsonValue → Text
  | null => Text.lit "None"
  | bool true => Text.lit "True"
  | bool false => Text.lit "False"
  | int n => Text.lit (toString n)
  | float _ text => text
  | str t => t
  | arr _ text => text
  | obj _ text => text

/-- `int(value)`. -/
def toInt : JsonValue → Except IntError ℤ
  | bool b => .ok (if b then 1 else 0)
  | int n => .ok n
  | float (.finite n) _ => .ok n
  | float .nan _ => .error .valueError
  | float .infinite _ => .error .overflowError
  | str t => match Text.parseInt 10 t with
    | some n => .ok n
    | none => .error .valueError
  | _ => .error .typeError

/-- `bool(value)`. -/
def truthy : JsonValue → Bool
  | null => false
  | bool b => b
  | int n => n ≠ 0
  | float _ text => text ∉ [Text.lit "0.0", Text.lit "-0.0"]
  | str t => t ≠ []
  | arr items _ => !items.isEmpty
  | obj fields _ => !fields.isEmpty

/-- The length of the JSON escape of one code point. -/
def escapeLength (c : CodePoint) : ℕ :=
  if c ∈ Text.lit "\"\\\n\r\t" ∨ c.val = 8 ∨ c.val = 12 then 2
  else if 0x20 ≤ c.val ∧ c.val ≤ 0x7E then 1
  else if c.val < 0x10000 then 6
  else 12

/-- The length of the JSON text of a string. -/
def quotedLength (t : Text) : ℕ := 2 + (t.map escapeLength).sum

mutual

/-- `len(json.dumps(value))`. -/
def dumpsLength : JsonValue → ℕ
  | null => 4
  | bool b => if b then 4 else 5
  | int n => (toString n).length
  | float .infinite text => text.length + 5
  | float _ text => text.length
  | str t => quotedLength t
  | arr items _ => 2 + itemsLength items
  | obj fields _ => 2 + fieldsLength fields

/-- The length of the items of a list, with the separators between them. -/
def itemsLength : List JsonValue → ℕ
  | [] => 0
  | [item] => item.dumpsLength
  | item :: items => item.dumpsLength + 2 + itemsLength items

/-- The length of the fields of an object, with the separators between them. -/
def fieldsLength : List (Text × JsonValue) → ℕ
  | [] => 0
  | [(key, value)] => quotedLength key + 2 + value.dumpsLength
  | (key, value) :: fields => quotedLength key + 2 + value.dumpsLength + 2 + fieldsLength fields

end

end JsonValue

namespace Payload

/-- `payload.get(key)`, with `none` for a missing key. -/
def get (payload : Payload) (key : String) : Option JsonValue :=
  payload.lookup (Text.lit key)

/-- `str(payload.get(key, default))`. -/
def getText (payload : Payload) (key : String) (default : String) : Text :=
  match payload.get key with
  | some value => value.toText
  | none => Text.lit default

/-- `int(payload.get(key, default))`. -/
def getInt (payload : Payload) (key : String) (default : ℤ) : Except IntError ℤ :=
  match payload.get key with
  | some value => value.toInt
  | none => .ok default

end Payload

end Ferry
