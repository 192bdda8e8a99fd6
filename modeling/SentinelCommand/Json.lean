import Mathlib.Init

/-
  JSON values as a decoded body or column holds them, and
  the Python spelling `pyrepr.rs` gives them.

  A number is an integer or a float; a float is kept by its
  `repr_float` spelling, which is all a reader uses. The
  fields of an object are in the order of its map.

  Key definitions include:
    * `Json`
    * `Json.carriesNul`
    * `Json.strValue`
-/

--------------------
-- Values
--------------------

namespace SentinelCommand

inductive Json where
  | null
  | bool (value : Bool)
  | integer (value : Int)
  | float (spelling : String)
  | string (text : String)
  | array (items : List Json)
  | object (fields : List (String × Json))

/- The fields of a JSON object. -/
abbrev Fields : Type :=
  List (String × Json)

namespace Json

def asStr : Json → Option String
| .string text => some text
| _ => none

def asObject : Json → Option Fields
| .object fields => some fields
| _ => none

theorem eq_object_of_asObject
    {value : Json}
    {fields : Fields}
    (hFields : value.asObject = some fields) :
    value = .object fields := by
  cases value <;> cases hFields
  rfl

/- `Value::get` of a key, absent from all but an object. -/
def get (value : Json) (key : String) : Option Json :=
  value.asObject.bind (·.lookup key)

@[simp]
theorem get_object (fields : Fields) (key : String) :
    (Json.object fields).get key = fields.lookup key := by
  rfl

theorem get_of_asObject_none
    {value : Json}
    (hValue : value.asObject = none)
    (key : String) :
    value.get key = none := by
  simp [get, hValue]

def asArray : Json → Option (List Json)
| .array items => some items
| _ => none

/- Python's truthiness. -/
def truthy : Json → Bool
| .null => false
| .bool value => value
| .integer value => value ≠ 0
| .float spelling => spelling ≠ "0.0" ∧ spelling ≠ "-0.0"
| .string text => text ≠ ""
| .array items => !items.isEmpty
| .object fields => !fields.isEmpty

def textCarriesNul (text : String) : Bool :=
  text.toList.any (fun c => c.toNat == 0)

mutual

/- A NUL anywhere in a value, object keys included. -/
def carriesNul : Json → Bool
| .string text => textCarriesNul text
| .array items => anyCarriesNul items
| .object fields => anyFieldCarriesNul fields
| _ => false

def anyCarriesNul : List Json → Bool
| [] => false
| item :: rest => carriesNul item || anyCarriesNul rest

def anyFieldCarriesNul : List (String × Json) → Bool
| [] => false
| (key, value) :: rest =>
    textCarriesNul key || carriesNul value ||
      anyFieldCarriesNul rest

end

--------------------
-- Python Spelling
--------------------

def apostrophe : Char := Char.ofNat 39

def quotationMark : Char := Char.ofNat 34

def backslash : Char := Char.ofNat 92

/- Two lower-case hex digits. -/
def hexByte (n : Nat) : List Char :=
  [Nat.digitChar (n / 16), Nat.digitChar (n % 16)]

/- One character of `repr` inside the chosen quotes. -/
def reprChar (quote c : Char) : List Char :=
  if c = backslash then
    [backslash, backslash]
  else if c.toNat = 10 then
    [backslash, 'n']
  else if c.toNat = 13 then
    [backslash, 'r']
  else if c.toNat = 9 then
    [backslash, 't']
  else if c = quote then
    [backslash, c]
  else if
    c.toNat < 32 ∨ (127 ≤ c.toNat ∧ c.toNat ≤ 160)
  then
    backslash :: 'x' :: hexByte c.toNat
  else
    [c]

/- `repr()` of a string. -/
def reprStr (s : String) : String :=
  let quote :=
    if s.toList.contains apostrophe &&
        !s.toList.contains quotationMark then
      quotationMark
    else
      apostrophe
  String.ofList
    (quote :: s.toList.flatMap (reprChar quote) ++ [quote])

mutual

/- `repr()` of a value. -/
def reprValue : Json → String
| .null => "None"
| .bool true => "True"
| .bool false => "False"
| .integer value => toString value
| .float spelling => spelling
| .string text => reprStr text
| .array items =>
    "[" ++ ", ".intercalate (reprItems items) ++ "]"
| .object fields =>
    "\x7b" ++ ", ".intercalate (reprFields fields) ++ "\x7d"

def reprItems : List Json → List String
| [] => []
| item :: rest => reprValue item :: reprItems rest

def reprFields : List (String × Json) → List String
| [] => []
| (key, value) :: rest =>
    (reprStr key ++ ": " ++ reprValue value) ::
      reprFields rest

end

/- `str()` of a value: a string is itself, unquoted. -/
def strValue : Json → String
| .string text => text
| other => reprValue other

end Json

end SentinelCommand
