import Mathlib.Algebra.GroupWithZero.Nat
import SentinelCommand.Agent.Conversation
import SentinelCommand.Sentinel.RunThreads

/-
  A `/complete` request from its body on: the body is read
  and decoded, its fields are checked, and the rest is the
  thread of `Sentinel.postRunComplete`.

  A body is the JSON text of a value, so decoding gives that
  value back. What decoding refuses is modelled on the value:
  its size in bytes, its depth and its NUL characters.

  Key definitions include:
    * `Json.wireSize`, `Json.depth`
    * `Sentinel.decodeJsonBody`
    * `Sentinel.parseComplete`
-/

--------------------
-- JSON on the Wire
--------------------

namespace SentinelCommand

namespace Json

/- The bytes of one character in `serde_json`'s strings. -/
def escapedSize (c : Char) : Nat :=
  if c = quotationMark ∨ c = backslash then
    2
  else if c.toNat = 8 ∨ c.toNat = 9 ∨ c.toNat = 10 ∨
      c.toNat = 12 ∨ c.toNat = 13 then
    2
  else if c.toNat < 32 then
    6
  else
    c.utf8Size

def quotedSize (text : String) : Nat :=
  2 + (text.toList.map escapedSize).sum

/- Items between brackets, with commas between them. -/
def enclosedSize (sizes : List Nat) : Nat :=
  2 + sizes.sum + (sizes.length - 1)

mutual

/- The bytes of a value; `floatText` spells a float. -/
def wireSize (floatText : String → String) : Json → Nat
| .null => 4
| .bool true => 4
| .bool false => 5
| .integer value => (toString value).utf8ByteSize
| .float spelling => (floatText spelling).utf8ByteSize
| .string text => quotedSize text
| .array items => enclosedSize (wireSizes floatText items)
| .object fields => enclosedSize (fieldSizes floatText fields)

def wireSizes
    (floatText : String → String) : List Json → List Nat
| [] => []
| item :: rest =>
    wireSize floatText item :: wireSizes floatText rest

def fieldSizes
    (floatText : String → String) :
    List (String × Json) → List Nat
| [] => []
| (key, value) :: rest =>
    (quotedSize key + 1 + wireSize floatText value) ::
      fieldSizes floatText rest

end

mutual

/- How deep arrays and objects are nested. -/
def depth : Json → Nat
| .array items => depthOfItems items + 1
| .object fields => depthOfFields fields + 1
| _ => 0

def depthOfItems : List Json → Nat
| [] => 0
| item :: rest => max (depth item) (depthOfItems rest)

def depthOfFields : List (String × Json) → Nat
| [] => 0
| (_, value) :: rest =>
    max (depth value) (depthOfFields rest)

end

mutual

/- Where the first NUL is, if there is one. -/
def nulLocation (loc : List Json) : Json → Option (List Json)
| .string text =>
    if textCarriesNul text then some loc else none
| .array items => nulInItems loc 0 items
| .object fields => nulInFields loc fields
| _ => none

def nulInItems
    (loc : List Json)
    (i : Int) : List Json → Option (List Json)
| [] => none
| item :: rest =>
    (nulLocation (loc ++ [.integer i]) item).or
      (nulInItems loc (i + 1) rest)

def nulInFields
    (loc : List Json) :
    List (String × Json) → Option (List Json)
| [] => none
| (key, item) :: rest =>
    (if textCarriesNul key then
        some (loc ++ [.string key])
      else
        nulLocation (loc ++ [.string key]) item).or
      (nulInFields loc rest)

end

end Json

--------------------
-- Decoding
--------------------

namespace Sentinel

/- One entry of a 422. -/
structure BodyError where
  kind : String
  loc : List Json
  msg : String
  input : Json
  ctx : Option Json

/- A part of a location that the summary names. -/
def locPart : Json → Option String
| .string part => if part = "body" then none else some part
| .integer i => some (toString i)
| _ => none

/- The summary, of the first error. -/
def BodyError.summary (err : BodyError) : String :=
  let loc := ".".intercalate (err.loc.filterMap locPart)
  if loc = "" then err.msg
  else err.msg ++ " (" ++ loc ++ ")"

/- `validation_error`; the answer is kept by its message. -/
def validationError :
    List BodyError → Except ApiError Unit
| [] => .ok ()
| first :: _ => .error ⟨422, first.summary⟩

/- The limit that `ModelBody` reads a body to. -/
def maxBodyBytes : Nat :=
  2 * 1024 * 1024

/- The depth at which `serde_json` gives up. -/
def recursionLimit : Nat := 128

def unreadable : ApiError :=
  ⟨400, "There was an error parsing the body"⟩

/-
  Of Python's and `serde_json`'s limits on nesting the second
  is the lower one, and both answer alike.
-/
def decodeJsonBody
    (floatText : String → String)
    (body : Json) : Except ApiError Json :=
  if maxBodyBytes < body.wireSize floatText then
    .error unreadable
  else if recursionLimit ≤ body.depth then
    .error unreadable
  else
    match body.nulLocation [.string "body"] with
    | some loc =>
        (validationError
          [{ kind := "string_nul"
             loc := loc
             msg :=
               "Text must not contain a NUL (\\u0000) character"
             input := .null
             ctx := none }]).map
          (fun _ => body)
    | none => .ok body

/- A declared model is an object. -/
def modelShape : Json → Except ApiError Fields
| .object fields => .ok fields
| .null => .error ⟨422, "Field required"⟩
| _ =>
    .error
      ⟨422,
        "Input should be a valid dictionary or object to " ++
          "extract fields from"⟩

--------------------
-- Fields
--------------------

/- What a reader of a field finds, and what it reports. -/
abbrev Reading (α : Type) : Type :=
  α × List BodyError

def fieldError
    (kind name msg : String)
    (input : Json)
    (ctx : Option Json) : BodyError where
  kind := kind
  loc := [.string "body", .string name]
  msg := msg
  input := input
  ctx := ctx

def missing (name : String) (body : Fields) : BodyError :=
  fieldError "missing" name "Field required" (.object body)
    none

def stringType (name : String) (input : Json) : BodyError :=
  fieldError "string_type" name
    "Input should be a valid string" input none

def tooLong
    (name input : String)
    (limit : Nat) : BodyError :=
  fieldError "string_too_long" name
    ("String should have at most " ++ toString limit ++
      " character" ++ (if limit = 1 then "" else "s"))
    (.string input)
    (some (.object [("max_length", .integer limit)]))

def listType (name : String) (input : Json) : BodyError :=
  fieldError "list_type" name "Input should be a valid list"
    input none

def dictTypeAt
    (name : String)
    (i : Nat)
    (input : Json) : BodyError where
  kind := "dict_type"
  loc := [.string "body", .string name, .integer i]
  msg := "Input should be a valid dictionary"
  input := input
  ctx := none

/- A text under a field, which has a greatest length. -/
def limited
    (name text : String)
    (limit : Nat) : List BodyError :=
  if limit < text.toList.length then
    [tooLong name text limit]
  else
    []

/- `usize::MAX`. -/
def usizeMax : Nat := 18446744073709551615

def requiredString
    (body : Fields)
    (name : String)
    (limit : Nat) : Reading String :=
  match body.lookup name with
  | none => ("", [missing name body])
  | some (.string text) => (text, limited name text limit)
  | some other => ("", [stringType name other])

def optionalString
    (body : Fields)
    (name : String)
    (limit : Nat) : Reading (Option String) :=
  match body.lookup name with
  | none | some .null => (none, [])
  | some (.string text) =>
      (some text, limited name text limit)
  | some other => (none, [stringType name other])

/- Absent is empty, and null is not absent. -/
def stringWithDefault
    (body : Fields)
    (name : String)
    (limit : Nat) : Reading String :=
  match body.lookup name with
  | none => ("", [])
  | some (.string text) => (text, limited name text limit)
  | some other => ("", [stringType name other])

inductive IntError where
  | parsing
  | parsingSize
  | fromFloat
  | type
  deriving DecidableEq, Repr

def IntError.kind : IntError → String
| .parsing => "int_parsing"
| .parsingSize => "int_parsing_size"
| .fromFloat => "int_from_float"
| .type => "int_type"

def IntError.msg : IntError → String
| .parsing =>
    "Input should be a valid integer, unable to parse " ++
      "string as an integer"
| .parsingSize =>
    "Unable to parse input string as an integer, exceeded " ++
      "maximum size"
| .fromFloat =>
    "Input should be a valid integer, got a number with a " ++
      "fractional part"
| .type => "Input should be a valid integer"

/-
  The number formats: how a float is spelled, the integer it
  is when it has no fraction, and `pyint::str_as_int`.
-/
structure Numbers where
  floatText : String → String
  wholeFloat : String → Option Int
  strAsInt : String → Except IntError Int

def i64Max : Int := 9223372036854775807

def i64Min : Int := -9223372036854775808

/- What no i64 holds has become a float, and saturates. -/
def parsePydanticInt
    (numbers : Numbers) : Json → Except IntError Int
| .bool value => .ok (if value then 1 else 0)
| .integer value => .ok (max i64Min (min i64Max value))
| .float spelling =>
    match numbers.wholeFloat spelling with
    | some value => .ok value
    | none => .error .fromFloat
| .string text => numbers.strAsInt text
| _ => .error .type

def readInt
    (numbers : Numbers)
    (name : String)
    (value : Json) : Reading (Option Int) :=
  match parsePydanticInt numbers value with
  | .ok n => (some n, [])
  | .error err =>
      (none, [fieldError err.kind name err.msg value none])

def optionalInt
    (numbers : Numbers)
    (body : Fields)
    (name : String) : Reading (Option Int) :=
  match body.lookup name with
  | none | some .null => (none, [])
  | some value => readInt numbers name value

def intWithDefault
    (numbers : Numbers)
    (body : Fields)
    (name : String)
    (default : Int) : Reading Int :=
  match body.lookup name with
  | none => (default, [])
  | some value =>
      let read := readInt numbers name value
      (read.1.getD default, read.2)

/- One error for each item that is no object. -/
def notObjects
    (name : String) :
    Nat → List Json → List BodyError
| _, [] => []
| i, .object _ :: rest => notObjects name (i + 1) rest
| i, item :: rest =>
    dictTypeAt name i item :: notObjects name (i + 1) rest

def optionalListOfObjects
    (body : Fields)
    (name : String) : Reading (Option (List Json)) :=
  match body.lookup name with
  | none | some .null => (none, [])
  | some (.array items) =>
      let errors := notObjects name 0 items
      (if errors.isEmpty then some items else none, errors)
  | some other => (none, [listType name other])

--------------------
-- The Stored Trace
--------------------

mutual

/- `str()` of a value that arrived as JSON. -/
def pythonStr (numbers : Numbers) : Json → String
| .string text => text
| .null => "None"
| .bool true => "True"
| .bool false => "False"
| .integer value => toString value
| .float spelling => numbers.floatText spelling
| .array items =>
    "[" ++ ", ".intercalate (pythonItems numbers items) ++ "]"
| .object fields =>
    "\x7b" ++ ", ".intercalate (pythonFields numbers fields) ++
      "\x7d"

/- A string is quoted inside another value. -/
def pythonItems (numbers : Numbers) : List Json → List String
| [] => []
| .string text :: rest =>
    pythonRepr text :: pythonItems numbers rest
| item :: rest =>
    pythonStr numbers item :: pythonItems numbers rest

def pythonFields
    (numbers : Numbers) : List (String × Json) → List String
| [] => []
| (key, .string text) :: rest =>
    (pythonRepr key ++ ": " ++ pythonRepr text) ::
      pythonFields numbers rest
| (key, value) :: rest =>
    (pythonRepr key ++ ": " ++ pythonStr numbers value) ::
      pythonFields numbers rest

end

def capStr
    (numbers : Numbers)
    (value : Option Json)
    (limit : Nat) : String :=
  let text :=
    match value with
    | none => ""
    | some value => pythonStr numbers value
  if text.toList.length ≤ limit then
    text
  else
    truncateChars text limit ++ "…"

/- Arguments whose JSON is long become a text. -/
def capArgs (args : Option Json) : Json :=
  let raw :=
    match args with
    | some (.object fields) => .object fields
    | _ => .object []
  let text := Agent.pythonJsonValue raw
  if 1500 < text.toList.length then
    .object
      [("_truncated",
        .string (truncateChars text 1500 ++ "…"))]
  else
    raw

def capEntry
    (numbers : Numbers)
    (entry : Fields) : Json :=
  .object
    [("tool",
        .string (capStr numbers (entry.lookup "tool") 200)),
      ("args", capArgs (entry.lookup "args")),
      ("result",
        .string (capStr numbers (entry.lookup "result") 1000))]

/- The last fifty entries, each one capped. -/
def serialiseToolTrace
    (numbers : Numbers)
    (trace : List Json) : String :=
  Agent.pythonJsonValue
    (.array
      (((trace.drop (trace.length - 50)).filterMap
        Json.asObject).map (capEntry numbers)))

/- All fields are read before the first error is answered. -/
def parseComplete
    (numbers : Numbers)
    (body : Fields) : Except ApiError CompleteBody :=
  let outcome := requiredString body "outcome" usizeMax
  let severity := optionalString body "severity" usizeMax
  let incidentId := optionalInt numbers body "incident_id"
  let summary := stringWithDefault body "summary" 8000
  let toolCallCount :=
    intWithDefault numbers body "tool_call_count" 0
  let toolTrace := optionalListOfObjects body "tool_trace"
  (validationError
    (outcome.2 ++ severity.2 ++ incidentId.2 ++ summary.2 ++
      toolCallCount.2 ++ toolTrace.2)).map
    (fun _ =>
      { outcome := outcome.1
        severity := severity.1
        incidentId := incidentId.1
        summary := summary.1
        toolCallCount := toolCallCount.1
        toolTrace :=
          toolTrace.1.map (serialiseToolTrace numbers) })

/- What the body of a request comes to. -/
def readComplete
    (numbers : Numbers)
    (body : Json) : Except ApiError CompleteBody :=
  match decodeJsonBody numbers.floatText body with
  | .error err => .error err
  | .ok decoded =>
      match modelShape decoded with
      | .error err => .error err
      | .ok fields => parseComplete numbers fields

/- A request whose key is the agent's. -/
def completeRequest
    (numbers : Numbers)
    (agent : AgentPrincipal)
    (body : Json)
    (owned : Int → Bool)
    (request : Nat) : RunThread :=
  match readComplete numbers body with
  | .error err => finish request (fun _ => .error err)
  | .ok complete => postRunComplete agent complete owned request

end Sentinel

end SentinelCommand
