import Retrofit.Dict

/-!
# JSON trees

Whole numbers and numbers with a fraction are different values, and an object keeps the fields it
was written with, in order and with repetitions: whether a repeated field is an error depends on
what the object is read as. A part that is written correctly but holds no value is `unreadable`;
it does no harm where nothing looks at it. `Json.settled` is the tree as a plain value, in which the
last of several fields with one name counts and fields are in the order of their names.
-/

namespace Retrofit

inductive Json where
  | null
  | bool (value : Bool)
  | int (value : Int)
  | float (value : Float)
  | text (value : String)
  | list (items : List Json)
  | object (fields : List (String × Json))
  /-- What is written correctly and holds no value, such as a number beyond the doubles. -/
  | unreadable

namespace Json

instance : Inhabited Json := ⟨null⟩

/-- A number. Infinite and undefined ones have no form of their own and are written as `null`. -/
def ofFloat (x : Float) : Json :=
  if x.isFinite then .float x else .null

/-- A list of values, each written by the same rule. -/
def ofList {α : Type} (write : α → Json) (items : List α) : Json :=
  .list (items.map write)

/-- An absent value is `null`. -/
def ofOption {α : Type} (write : α → Json) : Option α → Json
  | some value => write value
  | none => .null

/-- A dictionary as an object with one field for every entry. -/
def ofDict {α : Type} (write : α → Json) (d : Dict α) : Json :=
  .object (d.entries.map fun e => (e.1, write e.2))

/-- The first field of a name. -/
def field? (name : String) : Json → Option Json
  | .object fields => fields.lookup name
  | _ => none

mutual

/-- Whether all parts of the tree hold values. -/
def isReadable : Json → Bool
  | .unreadable => false
  | .list items => areReadable items
  | .object fields => haveReadable fields
  | .null | .bool _ | .int _ | .float _ | .text _ => true

def areReadable : List Json → Bool
  | [] => true
  | item :: rest => isReadable item && areReadable rest

def haveReadable : List (String × Json) → Bool
  | [] => true
  | (_, value) :: rest => isReadable value && haveReadable rest

end

mutual

/-- The tree as a plain value: of several fields with one name the last one counts, and fields are
sorted by name. -/
def settled : Json → Json
  | .list items => .list (settledItems items)
  | .object fields => .object (settledFields fields)
  | .null => .null
  | .bool value => .bool value
  | .int value => .int value
  | .float value => .float value
  | .text value => .text value
  | .unreadable => .unreadable

def settledItems : List Json → List Json
  | [] => []
  | item :: rest => settled item :: settledItems rest

def settledFields : List (String × Json) → List (String × Json)
  | [] => []
  | (name, value) :: rest =>
    let later := settledFields rest
    if later.any (·.1 = name) then later else Dict.insertEntry name (settled value) later

end

end Json

end Retrofit
