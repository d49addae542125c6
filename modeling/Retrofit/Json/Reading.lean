import Retrofit.Json.Basic
import Retrofit.Number

/-!
# Reading values from JSON trees

A reader for a type takes a tree to a value, or to nothing when the tree has another form.
`Record` is the common form of structured values: an object whose fields may come in any order, or
the list of the values of its leading fields in their declared order. A field is required, may be
left out, or has a default; a known field that is given twice is refused. What is `unreadable` has
the form of no type, but a field that is passed over may hold it.
-/

namespace Retrofit

namespace Json

/-- Whole numbers within a signed 64-bit word. -/
def toInt64? : Json → Option Int
  | .int n => if -9223372036854775808 ≤ n ∧ n ≤ 9223372036854775807 then some n else none
  | _ => none

/-- Whole numbers within an unsigned word of the given width. -/
def toWord? (bits : Nat) : Json → Option Nat
  | .int n => if 0 ≤ n ∧ n.toNat < 1 <<< bits then some n.toNat else none
  | _ => none

/-- Numbers of both kinds; a whole number is taken to the nearest double. -/
def toFloat? : Json → Option Float
  | .int n => some (Number.ofInt n)
  | .float x => some x
  | _ => none

def toBool? : Json → Option Bool
  | .bool b => some b
  | _ => none

def toText? : Json → Option String
  | .text s => some s
  | _ => none

/-- A name on its own, or as the only field of an object whose value is `null`. -/
def toName? : Json → Option String
  | .text s => some s
  | .object [(name, .null)] => some name
  | _ => none

/-- A tree of which every part holds a value, as a plain value. -/
def toPlain? (j : Json) : Option Json :=
  if j.isReadable then some j.settled else none

def toList? {α : Type} (read : Json → Option α) : Json → Option (List α)
  | .list items => items.mapM read
  | _ => none

/-- A present value, or `null`. -/
def toOption? {α : Type} (read : Json → Option α) : Json → Option (Option α)
  | .null => some none
  | j => (read j).map some

/-- Any object; of several fields with one name the last one counts. -/
def toDict? {α : Type} (read : Json → Option α) : Json → Option (Dict α)
  | .object fields => (fields.mapM fun e => (read e.2).map (e.1, ·)).map Dict.ofList
  | _ => none

/-- The fields found in a structured value. -/
structure Record where
  /-- Whether fields were given by name, and not by their place in a list. -/
  named : Bool
  fields : List (String × Json)

/-- Whether every name occurs at most once among the fields. -/
def distinctNames : List (String × Json) → Bool
  | [] => true
  | (name, _) :: rest => !rest.any (·.1 = name) && distinctNames rest

/-- Reads the fields of a structured value with the given field names. A closed value has no other
fields; in an open one they are passed over. -/
def toRecord? (names : List String) (closed : Bool) : Json → Option Record
  | .object fields =>
    let known := fields.filter (names.contains ·.1)
    if distinctNames known && (!closed || fields.all (names.contains ·.1)) then
      some ⟨true, known⟩
    else none
  | .list items =>
    if items.length ≤ names.length then some ⟨false, names.zip items⟩ else none
  | _ => none

namespace Record

def find? (r : Record) (name : String) : Option Json :=
  r.fields.lookup name

/-- A field that has to be there. -/
def required {α : Type} (r : Record) (name : String) (read : Json → Option α) : Option α :=
  (r.find? name).bind read

/-- A field that may be left out by name, or be `null`. -/
def optional {α : Type} (r : Record) (name : String) (read : Json → Option α) :
    Option (Option α) :=
  match r.find? name with
  | some j => toOption? read j
  | none => if r.named then some none else none

/-- A field that has a default when it is left out. -/
def withDefault {α : Type} (r : Record) (name : String) (default : α)
    (read : Json → Option α) : Option α :=
  match r.find? name with
  | some j => read j
  | none => some default

end Record

end Json

end Retrofit
