import Retrofit.Json.Basic
import Retrofit.Number
import Retrofit.Text.Digits

/-!
# JSON text

`Json.parse?` reads a text in the strict grammar: one value, blanks around tokens, nothing after it.
A number without fraction and exponent is a whole number if a 64-bit word, signed or unsigned, holds
it, and otherwise the nearest double. Some of what the grammar allows holds no value and is
`unreadable`: a number beyond the doubles, a text with half of a surrogate pair, an object with such
a name, and a list or an object within 127 others. `Json.render` writes a tree without blanks, given
how its doubles are written.
-/

namespace Retrofit.Json

/-! ## Reading -/

def isBlank (c : Char) : Bool :=
  c = ' ' || c = '\n' || c = '\t' || c = '\r'

def skipBlanks (cs : List Char) : List Char :=
  cs.dropWhile isBlank

/-- The double nearest to `digits · 10 ^ exponent`, unless it is beyond the greatest double. -/
def nearestDouble? (digits : List Char) (exponent : Int) : Option Float :=
  let significant := digits.dropWhile (· = '0')
  let magnitude := (significant.length : Int) + exponent
  if significant.isEmpty then some 0.0
  else if 310 < magnitude then none
  else if magnitude < -330 then some 0.0
  else
    let x :=
      Float.ofScientific (Text.decimalValue significant) (decide (exponent < 0)) exponent.natAbs
    if x.isFinite then some x else none

/-- A double with its sign, or a number beyond the doubles. -/
def signedDouble (negative : Bool) : Option Float → Json
  | some x => .float (if negative then -x else x)
  | none => .unreadable

/-- A whole number as a value: `-0` and numbers beyond 64 bits are doubles. -/
def wholeNumber (negative : Bool) (digits : List Char) : Json :=
  let size := Text.decimalValue digits
  let double := signedDouble negative (nearestDouble? digits 0)
  if negative then
    if 0 < size ∧ size ≤ 9223372036854775808 then .int (-(size : Int)) else double
  else if size < 18446744073709551616 then .int size else double

/-- The digits after a point, if there is one; a point without a digit is refused. -/
def parseFraction : List Char → Option (Option (List Char) × List Char)
  | '.' :: rest =>
    let digits := rest.takeWhile Char.isDigit
    if digits.isEmpty then none else some (some digits, rest.dropWhile Char.isDigit)
  | rest => some (none, rest)

/-- The sign that may stand before an exponent. -/
def exponentSign : List Char → Bool × List Char
  | '-' :: rest => (true, rest)
  | '+' :: rest => (false, rest)
  | rest => (false, rest)

/-- The exponent, if there is one; a letter without a digit is refused. -/
def parseExponent : List Char → Option (Option Int × List Char)
  | c :: rest =>
    if c = 'e' || c = 'E' then
      let (negative, rest) := exponentSign rest
      let digits := rest.takeWhile Char.isDigit
      let size : Int := Text.decimalValue digits
      if digits.isEmpty then none
      else some (some (if negative then -size else size), rest.dropWhile Char.isDigit)
    else some (none, c :: rest)
  | [] => some (none, [])

/-- A number without its sign. Several digits do not start with a zero. -/
def parseUnsigned (negative : Bool) (cs : List Char) : Option (Json × List Char) := do
  let whole := cs.takeWhile Char.isDigit
  let rest := cs.dropWhile Char.isDigit
  if whole.isEmpty || (whole.head? = some '0' && 1 < whole.length) then failure
  let (fraction, rest) ← parseFraction rest
  let (exponent, rest) ← parseExponent rest
  match fraction, exponent with
  | none, none => return (wholeNumber negative whole, rest)
  | _, _ =>
    let places := fraction.getD []
    let x := nearestDouble? (whole ++ places) (exponent.getD 0 - places.length)
    return (signedDouble negative x, rest)

def parseNumber : List Char → Option (Json × List Char)
  | '-' :: rest => parseUnsigned true rest
  | cs => parseUnsigned false cs

def parseHex4 : List Char → Option (Nat × List Char)
  | a :: b :: c :: d :: rest => do
    let a ← Text.hexValue? a
    let b ← Text.hexValue? b
    let c ← Text.hexValue? c
    let d ← Text.hexValue? d
    return (a * 4096 + b * 256 + c * 16 + d, rest)
  | _ => none

/-- The second of two surrogates. -/
def parseSecondSurrogate : List Char → Option (Nat × List Char)
  | '\\' :: 'u' :: rest => (parseHex4 rest).filter fun r => 0xDC00 ≤ r.1 && r.1 ≤ 0xDFFF
  | _ => none

/-- A character given by its number. Characters beyond 16 bits are given as two surrogates; a
surrogate alone is no character. -/
def parseUnicode (cs : List Char) : Option (Option Char × List Char) := do
  let (first, rest) ← parseHex4 cs
  if first < 0xD800 || 0xDFFF < first then return (some (Char.ofNat first), rest)
  else if 0xDC00 ≤ first then return (none, rest)
  else
    match parseSecondSurrogate rest with
    | some (second, rest) =>
      return (some (Char.ofNat (0x10000 + (first - 0xD800) * 1024 + (second - 0xDC00))), rest)
    | none => return (none, rest)

/-- The character named by a letter after a backslash. -/
def escaped? : Char → Option Char
  | '"' => some '"'
  | '\\' => some '\\'
  | '/' => some '/'
  | 'b' => some '\x08'
  | 'f' => some '\x0c'
  | 'n' => some '\n'
  | 'r' => some '\r'
  | 't' => some '\t'
  | _ => none

/-- The characters up to the closing quote, in reverse before those already read; nothing once a
surrogate has stood alone. The fuel is the number of characters. -/
def parseChars : (fuel : Nat) → Option (List Char) → List Char →
    Option (Option (List Char) × List Char)
  | 0, _, _ => none
  | fuel + 1, done, cs =>
    let next (c : Char) := done.map (c :: ·)
    match cs with
    | '"' :: rest => some (done, rest)
    | '\\' :: 'u' :: rest =>
      match parseUnicode rest with
      | some (c, rest) => parseChars fuel (c.bind next) rest
      | none => none
    | '\\' :: c :: rest =>
      match escaped? c with
      | some c => parseChars fuel (next c) rest
      | none => none
    | c :: rest => if c < ' ' then none else parseChars fuel (next c) rest
    | [] => none

/-- A quoted text, from its opening quote on; nothing in place of one with a surrogate alone. -/
def parseText : List Char → Option (Option String × List Char)
  | '"' :: rest => do
    let (chars, rest) ← parseChars (rest.length + 1) (some []) rest
    return (chars.map fun chars => String.ofList chars.reverse, rest)
  | _ => none

def ofReadable {α : Type} (build : α → Json) : Option α → Json
  | some value => build value
  | none => .unreadable

mutual

/-- A value from its first character on. The depth is the number of lists and objects that may
still be opened before they are unreadable. -/
def parseValue : (fuel depth : Nat) → List Char → Option (Json × List Char)
  | 0, _, _ => none
  | fuel + 1, depth, cs =>
    match cs with
    | 'n' :: 'u' :: 'l' :: 'l' :: rest => some (.null, rest)
    | 't' :: 'r' :: 'u' :: 'e' :: rest => some (.bool true, rest)
    | 'f' :: 'a' :: 'l' :: 's' :: 'e' :: rest => some (.bool false, rest)
    | '"' :: _ => (parseText cs).map fun r => (ofReadable .text r.1, r.2)
    | '[' :: rest =>
      let whole (items : List Json) : Json := if depth = 0 then .unreadable else .list items
      match skipBlanks rest with
      | ']' :: rest => some (whole [], rest)
      | rest => (parseItems fuel (depth - 1) [] rest).map fun r => (whole r.1, r.2)
    | '{' :: rest =>
      let whole (fields : Option (List (String × Json))) : Json :=
        if depth = 0 then .unreadable else ofReadable .object fields
      match skipBlanks rest with
      | '}' :: rest => some (whole (some []), rest)
      | rest => (parseFields fuel (depth - 1) (some []) rest).map fun r => (whole r.1, r.2)
    | _ => parseNumber cs

/-- The items of a list from the first one on, to its closing bracket. -/
def parseItems : (fuel depth : Nat) → List Json → List Char → Option (List Json × List Char)
  | 0, _, _, _ => none
  | fuel + 1, depth, done, cs =>
    match parseValue fuel depth cs with
    | none => none
    | some (item, rest) =>
      match skipBlanks rest with
      | ',' :: rest => parseItems fuel depth (item :: done) (skipBlanks rest)
      | ']' :: rest => some ((item :: done).reverse, rest)
      | _ => none

/-- The fields of an object from the first name on, to its closing bracket; nothing once a name was
not readable. -/
def parseFields : (fuel depth : Nat) → Option (List (String × Json)) → List Char →
    Option (Option (List (String × Json)) × List Char)
  | 0, _, _, _ => none
  | fuel + 1, depth, done, cs =>
    match parseText cs with
    | none => none
    | some (name, rest) =>
      match skipBlanks rest with
      | ':' :: rest =>
        match parseValue fuel depth (skipBlanks rest) with
        | none => none
        | some (value, rest) =>
          let done := do return (← name, value) :: (← done)
          match skipBlanks rest with
          | ',' :: rest => parseFields fuel depth done (skipBlanks rest)
          | '}' :: rest => some (done.map List.reverse, rest)
          | _ => none
      | _ => none

end

/-- Reads a text that holds exactly one value. Every second step of the reader passes a character,
which bounds its fuel. -/
def parse? (s : String) : Option Json :=
  let cs := s.toList
  match parseValue (2 * cs.length + 2) 127 (skipBlanks cs) with
  | some (value, rest) => if (skipBlanks rest).isEmpty then some value else none
  | none => none

/-! ## Writing -/

/-- A character within quotes: quotes, backslashes and control characters are escaped. -/
def escape (c : Char) : List Char :=
  if c = '"' then ['\\', '"']
  else if c = '\\' then ['\\', '\\']
  else if c < ' ' then
    ['\\', 'u', '0', '0', Text.hexDigit (c.toNat / 16), Text.hexDigit (c.toNat % 16)]
  else [c]

def quote (s : String) : String :=
  "\"" ++ String.ofList (s.toList.flatMap escape) ++ "\""

mutual

/-- Writes a tree without blanks. What holds no value is written as `null`. -/
def render (double : Float → String) : Json → String
  | .null => "null"
  | .bool true => "true"
  | .bool false => "false"
  | .int n => toString n
  | .float x => double x
  | .text s => quote s
  | .unreadable => "null"
  | .list items => "[" ++ ",".intercalate (renderItems double items) ++ "]"
  | .object fields => "\x7b" ++ ",".intercalate (renderFields double fields) ++ "\x7d"

def renderItems (double : Float → String) : List Json → List String
  | [] => []
  | item :: rest => render double item :: renderItems double rest

def renderFields (double : Float → String) : List (String × Json) → List String
  | [] => []
  | (name, value) :: rest =>
    (quote name ++ ":" ++ render double value) :: renderFields double rest

end

end Retrofit.Json
