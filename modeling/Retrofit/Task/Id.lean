import Retrofit.Text.Digits

/-!
# Task ids

A task is known by a 128-bit number. It is written as 32 hexadecimal digits in groups, and read in
any case, with or without the groups, also in braces or after `urn:uuid:` in any case.
-/

namespace Retrofit

structure TaskId where
  value : BitVec 128
deriving DecidableEq

namespace TaskId

/-- The last digits of a number, as many as asked for, the lowest one last. -/
def hexDigits : (count : Nat) → Nat → List Char
  | 0, _ => []
  | count + 1, n => hexDigits count (n / 16) ++ [Text.hexDigit (n % 16)]

/-- The sizes of the groups of digits. -/
def groups : List Nat := [8, 4, 4, 4, 12]

/-- Cuts digits into groups, with a hyphen between two of them. -/
def hyphenate : List Nat → List Char → List Char
  | [], digits => digits
  | [_], digits => digits
  | size :: sizes, digits => digits.take size ++ '-' :: hyphenate sizes (digits.drop size)

/-- Takes the hyphens out from between the groups, if they are where they belong. -/
def unhyphenate? : List Nat → List Char → Option (List Char)
  | [], [] => some []
  | [], _ => none
  | [size], chars => if chars.length = size then some chars else none
  | size :: sizes, chars =>
    match chars.drop size with
    | '-' :: rest => (unhyphenate? sizes rest).map (chars.take size ++ ·)
    | _ => none

def text (id : TaskId) : String :=
  String.ofList (hyphenate groups (hexDigits 32 id.value.toNat))

/-- What may stand before an id, in lower case. -/
def leadIn : List Char := "urn:uuid:".toList

/-- The digits of a written id. -/
def digits? (chars : List Char) : Option (List Char) :=
  if (chars.take leadIn.length).map Char.toLower = leadIn then
    unhyphenate? groups (chars.drop leadIn.length)
  else
    match chars with
    | '{' :: rest =>
      if rest.getLast? = some '}' then unhyphenate? groups rest.dropLast else none
    | _ => if chars.length = 32 then some chars else unhyphenate? groups chars

def ofText? (s : String) : Option TaskId := do
  let digits ← digits? s.toList
  let values ← digits.mapM Text.hexValue?
  return ⟨BitVec.ofNat 128 (values.foldl (fun n d => 16 * n + d) 0)⟩

end TaskId

end Retrofit
