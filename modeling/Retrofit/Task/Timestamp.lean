import Retrofit.Text.Blank
import Retrofit.Text.Digits

/-!
# Timestamps

Moments in universal time, written as in `2024-05-01T12:30:00Z` (RFC 3339). The reader is lenient:
numbers may have blanks around them and no leading zeros, and a blank may stand for the `T`. A
moment with another offset is read as the same moment in universal time, and both its local date and
its date in universal time lie within the years that a moment may have. A second numbered 60 lies
after the end of second 59.
-/

namespace Retrofit

/-- Seconds since the beginning of 1970, and nanoseconds after that. -/
structure Timestamp where
  seconds : Int
  nanos : Nat
deriving DecidableEq

namespace Timestamp

/-- The days from the beginning of 1970 to a day of the Gregorian calendar. Years start in March
here, so that the leap day is the last of a year. -/
def daysOfDate (year month day : Int) : Int :=
  let y := if month ≤ 2 then year - 1 else year
  let era := y / 400
  let yearOfEra := y - era * 400
  let monthFromMarch := (month + 9) % 12
  let dayOfYear := (153 * monthFromMarch + 2) / 5 + day - 1
  let dayOfEra := yearOfEra * 365 + yearOfEra / 4 - yearOfEra / 100 + dayOfYear
  era * 146097 + dayOfEra - 719468

/-- Year, month and day of the Gregorian calendar. -/
def dateOfDays (days : Int) : Int × Int × Int :=
  let z := days + 719468
  let era := z / 146097
  let dayOfEra := z - era * 146097
  let yearOfEra := (dayOfEra - dayOfEra / 1460 + dayOfEra / 36524 - dayOfEra / 146096) / 365
  let dayOfYear := dayOfEra - (365 * yearOfEra + yearOfEra / 4 - yearOfEra / 100)
  let monthFromMarch := (5 * dayOfYear + 2) / 153
  let day := dayOfYear - (153 * monthFromMarch + 2) / 5 + 1
  let month := (monthFromMarch + 2) % 12 + 1
  let year := yearOfEra + era * 400 + if month ≤ 2 then 1 else 0
  (year, month, day)

def isLeapYear (year : Int) : Bool :=
  year % 4 = 0 && (year % 100 != 0 || year % 400 = 0)

def daysInMonth (year month : Int) : Int :=
  if month = 2 then (if isLeapYear year then 29 else 28)
  else if month = 4 || month = 6 || month = 9 || month = 11 then 30
  else 31

/-! ## Reading -/

def skipBlanks (chars : List Char) : List Char :=
  chars.dropWhile Text.isBlank

/-- The number of the leading digits. There is at least one, and at most `most` are taken. -/
def takeDigits (most : Nat) (chars : List Char) : Option (Int × List Char) :=
  let digits := (chars.takeWhile Char.isDigit).take most
  if digits.isEmpty then none
  else some (Text.decimalValue digits, chars.drop digits.length)

/-- A number after blanks. -/
def takeNumber (most : Nat) (chars : List Char) : Option (Int × List Char) :=
  takeDigits most (skipBlanks chars)

/-- A year of at most four digits, or of any number of digits after a sign. -/
def takeYear (chars : List Char) : Option (Int × List Char) :=
  match skipBlanks chars with
  | '+' :: rest => takeDigits rest.length rest
  | '-' :: rest => (takeDigits rest.length rest).map fun (year, rest) => (-year, rest)
  | rest => takeDigits 4 rest

/-- A given character after blanks. -/
def takeMark (mark : Char) (chars : List Char) : Option (List Char) :=
  match skipBlanks chars with
  | c :: rest => if c = mark then some rest else none
  | [] => none

/-- What separates the date from the time. -/
def takeSeparator : List Char → Option (List Char)
  | c :: rest => if c = 'T' || c = 't' || c = ' ' then some rest else none
  | [] => none

/-- The first nine digits of a fraction of a second. -/
def takeFraction : List Char → Option (Nat × List Char)
  | '.' :: rest =>
    let digits := rest.takeWhile Char.isDigit
    let nine := (digits ++ List.replicate 9 '0').take 9
    if digits.isEmpty then none
    else some (Text.decimalValue nine, rest.dropWhile Char.isDigit)
  | rest => some (0, rest)

/-- Exactly two digits. -/
def takeTwoDigits (chars : List Char) : Option (Int × List Char) :=
  if (chars.take 2).length = 2 ∧ (chars.take 2).all Char.isDigit then takeDigits 2 chars else none

/-- Hours and minutes as seconds, with colons or blanks between them. -/
def takeClock (chars : List Char) : Option (Int × List Char) := do
  let (hours, rest) ← takeTwoDigits chars
  let (minutes, rest) ← takeTwoDigits (rest.dropWhile fun c => c = ':' || Text.isBlank c)
  if 24 ≤ hours || 60 ≤ minutes then failure
  return (hours * 3600 + minutes * 60, rest)

/-- The seconds by which local time is ahead. -/
def takeOffset : List Char → Option (Int × List Char)
  | '+' :: rest => takeClock rest
  | '-' :: rest => (takeClock rest).map fun (size, rest) => (-size, rest)
  | '\u2212' :: rest => (takeClock rest).map fun (size, rest) => (-size, rest)
  | 'Z' :: rest | 'z' :: rest => some (0, rest)
  | u :: t :: c :: rest =>
    if [u, t, c].map Char.toUpper = ['U', 'T', 'C'] then some (0, rest) else none
  | _ => none

/-- The first and the last year that a moment may have. -/
def firstYear : Int := -262143

def lastYear : Int := 262142

def isYear (year : Int) : Bool :=
  firstYear ≤ year && year ≤ lastYear

def ofText? (s : String) : Option Timestamp := do
  let (year, rest) ← takeYear s.toList
  let rest ← takeMark '-' rest
  let (month, rest) ← takeNumber 2 rest
  let rest ← takeMark '-' rest
  let (day, rest) ← takeNumber 2 rest
  let rest ← takeSeparator rest
  let (hour, rest) ← takeNumber 2 rest
  let rest ← takeMark ':' rest
  let (minute, rest) ← takeNumber 2 rest
  let rest ← takeMark ':' rest
  let (second, rest) ← takeNumber 2 rest
  let (fraction, rest) ← takeFraction rest
  let (offset, rest) ← takeOffset (skipBlanks rest)
  if !(skipBlanks rest).isEmpty then failure
  if !isYear year then failure
  if month < 1 || 12 < month || day < 1 || daysInMonth year month < day then failure
  if 24 ≤ hour || 60 ≤ minute || 60 < second then failure
  let extra := if second = 60 then 1000000000 else 0
  let shown := if second = 60 then 59 else second
  let seconds := daysOfDate year month day * 86400 + hour * 3600 + minute * 60 + shown - offset
  if !isYear (dateOfDays (seconds / 86400)).1 then failure
  return ⟨seconds, fraction + extra⟩

/-! ## Writing -/

/-- A number with leading zeros. -/
def padded (width : Nat) (n : Nat) : String :=
  let digits := (toString n).toList
  String.ofList (List.replicate (width - digits.length) '0' ++ digits)

/-- Years beyond four digits, and before the year zero, have a sign. -/
def yearText (year : Int) : String :=
  if 0 ≤ year ∧ year ≤ 9999 then padded 4 year.toNat
  else (if year < 0 then "-" else "+") ++ padded 4 year.natAbs

/-- A fraction of a second in as many groups of three digits as it needs. -/
def fractionText (nanos : Nat) : String :=
  if nanos = 0 then ""
  else if nanos % 1000000 = 0 then "." ++ padded 3 (nanos / 1000000)
  else if nanos % 1000 = 0 then "." ++ padded 6 (nanos / 1000)
  else "." ++ padded 9 nanos

def text (t : Timestamp) : String :=
  let (year, month, day) := dateOfDays (t.seconds / 86400)
  let time := (t.seconds % 86400).toNat
  let second := time % 60 + t.nanos / 1000000000
  yearText year ++ "-" ++ padded 2 month.toNat ++ "-" ++ padded 2 day.toNat ++ "T"
    ++ padded 2 (time / 3600) ++ ":" ++ padded 2 (time / 60 % 60) ++ ":" ++ padded 2 second
    ++ fractionText (t.nanos % 1000000000) ++ "Z"

end Timestamp

end Retrofit
