/-!
# Rules for double-precision numbers

The numbers of this library are `Float`s. This module fixes the rules that plain
arithmetic leaves open: the total order used for sorting (`rank`), the larger of two numbers when
one is undefined (`larger`), clamping, rounding to whole numbers and counting.
-/

namespace Retrofit.Number

def infinity : Float := 1.0 / 0.0

/-- The number that stands for an undefined value. -/
def undefined : Float := 0.0 / 0.0

/-- Place of a number in the total order
`-∞ < … < -0.0 < 0.0 < … < +∞ < undefined`. Different numbers have different places. -/
def rank (x : Float) : Int :=
  let bits := x.toBits
  if bits < 0x8000000000000000 then (bits.toNat : Int)
  else -((bits - 0x8000000000000000).toNat : Int) - 1

/-- The larger of two numbers; an undefined one loses to the other. -/
def larger (x y : Float) : Float :=
  if x.isNaN || x < y then y else x

/-- Pulls a number into `[low, high]`; an undefined number stays undefined. -/
def clamp (x low high : Float) : Float :=
  let raised := if x < low then low else x
  if high < raised then high else raised

/-- Rounds to the nearest whole number, halves away from zero, and keeps the sign of a zero. -/
def round (x : Float) : Float :=
  let size := x.abs
  if size < 4503599627370496.0 then
    let whole := size.toUInt64.toFloat
    let rounded := if 0.5 ≤ size - whole then whole + 1.0 else whole
    if x.toBits < 0x8000000000000000 then rounded else -rounded
  else x

/-- The whole part of a number that is not negative; `0` for negative and undefined numbers. -/
def toCount (x : Float) : Nat :=
  x.toUInt64.toNat

/-- The number nearest to a whole number, ties to even. -/
def ofInt (n : Int) : Float :=
  Float.ofInt n

/-- The sum of a list from left to right. -/
def sum (xs : List Float) : Float :=
  xs.foldl (· + ·) 0.0

end Retrofit.Number
