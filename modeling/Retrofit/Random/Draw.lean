import Retrofit.Number

/-!
# Random draws

Everything random in this library is drawn from a source of 32-bit words, which is an argument of
the algorithms: a law about an algorithm can be stated for every source. A draw is a function of
the state of its source. Draws by rejection stop after `retries` refusals with the least value of
their range, so that each is a total function. A draw between two numbers whose distance is beyond
the doubles is broken off (`DrawError`).
-/

namespace Retrofit.Random

/-- A state from which 32-bit words are taken one after the other. -/
class Source (γ : Type) where
  next : γ → UInt32 × γ

/-- A random value together with the state that its source is left in. -/
abbrev Draw (γ α : Type) := StateM γ α

/-- Why a draw is broken off. -/
inductive DrawError where
  /-- The width of the range is beyond the doubles. -/
  | rangeOverflow
deriving DecidableEq

def DrawError.message : DrawError → String
  | rangeOverflow => "range overflow"

/-- A draw that may be broken off. -/
abbrev DrawAttempt (γ α : Type) := ExceptT DrawError (StateM γ) α

/-- Repeats a draw, up to the first that is broken off. -/
def several {γ α : Type} (draw : DrawAttempt γ α) : (count : Nat) → DrawAttempt γ (List α)
  | 0 => pure []
  | count + 1 => do
    let first ← draw
    let others ← several draw count
    return first :: others

variable {γ : Type} [Source γ]

def word32 : Draw γ Nat := fun state =>
  let (word, state) := Source.next state
  (word.toNat, state)

/-- Two words, the low half first. -/
def word64 : Draw γ Nat := do
  let low ← word32
  let high ← word32
  return low + 4294967296 * high

/-- How often a draw by rejection is repeated. Each repetition is refused with probability at most
one half. -/
def retries : Nat := 1024

/-- Takes words until one is accepted. -/
def untilSome {α : Type} (word : Draw γ Nat) (accept : Nat → Option α) (fallback : α) :
    (fuel : Nat) → Draw γ α
  | 0 => pure fallback
  | fuel + 1 => do
    let w ← word
    match accept w with
    | some value => pure value
    | none => untilSome word accept fallback fuel

/-- The high half of the product of a word and a width, unless the low half lies beyond the zone
in which all values are equally likely. -/
def scaled? (bits width zone word : Nat) : Option Nat :=
  if word * width % (1 <<< bits) ≤ zone then some ((word * width) >>> bits) else none

/-- The zone of the greatest multiple of the width by a power of two. -/
def shiftedZone (bits width : Nat) : Nat :=
  width <<< (bits - 1 - Nat.log2 width) - 1

/-- The zone of the greatest multiple of the width. -/
def fullZone (bits width : Nat) : Nat :=
  1 <<< bits - 1 - (1 <<< bits - width) % width

/-- A number below a positive width, from 32-bit words. -/
def below32 (width : Nat) : Draw γ Nat :=
  untilSome word32 (scaled? 32 width (shiftedZone 32 width)) 0 retries

/-- A number below a positive width, from 64-bit words. -/
def below64 (width : Nat) : Draw γ Nat :=
  untilSome word64 (scaled? 64 width (shiftedZone 64 width)) 0 retries

/-- A whole number in `[low, high]` within the signed 64-bit words. When the range is the whole of
them, a word is taken as it is, in two's complement. -/
def integer (low high : Int) : Draw γ Int :=
  let width := (high - low + 1).toNat
  if width < 18446744073709551616 then do
    let offset ← below64 width
    return low + offset
  else do
    let word ← word64
    return Int.bmod word 18446744073709551616

/-- True with the given probability. Certainty draws nothing, impossibility draws a word. -/
def chance (probability : Float) : Draw γ Bool :=
  if probability == 1.0 then pure true
  else do
    let word ← word64
    return word < (probability * 18446744073709551616.0).toUInt64.toNat

/-- A multiple of `2 ^ -52` in `[0, 1)`. -/
def unit : Draw γ Float := do
  let word ← word64
  return Float.ofBits (0x3ff0000000000000 + UInt64.ofNat (word / 4096)) - 1.0

/-- The greatest value of `unit`. -/
def greatestUnit : Float := Float.ofBits 0x3feffffffffffffe

/-- The first scale, from the one with the given bits downwards, that the greatest unit value does
not take above the range. -/
def scaleWithin (low high : Float) : (bits : Nat) → Float
  | 0 => 0.0
  | bits + 1 =>
    let scale := Float.ofBits (UInt64.ofNat (bits + 1))
    if high < scale * greatestUnit + low then scaleWithin low high bits else scale

/-- A number in `[low, high]`. -/
def between (low high : Float) : DrawAttempt γ Float :=
  let width := (high - low) / greatestUnit
  if width.isFinite then do
    let u ← (unit : Draw γ Float)
    return u * scaleWithin low high width.toBits.toNat + low
  else throw .rangeOverflow

end Retrofit.Random
