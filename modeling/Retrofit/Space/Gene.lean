import Retrofit.Random.Draw

/-!
# Genes

A gene is the range of one number of a chromosome: whole numbers or all numbers between two bounds.
-/

namespace Retrofit

open Retrofit.Random

inductive Gene where
  | integer (lower upper : Int)
  | continuous (lower upper : Float)
deriving DecidableEq

/-- The numbers chosen for the genes, in their order. -/
abbrev Chromosome := List Float

namespace Gene

variable {γ : Type} [Source γ]

/-- The least value. -/
def lower : Gene → Float
  | integer lower _ => Number.ofInt lower
  | continuous lower _ => lower

/-- The legal value next to a number. -/
def clip : Gene → Float → Float
  | integer lower upper, value =>
    Number.clamp (Number.round value) (Number.ofInt lower) (Number.ofInt upper)
  | continuous lower upper, value => Number.clamp value lower upper

/-- A random value; all values are equally likely. -/
def sample : Gene → DrawAttempt γ Float
  | integer lower upper => do
    let value ← (Random.integer lower upper : Draw γ Int)
    return Number.ofInt value
  | continuous lower upper => between lower upper

end Gene

end Retrofit
