import Retrofit.Random.Indices
import Retrofit.Space.Gene

/-!
# Variation of chromosomes

The random steps of the evolutionary searches: a chromosome from nothing, the winner of a
tournament, the child of two parents, and a mutated copy.
-/

namespace Retrofit

open Retrofit.Random

variable {γ : Type} [Source γ]

namespace Chromosome

/-- A random value for every gene. -/
def random (genes : List Gene) : DrawAttempt γ Chromosome :=
  genes.mapM (·.sample)

/-- A value between those of the parents: one of them for a whole number, a mixture otherwise. -/
def blend (gene : Gene) (x y : Float) : Draw γ Float :=
  match gene with
  | .integer _ _ => do
    let first ← chance 0.5
    return if first then x else y
  | .continuous _ _ => do
    let weight ← unit
    return gene.clip (weight * x + (1.0 - weight) * y)

def blendAll : List Gene → Chromosome → Chromosome → Draw γ Chromosome
  | gene :: genes, x :: xs, y :: ys => do
    let child ← blend gene x y
    let rest ← blendAll genes xs ys
    return child :: rest
  | _, _, _ => pure []

/-- With the given probability a mixture of the parents, otherwise a copy of the first. -/
def crossover (genes : List Gene) (rate : Float) (first second : Chromosome) :
    Draw γ Chromosome := do
  let mixed ← chance rate
  if mixed then blendAll genes first second else return first

/-- How far a mutation moves a number, as a part of the range of its gene. -/
def perturbation : Float := 0.1

/-- With the given probability another value: any legal one for a whole number, one nearby
otherwise. -/
def nudge (rate : Float) (gene : Gene) (x : Float) : DrawAttempt γ Float := do
  let mutates ← (chance rate : Draw γ Bool)
  if mutates then
    match gene with
    | .integer _ _ =>
      let value ← gene.sample
      return gene.clip value
    | .continuous lower upper =>
      let reach := perturbation * (upper - lower)
      let step ← between (-reach) reach
      return gene.clip (x + step)
  else return x

def mutate (rate : Float) : List Gene → Chromosome → DrawAttempt γ Chromosome
  | gene :: genes, x :: xs => do
    let value ← nudge rate gene x
    let rest ← mutate rate genes xs
    return value :: rest
  | [], xs => pure xs
  | _, [] => pure []

end Chromosome

/-- The winner among some contestants; an earlier one wins unless a later one is better. -/
def winner (better : Nat → Nat → Bool) : List Nat → Nat
  | [] => 0
  | first :: rest =>
    rest.foldl (fun best challenger => if better challenger best then challenger else best) first

/-- The winner among `k` random members of a population of the given size. At least one member
competes, and nothing is drawn from an empty population. -/
def tournament (size k : Nat) (better : Nat → Nat → Bool) : Draw γ Nat :=
  if size = 0 then pure 0
  else do
    let contestants ← indices size (min (max k 1) size)
    return winner better contestants

end Retrofit
