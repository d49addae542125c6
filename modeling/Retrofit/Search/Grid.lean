import Retrofit.Pareto.Front
import Retrofit.Search.Threads

/-!
# Grid search

Every gene takes the values of an axis: all whole numbers of its range, or evenly spaced numbers
from bound to bound. If the grid has few enough points all of them are evaluated, in lexicographic
order; otherwise different points are drawn at random, unless they are too many to be kept.
-/

namespace Retrofit

open Retrofit.Random

namespace Grid

structure Settings where
  /-- The most points that are evaluated. -/
  maxEvaluations : Nat
  /-- The number of values of a continuous gene. -/
  continuousSteps : Nat
  seed : Option Nat
  maxConcurrency : Nat
deriving DecidableEq

namespace Settings

def default (processors : Nat) : Settings where
  maxEvaluations := 1000
  continuousSteps := 5
  seed := none
  maxConcurrency := processors

def check (s : Settings) : Except ParameterError Unit :=
  if s.maxEvaluations = 0 then .error (.notPositive "max_evaluations")
  else if s.continuousSteps = 0 then .error (.notPositive "continuous_steps")
  else if s.maxConcurrency = 0 then .error (.notPositive "max_concurrency")
  else .ok ()

end Settings

/-- The values of a gene on the grid, by their places. -/
structure Axis where
  gene : Gene
  size : Nat

namespace Axis

def ofGene (continuousSteps : Nat) (gene : Gene) : Axis :=
  match gene with
  | .integer lower upper => ⟨gene, (upper - lower + 1).toNat⟩
  | .continuous _ _ => ⟨gene, continuousSteps⟩

/-- The value at a place. The last place of a continuous axis is the upper bound itself. -/
def value (axis : Axis) (k : Nat) : Float :=
  match axis.gene with
  | .integer lower _ => Number.ofInt (lower + k)
  | .continuous lower upper =>
    if axis.size = 1 then lower
    else if k + 1 = axis.size then upper
    else lower + (upper - lower) / Number.ofInt ((axis.size : Int) - 1) * Number.ofInt k

def values (axis : Axis) : List Float :=
  (List.range axis.size).map axis.value

end Axis

def size (axes : List Axis) : Nat :=
  axes.foldr (fun axis rest => axis.size * rest) 1

/-- All points in lexicographic order of their places. -/
def allPoints : List Axis → List Chromosome
  | [] => [[]]
  | axis :: rest => axis.values.flatMap fun x => (allPoints rest).map (x :: ·)

def pointAt (axes : List Axis) (places : List Nat) : Chromosome :=
  axes.zipWith (·.value ·) places

variable {γ : Type} [Source γ]

def drawPlaces (axes : List Axis) : Draw γ (List Nat) :=
  axes.mapM fun axis => below64 axis.size

/-- Draws places until `missing` more are found that are new, at most `tries` times. The places are
kept in reverse. -/
def drawNew (axes : List Axis) : (tries missing : Nat) → List (List Nat) → Draw γ (List (List Nat))
  | 0, _, drawn => pure drawn
  | _, 0, drawn => pure drawn
  | tries + 1, missing + 1, drawn => do
    let places ← drawPlaces axes
    if drawn.contains places then drawNew axes tries (missing + 1) drawn
    else drawNew axes tries missing (places :: drawn)

/-- All points if there are at most `limit`, otherwise up to `limit` different ones. -/
def points (axes : List Axis) (limit : Nat) : Draw γ (List Chromosome) :=
  if size axes ≤ limit then pure (allPoints axes)
  else do
    let drawn ← drawNew axes (20 * limit) limit []
    return drawn.reverse.map (pointAt axes)

/-- The most points that may be drawn; memory has no room to tell more of them apart. -/
def mostDrawn : Nat := 1 <<< 57

def run {σ : Type} (engine : Engine σ γ) (s : Settings) (request : Request)
    (pool : Pool σ := engine.oneByOne) : Search (Cache σ) OptimisationResult :=
  if request.objectives.isEmpty then throw .noObjectives
  else match s.check with
  | .error reason => throw (.badParameter reason)
  | .ok () => Trial.run do
    let prepared ← PortfolioProblem.build engine.simulate request.portfolio request.constraints
    let problem := prepared.problem engine.simulate
    let axes := problem.genes.map (Axis.ofGene s.continuousSteps)
    if mostDrawn < s.maxEvaluations ∧ s.maxEvaluations < size axes then
      throw (.crashed "capacity overflow")
    let chosen := ((points axes s.maxEvaluations).run (engine.source s.seed)).1
    let evaluated ← pool s.maxConcurrency prepared chosen
    let evaluations ← problem.spent
    let front := bestFront request.objectives evaluated
    let summary := GenerationSummary.ofPopulation 0 front.length evaluations request.objectives
      evaluated
    engine.report (paretoSet request.objectives front) evaluations (some [summary])

end Grid

end Retrofit
