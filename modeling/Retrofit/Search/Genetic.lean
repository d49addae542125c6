import Retrofit.Pareto.Front
import Retrofit.Search.Nsga2

/-!
# The genetic algorithm

An elitist search for one objective. The population is sorted by fitness; the elite stays, and the
other places go to children. What is reported is the best front of the last population on all the
requested objectives.
-/

namespace Retrofit

open Retrofit.Random

namespace Genetic

structure Settings where
  populationSize : Nat
  /-- Evaluated generations, the first population included. -/
  generations : Nat
  mutationRate : Option Float
  crossoverRate : Float
  elitismRate : Float
  tournamentSize : Nat
  /-- What is optimised; by default the first objective requested. -/
  objective : Option Objective
  seed : Option Nat
  maxConcurrency : Nat
  recordHistory : Bool
deriving DecidableEq

namespace Settings

def default (processors : Nat) : Settings where
  populationSize := 20
  generations := 10
  mutationRate := none
  crossoverRate := 0.9
  elitismRate := 0.1
  tournamentSize := 3
  objective := none
  seed := none
  maxConcurrency := processors
  recordHistory := true

def eliteCount (s : Settings) : Nat :=
  Number.toCount (Number.ofInt s.populationSize * s.elitismRate)

def check (s : Settings) : Except ParameterError Unit :=
  if s.populationSize = 0 ∨ s.generations = 0 then
    .error (.notPositive "population_size and generations")
  else if s.tournamentSize = 0 ∨ s.maxConcurrency = 0 then
    .error (.notPositive "tournament_size and max_concurrency")
  else if !Nsga2.isRate s.crossoverRate then .error (.notRate "crossover_rate")
  else if !Nsga2.isRate s.elitismRate then .error (.notRate "elitism_rate")
  else if !(s.mutationRate.all Nsga2.isRate) then .error (.notRate "mutation_rate")
  else if s.populationSize ≤ s.eliteCount then .error .onlyElite
  else .ok ()

/-- The probability that one of the given number of genes mutates. -/
def mutationRateFor (s : Settings) (genes : Nat) : Float :=
  s.mutationRate.getD (1.0 / Number.ofInt (max genes 1))

end Settings

/-- What a solution is sorted by: the violation, then the cost, of which an undefined one is the
worst. -/
def fitness (o : Objective) (s : PortfolioSolution) : Int × Int :=
  let cost := (o.cost (s.metric o)).value
  (Number.rank (Number.larger s.violation 0.0),
    Number.rank (if cost.isNaN then Number.infinity else cost))

/-- Whether a solution may stand before another. -/
def fitter (o : Objective) (s t : PortfolioSolution) : Bool :=
  let (a, b) := (fitness o s, fitness o t)
  a.1 < b.1 || (a.1 = b.1 && a.2 ≤ b.2)

structure Individual where
  chromosome : Chromosome
  solution : PortfolioSolution

/-- The fittest individuals, the best first, as many as there are places. -/
def fittest (o : Objective) (places : Nat) (individuals : List Individual) : List Individual :=
  (individuals.mergeSort fun a b => fitter o a.solution b.solution).take places

variable {γ : Type} [Source γ]

/-- A child of two parents that won a tournament each. In a sorted population the first contestant
wins. -/
def child (s : Settings) (genes : List Gene) (population : Array Individual) :
    DrawAttempt γ Chromosome := do
  let better (a b : Nat) := decide (a < b)
  let parent k := match population[k]? with
    | some i => i.chromosome
    | none => []
  let pick : Draw γ Nat := tournament population.size s.tournamentSize better
  let first ← pick
  let second ← pick
  let mixed ← (Chromosome.crossover genes s.crossoverRate (parent first) (parent second) :
    Draw γ Chromosome)
  Chromosome.mutate (s.mutationRateFor genes.length) genes mixed

/-- Children for all places but those of the elite. -/
def brood (s : Settings) (genes : List Gene) (population : List Individual) :
    DrawAttempt γ (List Chromosome) :=
  several (child s genes population.toArray) (s.populationSize - s.eliteCount)

/-- The first chromosomes: seeds, then random ones up to the number of places. -/
def firstBrood (s : Settings) (genes : List Gene) (seeds : List Chromosome) :
    DrawAttempt γ (List Chromosome) := do
  let kept := seeds.take s.populationSize
  let others ← several (Chromosome.random genes) (s.populationSize - kept.length)
  return kept ++ others

def summarise (generation evaluations : Nat) (objectives : List Objective)
    (population : List Individual) : GenerationSummary :=
  let solutions := population.map (·.solution)
  .ofPopulation generation (paretoSet objectives solutions).length evaluations objectives solutions

/-- Evaluates new chromosomes beside the elite and keeps the fittest. -/
def select {τ : Type} (p : Problem τ) (s : Settings) (o : Objective) (elite : List Individual)
    (chromosomes : List Chromosome) (evaluator : Evaluator τ := p.evaluateAll) :
    Search τ (List Individual) := do
  let solutions ← evaluator chromosomes
  return fittest o s.populationSize
    (elite ++ chromosomes.zipWith (fun chromosome solution => ⟨chromosome, solution⟩) solutions)

/-- Runs one generation on new chromosomes, then the remaining ones on their children. -/
def breed {τ : Type} (p : Problem τ) (s : Settings) (objectives : List Objective) (o : Objective) :
    (remaining generation : Nat) → γ → List Individual → List Chromosome →
      (evaluator : Evaluator τ := p.evaluateAll) → Search τ (List Individual × List GenerationSummary)
  | remaining, generation, source, elite, chromosomes, evaluator => do
    let population ← select p s o elite chromosomes evaluator
    let evaluations ← p.spent
    let summary := summarise generation evaluations objectives population
    match remaining with
    | 0 => return (population, [summary])
    | remaining + 1 =>
      let (children, source) ← Search.draw (brood s p.genes population) source
      let (last, later) ← breed p s objectives o remaining (generation + 1) source
        (population.take s.eliteCount) children evaluator
      return (last, summary :: later)

/-- Evolves a population from some seeds towards one objective. -/
def evolve {τ : Type} (p : Problem τ) (s : Settings) (objectives : List Objective) (o : Objective)
    (seeds : List Chromosome) (source : γ) (evaluator : Evaluator τ := p.evaluateAll) :
    Search τ (List Individual × List GenerationSummary) := do
  let (chromosomes, source) ← Search.draw (firstBrood s p.genes seeds) source
  breed p s objectives o (s.generations - 1) 0 source [] chromosomes evaluator

def run {σ : Type} (engine : Engine σ γ) (s : Settings) (request : Request)
    (pool : Pool σ := engine.oneByOne) : Search (Cache σ) OptimisationResult :=
  match s.objective.or request.objectives.head?, s.check with
  | none, _ => throw .noObjectives
  | some _, .error reason => throw (.badParameter reason)
  | some o, .ok () => Trial.run do
    let prepared ← PortfolioProblem.build engine.simulate request.portfolio request.constraints
    let problem := prepared.problem engine.simulate
    let (last, history) ← evolve problem s request.objectives o (prepared.seeds request.existing)
      (engine.source s.seed) (pool s.maxConcurrency prepared)
    let front := bestFront request.objectives (last.map (·.solution))
    let evaluations ← problem.spent
    engine.report (paretoSet request.objectives front) evaluations
      (if s.recordHistory then some history else none)

end Genetic

end Retrofit
