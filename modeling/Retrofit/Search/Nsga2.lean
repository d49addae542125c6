import Retrofit.Pareto.Crowding
import Retrofit.Search.Threads

/-!
# NSGA-II

Evolution of a population towards the best front. Each generation breeds as many children as there
are places, drops portfolios that occur twice, and keeps the best members: by their front, and
within the front that does not fit by the room around them. `Nsga2.evolve` works on any problem;
`Nsga2.run` is the search over whole portfolios.
-/

namespace Retrofit

open Retrofit.Random

namespace Nsga2

structure Settings where
  populationSize : Nat
  /-- Evaluated generations, the first population included. -/
  generations : Nat
  /-- The probability that a gene mutates; by default one over the number of genes. -/
  mutationRate : Option Float
  crossoverRate : Float
  tournamentSize : Nat
  seed : Option Nat
  maxConcurrency : Nat
  recordHistory : Bool
deriving DecidableEq

def isRate (x : Float) : Bool :=
  0.0 ≤ x && x ≤ 1.0

namespace Settings

def default (processors : Nat) : Settings where
  populationSize := 20
  generations := 10
  mutationRate := none
  crossoverRate := 0.9
  tournamentSize := 2
  seed := none
  maxConcurrency := processors
  recordHistory := true

def check (s : Settings) : Except ParameterError Unit :=
  if s.populationSize = 0 then .error (.notPositive "population_size")
  else if s.generations = 0 then .error (.notPositive "generations")
  else if s.tournamentSize = 0 then .error (.notPositive "tournament_size")
  else if s.maxConcurrency = 0 then .error (.notPositive "max_concurrency")
  else if !isRate s.crossoverRate then .error (.notRate "crossover_rate")
  else if !(s.mutationRate.all isRate) then .error (.notRate "mutation_rate")
  else .ok ()

/-- The probability that one of the given number of genes mutates. -/
def mutationRateFor (s : Settings) (genes : Nat) : Float :=
  s.mutationRate.getD (1.0 / Number.ofInt (max genes 1))

end Settings

/-- A candidate with its place in the population: its front, and the room around it. -/
structure Member where
  chromosome : Chromosome
  solution : PortfolioSolution
  rank : Nat
  crowding : Float

namespace Member

/-- Whether a member is to be preferred as a parent: a better front, or more room in the same. -/
def preferred (a b : Member) : Bool :=
  a.rank < b.rank || (a.rank = b.rank && b.crowding < a.crowding)

end Member

/-- Writes the rank of a front and the room of each of its members. -/
def place (objectives : List Objective) (rank : Nat) (front : List Member) : List Member :=
  front.zipWith (fun m room => { m with rank, crowding := room })
    (crowding (front.map (·.solution.costs objectives)))

/-- Fills the free places from the fronts in order. Of a front that does not fit the members with
the most room are taken. -/
def fill (objectives : List Objective) : (free rank : Nat) → List (List Member) → List Member
  | _, _, [] => []
  | free, rank, front :: rest =>
    if free = 0 then []
    else
      let placed := place objectives rank front
      if placed.length ≤ free then
        placed ++ fill objectives (free - placed.length) (rank + 1) rest
      else
        (placed.mergeSort fun a b => Number.rank b.crowding ≤ Number.rank a.crowding).take free

def survive (objectives : List Objective) (places : Nat) (members : List Member) : List Member :=
  fill objectives places 0 (fronts (·.solution.judgement objectives) members)

/-- Drops members whose portfolios occurred before. -/
def dedupe (members : List Member) : List Member :=
  distinctBy (·.solution.scenarios) members

def evaluate {τ : Type} (p : Problem τ) (chromosomes : List Chromosome)
    (evaluator : Evaluator τ := p.evaluateAll) : Search τ (List Member) := do
  let solutions ← evaluator chromosomes
  return chromosomes.zipWith (fun chromosome solution => ⟨chromosome, solution, 0, 0.0⟩) solutions

def summarise (generation evaluations : Nat) (objectives : List Objective)
    (population : List Member) : GenerationSummary :=
  .ofPopulation generation (population.countP (·.rank = 0)) evaluations objectives
    (population.map (·.solution))

section Breeding

variable {γ : Type} [Source γ]

/-- Whether the member at one position is to be preferred to the member at another. -/
def better (population : Array Member) (a b : Nat) : Bool :=
  match population[a]?, population[b]? with
  | some x, some y => x.preferred y
  | _, _ => false

/-- A child of two parents that won a tournament each. -/
def child (s : Settings) (genes : List Gene) (population : Array Member) :
    DrawAttempt γ Chromosome := do
  let parent k := match population[k]? with
    | some m => m.chromosome
    | none => []
  let pick : Draw γ Nat := tournament population.size s.tournamentSize (better population)
  let first ← pick
  let second ← pick
  let mixed ← (Chromosome.crossover genes s.crossoverRate (parent first) (parent second) :
    Draw γ Chromosome)
  Chromosome.mutate (s.mutationRateFor genes.length) genes mixed

def brood (s : Settings) (genes : List Gene) (population : List Member) :
    DrawAttempt γ (List Chromosome) :=
  several (child s genes population.toArray) s.populationSize

/-- The first chromosomes: the fitting seeds, clipped, then random ones up to the number of
places. -/
def firstBrood (s : Settings) (genes : List Gene) (seeds : List Chromosome) :
    DrawAttempt γ (List Chromosome) := do
  let fitting := (seeds.filter (·.length = genes.length)).map (List.zipWith Gene.clip genes ·)
  let kept := fitting.take s.populationSize
  let others ← several (Chromosome.random genes) (s.populationSize - kept.length)
  return kept ++ others

/-- What evolution ends with. -/
structure Outcome where
  /-- The members of the first front of the last population. -/
  front : List PortfolioSolution
  history : List GenerationSummary

/-- Evaluates new chromosomes beside a population and keeps the best. -/
def select {τ : Type} (p : Problem τ) (s : Settings) (objectives : List Objective)
    (population : List Member) (chromosomes : List Chromosome)
    (evaluator : Evaluator τ := p.evaluateAll) : Search τ (List Member) := do
  let members ← evaluate p chromosomes evaluator
  return survive objectives s.populationSize (dedupe (population ++ members))

/-- Breeds the remaining generations; the summaries are those of the new ones. -/
def breed {τ : Type} (p : Problem τ) (s : Settings) (objectives : List Objective) :
    (remaining generation : Nat) → γ → List Member → (evaluator : Evaluator τ := p.evaluateAll) →
      Search τ (List Member × List GenerationSummary)
  | 0, _, _, population, _ => return (population, [])
  | remaining + 1, generation, source, population, evaluator => do
    let (children, source) ← Search.draw (brood s p.genes population) source
    let population ← select p s objectives population children evaluator
    let evaluations ← p.spent
    let (last, later) ←
      breed p s objectives remaining (generation + 1) source population evaluator
    return (last, summarise generation evaluations objectives population :: later)

/-- Evolves a population from some seeds. With no genes there is nothing to search, and the one
candidate is the outcome. -/
def evolve {τ : Type} (p : Problem τ) (s : Settings) (objectives : List Objective)
    (seeds : List Chromosome) (source : γ) (evaluator : Evaluator τ := p.evaluateAll) :
    Search τ Outcome := do
  if objectives.isEmpty then throw .noObjectives
  match s.check with
  | .error reason => throw (.badParameter reason)
  | .ok () =>
    if p.genes.isEmpty then
      let members ← evaluate p [[]] evaluator
      let evaluations ← p.spent
      return ⟨members.map (·.solution), [summarise 0 evaluations objectives members]⟩
    else
      let (chromosomes, source) ← Search.draw (firstBrood s p.genes seeds) source
      let population ← select p s objectives [] chromosomes evaluator
      let evaluations ← p.spent
      let (last, later) ← breed p s objectives (s.generations - 1) 1 source population evaluator
      return ⟨(last.filter (·.rank = 0)).map (·.solution),
        summarise 0 evaluations objectives population :: later⟩

end Breeding

def run {σ γ : Type} [Source γ] (engine : Engine σ γ) (s : Settings) (request : Request)
    (pool : Pool σ := engine.oneByOne) : Search (Cache σ) OptimisationResult :=
  Trial.run do
    let prepared ← PortfolioProblem.build engine.simulate request.portfolio request.constraints
    let problem := prepared.problem engine.simulate
    let outcome ← evolve problem s request.objectives (prepared.seeds request.existing)
      (engine.source s.seed) (pool s.maxConcurrency prepared)
    let evaluations ← problem.spent
    engine.report (paretoSet request.objectives outcome.front) evaluations
      (if s.recordHistory then some outcome.history else none)

end Nsga2

end Retrofit
