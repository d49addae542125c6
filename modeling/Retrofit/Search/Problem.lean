import Retrofit.Result
import Retrofit.Search.Variation
import Retrofit.Simulation.Cache
import Retrofit.Space.Space

/-!
# What a search works on

A `Problem` is all that an evolutionary search sees: the genes, and a way to evaluate a chromosome.
Evaluations run in a state; a failing one ends the search and leaves the state as it is.
`PortfolioProblem` is the problem of a set of sites over the evaluation cache: it counts the
candidates that needed at least one call of the simulator.

A search evaluates its candidates in batches. `Problem.evaluateAll` is what one thread makes of a
batch: the candidates in order, up to the first failure. How several threads share a batch is in
`Retrofit.Search.Threads`.
-/

namespace Retrofit

/-- Steps over a state that may end the search. -/
abbrev Search (τ α : Type) := ExceptT SearchError (StateM τ) α

/-- Takes a draw from a source and gives the source back. A draw that is broken off ends the
search. -/
def Search.draw {γ τ α : Type} (attempt : Random.DrawAttempt γ α) (source : γ) :
    Search τ (α × γ) :=
  match attempt.run source with
  | (.ok value, source) => pure (value, source)
  | (.error reason, _) => throw (.crashed reason.message)

/-- A way of evaluating a batch of candidates. -/
abbrev Evaluator (τ : Type) := List Chromosome → Search τ (List PortfolioSolution)

/-- What is optimised, over a state `τ`. -/
structure Problem (τ : Type) where
  genes : List Gene
  evaluate : Chromosome → Search τ PortfolioSolution
  /-- The number of candidates so far that had to be simulated. -/
  evaluations : τ → Nat

namespace Problem

variable {τ : Type}

/-- Evaluates one candidate after the other on one thread, up to the first failure. -/
def evaluateAll (p : Problem τ) (candidates : List Chromosome) :
    Search τ (List PortfolioSolution) :=
  candidates.mapM p.evaluate

/-- The number of evaluations at this point of the search. -/
def spent (p : Problem τ) : Search τ Nat := do
  let state ← get
  return p.evaluations state

end Problem

/-- The state of a search over a cache: the cache, and how many candidates were simulated. -/
structure Trial (σ : Type) where
  cache : Cache σ
  evaluations : Nat

/-- How a fault of the simulator ends a search. -/
def Fault.toSearchError (siteId : String) : Fault → SearchError
  | failed cause => .simulation siteId cause
  | crashed cause => .crashed cause

namespace Trial

variable {σ : Type}

/-- Asks the cache for the result of a site's scenario. -/
def ask (simulate : Simulator σ) (siteId : String) (scenario : Scenario) :
    Search (Trial σ) (Totals Amount × Bool) := fun trial =>
  match Cache.evaluate simulate scenario trial.cache with
  | (.ok answer, cache) => (.ok answer, { trial with cache })
  | (.error fault, cache) => (.error (fault.toSearchError siteId), { trial with cache })

/-- Counts a candidate that had to be simulated. -/
def count : Search (Trial σ) Unit :=
  modify fun trial => { trial with evaluations := trial.evaluations + 1 }

/-- Runs a search on a cache, with its own count of candidates. -/
def run {α : Type} (search : Search (Trial σ) α) : Search (Cache σ) α := fun cache =>
  let (outcome, trial) := ExceptT.run search ⟨cache, 0⟩
  (outcome, trial.cache)

end Trial

/-- A site's solution from the outcome of its scenario. -/
def Site.solution (site : Site) (baseline : Totals Amount) (scenario : Scenario)
    (result : Totals Amount) : SiteSolution :=
  let metrics := siteMetrics result baseline
  let violation := site.violation metrics
  { scenario, metrics, result, violation, feasible := violation ≤ 0.0 }

/-- Sites with the outcomes of their baselines, and their search space. -/
structure PortfolioProblem where
  sites : List (Site × Totals Amount)
  space : Space
  constraints : Constraints

namespace PortfolioProblem

variable {σ : Type}

/-- Prepares the sites: their ranges are taken apart, then their baselines are simulated. The
baselines do not count as candidates. -/
def build (simulate : Simulator σ) (portfolio : List Site) (constraints : Constraints) :
    Search (Trial σ) PortfolioProblem := do
  if portfolio.isEmpty then throw .emptyPortfolio
  let space ← liftExcept (Space.ofPortfolio portfolio)
  let sites ← portfolio.mapM fun site => do
    let (baseline, _) ← Trial.ask simulate site.siteId site.baselineScenario
    return (site, baseline)
  return ⟨sites, space, constraints⟩
where
  liftExcept {α : Type} (e : Except SearchError α) : Search (Trial σ) α :=
    match e with
    | .ok value => pure value
    | .error reason => throw reason

/-- Evaluates the scenarios of the sites in order. Of sites with one id the last one stays. The flag
tells whether the simulator was called. -/
def evaluateSites (simulate : Simulator σ) :
    List (Scenario × Site × Totals Amount) → Dict SiteSolution → Bool →
      Search (Trial σ) (Dict SiteSolution × Bool)
  | [], solutions, fresh => return (solutions, fresh)
  | (scenario, site, baseline) :: rest, solutions, fresh => do
    let (result, called) ← Trial.ask simulate site.siteId scenario
    let solution := site.solution baseline scenario result
    evaluateSites simulate rest (solutions.insert site.siteId solution) (fresh || called)

/-- Decodes and evaluates a chromosome. A candidate that is in the cache throughout costs
nothing. -/
def evaluate (simulate : Simulator σ) (p : PortfolioProblem) (chromosome : Chromosome) :
    Search (Trial σ) PortfolioSolution := do
  let work := (p.space.decode chromosome).zip p.sites
  let (solutions, fresh) ← evaluateSites simulate work Dict.empty false
  if fresh then Trial.count
  return .ofSites solutions p.constraints

def problem (simulate : Simulator σ) (p : PortfolioProblem) : Problem (Trial σ) where
  genes := p.space.genes
  evaluate := p.evaluate simulate
  evaluations := (·.evaluations)

/-- The chromosomes of the known solutions that lie in the search space. -/
def seeds (p : PortfolioProblem) (existing : List PortfolioSolution) : List Chromosome :=
  existing.filterMap p.space.encode

end PortfolioProblem

/-- What the searches are given from outside: the simulator, the random source of a seed (or of no
seed), and how long a run takes. -/
structure Engine (σ γ : Type) where
  simulate : Simulator σ
  source : Option Nat → γ
  elapsed : Duration

/-- What is asked of an optimiser. -/
structure Request where
  objectives : List Objective
  constraints : Constraints
  portfolio : List Site
  /-- Known solutions that a search may start from. -/
  existing : List PortfolioSolution

/-- Ends the search unless the outcome is accepted. -/
def Engine.report {σ γ τ : Type} (engine : Engine σ γ) (solutions : List PortfolioSolution)
    (evaluations : Nat) (history : Option (List GenerationSummary)) :
    Search τ OptimisationResult :=
  match OptimisationResult.accept solutions evaluations engine.elapsed history with
  | .ok result => pure result
  | .error reason => throw reason

end Retrofit
