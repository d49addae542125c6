import Retrofit.Search.Separated

/-!
# Site by site, then together

The sites are searched on their own as in the site-by-site search. A second NSGA-II search then
recombines the fronts that were found, under the constraints of the portfolio: it has one gene for
every site, the place of a solution in the site's front, so it simulates nothing.
-/

namespace Retrofit

open Retrofit.Random

namespace Nested

structure Settings where
  separated : Separated.Settings
  portfolio : Nsga2.Settings
deriving DecidableEq

namespace Settings

def default (processors : Nat) : Settings :=
  ⟨.default processors, .default processors⟩

def check (s : Settings) : Except ParameterError Unit := do
  s.separated.check
  s.portfolio.check

end Settings

/-- A site id with the solutions to choose from. -/
structure FrontChoice where
  siteId : String
  front : List SiteSolution

/-- The choice of one solution for every site. -/
structure FrontProblem where
  choices : List FrontChoice
  constraints : Constraints

namespace FrontProblem

def ofFronts (portfolio : List Site) (fronts : List (List SiteSolution))
    (constraints : Constraints) : FrontProblem where
  choices := portfolio.zipWith (fun site front => ⟨site.siteId, front⟩) fronts
  constraints := constraints

def gene (c : FrontChoice) : Gene :=
  .integer 0 ((c.front.length : Int) - 1)

/-- The solution at the place that a gene's value stands for. -/
def pick (c : FrontChoice) (value : Float) : Option (String × SiteSolution) :=
  (c.front[Number.toCount ((gene c).clip value)]?).map (c.siteId, ·)

/-- The combination that a chromosome stands for, if every place is one of its front. -/
def combine? (p : FrontProblem) (chromosome : Chromosome) : Option PortfolioSolution := do
  let picked ← (p.choices.zip chromosome).mapM fun e => pick e.1 e.2
  return .ofSites (Dict.ofList picked) p.constraints

/-- The problem over a state that it leaves alone; `evaluations` were made before. A place beyond
its front breaks the search off. -/
def problem {τ : Type} (p : FrontProblem) (evaluations : Nat) : Problem τ where
  genes := p.choices.map gene
  evaluate chromosome :=
    match p.combine? chromosome with
    | some solution => pure solution
    | none => throw (.crashed "index out of bounds")
  evaluations _ := evaluations

/-- The places of a solution's scenarios in the fronts, if all of them are there. -/
def encode (p : FrontProblem) (solution : PortfolioSolution) : Option Chromosome :=
  p.choices.mapM fun c => do
    let chosen ← solution.sites.get? c.siteId
    let place ← c.front.findIdx? fun s => s.scenario = chosen.scenario
    return Number.ofInt place

end FrontProblem

variable {σ γ : Type} [Source γ]

/-- Searches the sites, then the combinations of what was found. The second search simulates nothing,
so it does not matter in which order it evaluates them. -/
def run (engine : Engine σ γ) (s : Settings) (request : Request)
    (pool : Pool σ := engine.oneByOne) : Search (Cache σ) OptimisationResult := do
  if request.portfolio.isEmpty then throw .emptyPortfolio
  let (fronts, evaluations) ←
    Separated.siteFronts engine s.separated request 0 request.portfolio pool
  let merged := Separated.merge request.objectives s.separated.maxFrontSize request.portfolio fronts
  let choice := FrontProblem.ofFronts request.portfolio fronts request.constraints
  let seeds := merged.filterMap choice.encode ++ request.existing.filterMap choice.encode
  let outcome ← Nsga2.evolve (choice.problem evaluations) s.portfolio request.objectives seeds
    (engine.source s.portfolio.seed)
  let solutions := paretoSet request.objectives (bestFront request.objectives outcome.front)
  engine.report solutions evaluations
    (if s.portfolio.recordHistory then some outcome.history else none)

end Nested

end Retrofit
