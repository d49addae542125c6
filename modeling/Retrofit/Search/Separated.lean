import Retrofit.Search.Nsga2

/-!
# Site by site

Each site is searched on its own by NSGA-II, under its own constraints alone. The fronts of the
sites are then combined one site at a time, and after every step only the best combinations go on.
The constraints of the portfolio apply to the combinations of all sites.
-/

namespace Retrofit

open Retrofit.Random

namespace Separated

structure Settings where
  /-- The settings of the search at each site. A seed is increased by the place of the site. -/
  site : Nsga2.Settings
  /-- The most combinations that go on from one site to the next. -/
  maxFrontSize : Nat
deriving DecidableEq

namespace Settings

def default (processors : Nat) : Settings :=
  ⟨.default processors, 64⟩

def check (s : Settings) : Except ParameterError Unit :=
  if s.maxFrontSize = 0 then .error (.notPositive "max_front_size") else s.site.check

end Settings

/-- The settings for the site at a place. Seeds are 64-bit words. -/
def settingsAt (s : Nsga2.Settings) (place : Nat) : Nsga2.Settings :=
  { s with seed := s.seed.map fun seed => (seed + place) % 18446744073709551616 }

variable {σ γ : Type} [Source γ]

/-- The best solutions of one site, and the number of candidates that were simulated for them. -/
def siteFront (engine : Engine σ γ) (s : Nsga2.Settings) (request : Request) (site : Site)
    (pool : Pool σ := engine.oneByOne) : Search (Cache σ) (List SiteSolution × Nat) :=
  Trial.run do
    let prepared ← PortfolioProblem.build engine.simulate [site] .none
    let problem := prepared.problem engine.simulate
    let outcome ← Nsga2.evolve problem s request.objectives (prepared.seeds request.existing)
      (engine.source s.seed) (pool s.maxConcurrency prepared)
    let evaluations ← problem.spent
    let front := (bestFront request.objectives outcome.front).filterMap (·.sites.get? site.siteId)
    if front.isEmpty then throw (.invalidResult (.emptyFront site.siteId))
    return (front, evaluations)

/-- The fronts of the sites from a place on, and the candidates simulated for all of them. -/
def siteFronts (engine : Engine σ γ) (s : Settings) (request : Request) :
    (place : Nat) → List Site → (pool : Pool σ := engine.oneByOne) →
      Search (Cache σ) (List (List SiteSolution) × Nat)
  | _, [], _ => return ([], 0)
  | place, site :: rest, pool => do
    let (front, spent) ← siteFront engine (settingsAt s.site place) request site pool
    let (fronts, later) ← siteFronts engine s request (place + 1) rest pool
    return (front :: fronts, spent + later)

/-- Every way of adding one of a site's solutions to a combination of the sites before it. -/
def extend (siteId : String) (front : List SiteSolution) (partials : List (Dict SiteSolution)) :
    List PortfolioSolution :=
  partials.flatMap fun sites =>
    front.map fun solution => .ofSites (sites.insert siteId solution) .none

/-- Adds the sites one by one; at most `limit` combinations go on. -/
def mergeFrom (objectives : List Objective) (limit : Nat) :
    List (Site × List SiteSolution) → List (Dict SiteSolution) → List (Dict SiteSolution)
  | [], partials => partials
  | (site, front) :: rest, partials =>
    let best := bestFront objectives (extend site.siteId front partials)
    mergeFrom objectives limit rest ((leastCrowded objectives limit best).map (·.sites))

/-- The best combinations of the sites' fronts. -/
def merge (objectives : List Objective) (limit : Nat) (portfolio : List Site)
    (fronts : List (List SiteSolution)) : List PortfolioSolution :=
  (mergeFrom objectives limit (portfolio.zip fronts) [.empty]).map (.ofSites · .none)

/-- Searches the sites and combines what was found. -/
def run (engine : Engine σ γ) (s : Settings) (request : Request)
    (pool : Pool σ := engine.oneByOne) : Search (Cache σ) OptimisationResult := do
  if request.portfolio.isEmpty then throw .emptyPortfolio
  let (fronts, evaluations) ← siteFronts engine s request 0 request.portfolio pool
  let merged := merge request.objectives s.maxFrontSize request.portfolio fronts
  let judged := merged.map fun solution =>
    PortfolioSolution.ofSites solution.sites request.constraints
  engine.report (bestFront request.objectives judged) evaluations none

end Separated

end Retrofit
