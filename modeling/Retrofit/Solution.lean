import Retrofit.Site

/-!
# Evaluated solutions

A site solution is a scenario with what came out of it, a portfolio solution one site solution for
every site id with the combined outcome. `PortfolioSolution.ofSites` combines the sites in the order
of their ids. Solutions are the same when their scenarios are, whatever came out of them
(`PortfolioSolution.same`).
-/

namespace Retrofit

structure SiteSolution where
  scenario : Scenario
  metrics : Metrics Amount
  result : Totals Amount
  violation : Float
  feasible : Bool

structure PortfolioSolution where
  sites : Dict SiteSolution
  metrics : Metrics Amount
  result : Totals Amount
  violation : Float
  feasible : Bool

namespace PortfolioSolution

/-- Combines site solutions and judges them by the constraints of the portfolio. -/
def ofSites (sites : Dict SiteSolution) (constraints : Constraints) : PortfolioSolution :=
  let metrics := portfolioMetrics (sites.values.map (·.metrics))
  let violation := Number.sum (sites.values.map (·.violation)) + constraints.violation metrics
  { sites, metrics
    result := Totals.sum (sites.values.map (·.result))
    violation
    feasible := violation ≤ 0.0 }

/-- The value of a metric; a missing one is undefined. -/
def metric (s : PortfolioSolution) (o : Objective) : Amount :=
  (s.metrics.get o).getD (.undefined .above)

/-- The requested metrics as costs. -/
def costs (s : PortfolioSolution) (objectives : List Objective) : List Amount :=
  objectives.map fun o => o.cost (s.metric o)

/-- The scenario of every site, by site id. -/
def scenarios (s : PortfolioSolution) : Dict Scenario :=
  s.sites.map (·.scenario)

/-- Whether two solutions have the same scenarios. -/
def same (s t : PortfolioSolution) : Bool :=
  s.scenarios = t.scenarios

/-- Whether another solution is at least as good on every objective and better on one. -/
def isDominatedBy (s other : PortfolioSolution) (objectives : List Objective) : Bool :=
  let pairs := (s.costs objectives).zip (other.costs objectives)
  pairs.all (fun p => p.2 ≤ p.1) && pairs.any (fun p => p.2 < p.1)

end PortfolioSolution

end Retrofit
