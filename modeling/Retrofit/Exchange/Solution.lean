import Retrofit.Exchange.Site
import Retrofit.Result

/-!
# Exchange form of solutions and results
-/

namespace Retrofit

open Json

namespace Totals

def toJson (t : Totals Amount) : Json :=
  .object (Quantity.all.map fun q => (q.name, (t.get q).toJson))

/-- Quantities other than the expenditure are zero if they are left out. -/
def ofJson? (j : Json) : Option (Totals Amount) := do
  let r ← j.toRecord? (Quantity.all.map Quantity.name) false
  let read (q : Quantity) := r.withDefault q.name 0 Amount.ofJson?
  return {
    capex := ← r.required "capex" Amount.ofJson?
    annualisedCost := ← read .annualisedCost
    gasUsed := ← read .gasUsed
    electricityImported := ← read .electricityImported
    electricityGenerated := ← read .electricityGenerated
    electricityExported := ← read .electricityExported
    heatLoad := ← read .heatLoad
    dhwLoad := ← read .dhwLoad
    heatShortfall := ← read .heatShortfall
    dhwShortfall := ← read .dhwShortfall
    scope1Emissions := ← read .scope1Emissions
    scope2Emissions := ← read .scope2Emissions
    gasImportCost := ← read .gasImportCost
    electricityImportCost := ← read .electricityImportCost
    electricityExportGain := ← read .electricityExportGain }

end Totals

namespace SiteSolution

def toJson (s : SiteSolution) : Json :=
  .object [
    ("scenario", s.scenario.toJson),
    ("metric_values", Metrics.toJson s.metrics),
    ("simulation_result", s.result.toJson),
    ("constraint_violation", .ofFloat s.violation),
    ("is_feasible", .bool s.feasible)]

def ofJson? (j : Json) : Option SiteSolution := do
  let r ← j.toRecord?
    ["scenario", "metric_values", "simulation_result", "constraint_violation", "is_feasible"] false
  let scenario ← r.required "scenario" Scenario.ofJson?
  let metrics ← r.required "metric_values" Metrics.ofJson?
  let result ← r.required "simulation_result" Totals.ofJson?
  let violation ← r.required "constraint_violation" toFloat?
  let feasible ← r.required "is_feasible" toBool?
  return { scenario, metrics, result, violation, feasible }

end SiteSolution

namespace PortfolioSolution

def toJson (s : PortfolioSolution) : Json :=
  .object [
    ("solutions", .ofDict SiteSolution.toJson s.sites),
    ("metric_values", Metrics.toJson s.metrics),
    ("simulation_result", s.result.toJson),
    ("constraint_violation", .ofFloat s.violation),
    ("is_feasible", .bool s.feasible)]

def ofJson? (j : Json) : Option PortfolioSolution := do
  let r ← j.toRecord?
    ["solutions", "metric_values", "simulation_result", "constraint_violation", "is_feasible"] false
  let sites ← r.required "solutions" (toDict? SiteSolution.ofJson?)
  let metrics ← r.required "metric_values" Metrics.ofJson?
  let result ← r.required "simulation_result" Totals.ofJson?
  let violation ← r.required "constraint_violation" toFloat?
  let feasible ← r.required "is_feasible" toBool?
  return { sites, metrics, result, violation, feasible }

end PortfolioSolution

namespace GenerationSummary

def toJson (s : GenerationSummary) : Json :=
  .object [
    ("generation", .int s.generation),
    ("front_size", .int s.frontSize),
    ("feasible_count", .int s.feasibleCount),
    ("evaluations", .int s.evaluations),
    ("best_values", Metrics.toJson s.bestValues)]

def ofJson? (j : Json) : Option GenerationSummary := do
  let r ← j.toRecord?
    ["generation", "front_size", "feasible_count", "evaluations", "best_values"] false
  let generation ← r.required "generation" (·.toWord? 64)
  let frontSize ← r.required "front_size" (·.toWord? 64)
  let feasibleCount ← r.required "feasible_count" (·.toWord? 64)
  let evaluations ← r.required "evaluations" (·.toWord? 64)
  let bestValues ← r.required "best_values" Metrics.ofJson?
  return { generation, frontSize, feasibleCount, evaluations, bestValues }

def historyToJson (history : Option (List GenerationSummary)) : Json :=
  .ofOption (.ofList toJson) history

def historyOfJson? (j : Json) : Option (Option (List GenerationSummary)) :=
  toOption? (toList? ofJson?) j

end GenerationSummary

namespace Duration

def toJson (d : Duration) : Json :=
  .object [("secs", .int d.seconds), ("nanos", .int d.nanos)]

/-- Nanoseconds beyond a second are carried; the seconds fit a 64-bit word with them. -/
def ofJson? (j : Json) : Option Duration := do
  let r ← j.toRecord? ["secs", "nanos"] true
  let secs ← r.required "secs" (·.toWord? 64)
  let nanos ← r.required "nanos" (·.toWord? 32)
  let d := Duration.mk (secs + nanos / 1000000000) (nanos % 1000000000)
  if d.seconds < 18446744073709551616 then return d else failure

end Duration

namespace OptimisationResult

def toJson (r : OptimisationResult) : Json :=
  .object [
    ("solutions", .ofList PortfolioSolution.toJson r.solutions),
    ("n_evals", .int r.evaluations),
    ("exec_time", r.elapsed.toJson),
    ("history", GenerationSummary.historyToJson r.history)]

def ofJson? (j : Json) : Option OptimisationResult := do
  let r ← j.toRecord? ["solutions", "n_evals", "exec_time", "history"] false
  let solutions ← r.required "solutions" (toList? PortfolioSolution.ofJson?)
  let evaluations ← r.required "n_evals" (·.toWord? 64)
  let elapsed ← r.required "exec_time" Duration.ofJson?
  let history ← r.optional "history" (toList? GenerationSummary.ofJson?)
  return { solutions, evaluations, elapsed, history }

end OptimisationResult

end Retrofit
