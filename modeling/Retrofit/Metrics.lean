import Retrofit.Amount
import Retrofit.Objective
import Retrofit.Totals

/-!
# Metrics

`siteMetrics` measures a simulated scenario against the building as it is today, and
`portfolioMetrics` combines the metrics of several sites: additive metrics are summed, and ratios
are recomputed from the sums. Ratios never fail. Where money is spent and nothing is saved they have
a fixed large value, so that a search for small values stays away from it.

The formulas are generic in the numbers they work on. `Scalar` says what they need; the amounts are
the numbers that the library runs on.
-/

namespace Retrofit

/-- Numbers with the arithmetic and the constants of the metrics. -/
class Scalar (α : Type) extends Add α, Sub α, Mul α, Div α, Zero α, LT α where
  decideLt : DecidableLT α
  /-- The ratio of money spent to nothing saved. -/
  unattainable : α
  /-- The years over which a yearly saving of carbon counts. -/
  lifetime : α
  kilogramsPerTonne : α

instance Scalar.decidableLT {α : Type} [Scalar α] : DecidableLT α := Scalar.decideLt

instance : Scalar Amount where
  decideLt := inferInstance
  unattainable := .number 1.0e10
  lifetime := .number 20.0
  kilogramsPerTonne := .number 1000.0

/-- Values of some of the objectives. -/
abbrev Metrics (α : Type) := PerObjective (Option α)

section Formulas

variable {α : Type} [Scalar α]

/-- Pounds spent per tonne of carbon saved over the lifetime of the assets. -/
def carbonCost (capex carbonBalance : α) : α :=
  if 0 < capex then
    if 0 < carbonBalance then
      capex / (carbonBalance * Scalar.lifetime / Scalar.kilogramsPerTonne)
    else Scalar.unattainable
  else 0

/-- Years until the yearly savings have paid back the expenditure. -/
def paybackHorizon (capex costBalance : α) : α :=
  if 0 < capex then
    if 0 < costBalance then capex / costBalance else Scalar.unattainable
  else 0

/-- The metrics of a scenario, measured against the baseline of its site. -/
def siteMetrics (result baseline : Totals α) : Metrics α :=
  let carbonBalance1 := baseline.scope1Emissions - result.scope1Emissions
  let carbonBalance2 := baseline.scope2Emissions - result.scope2Emissions
  let costBalance := baseline.operatingCost - result.operatingCost
  { carbonBalanceScope1 := some carbonBalance1
    carbonBalanceScope2 := some carbonBalance2
    costBalance := some costBalance
    capex := some result.capex
    paybackHorizon := some (paybackHorizon result.capex costBalance)
    annualisedCost := some result.annualisedCost
    carbonCost := some (carbonCost result.capex carbonBalance1) }

/-- The sum of the values that sites have for an objective; nothing if no site has one. The sum so
far is added to each value, so of several undefined values the last one is passed on. -/
def total (sites : List (Metrics α)) (o : Objective) : Option α :=
  match sites.filterMap (·.get o) with
  | [] => none
  | values => some (values.foldl (fun sum value => value + sum) 0)

/-- The metrics of several sites together. -/
def portfolioMetrics (sites : List (Metrics α)) : Metrics α :=
  let capex := (total sites .capex).getD 0
  let costBalance := (total sites .costBalance).getD 0
  let carbonBalance := (total sites .carbonBalanceScope1).getD 0
  { carbonBalanceScope1 := total sites .carbonBalanceScope1
    carbonBalanceScope2 := total sites .carbonBalanceScope2
    costBalance := total sites .costBalance
    capex := total sites .capex
    paybackHorizon := some (paybackHorizon capex costBalance)
    annualisedCost := total sites .annualisedCost
    carbonCost := some (carbonCost capex carbonBalance) }

end Formulas

end Retrofit
