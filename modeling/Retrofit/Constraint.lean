import Retrofit.Metrics
import Retrofit.Number

/-!
# Constraints

A constraint is a window for one metric. Its violation is the distance of the metric from the
window: zero inside, infinite for an undefined metric. The violations of several constraints are
added, and a constrained metric that is missing is infinitely violated.
-/

namespace Retrofit

/-- A window for a metric. A side that is missing does not bound it. -/
structure Bounds where
  min : Option Float
  max : Option Float
deriving DecidableEq

namespace Bounds

def atMost (value : Float) : Bounds := ⟨none, some value⟩

def atLeast (value : Float) : Bounds := ⟨some value, none⟩

/-- How far a value lies outside the window. -/
def violation (b : Bounds) (value : Float) : Float :=
  if value.isNaN then Number.infinity
  else
    let below := match b.min with
      | some min => Number.larger (min - value) 0.0
      | none => 0.0
    let above := match b.max with
      | some max => Number.larger (value - max) 0.0
      | none => 0.0
    below + above

def contains (b : Bounds) (value : Float) : Bool :=
  b.violation value ≤ 0.0

end Bounds

/-- Windows for some of the objectives. -/
abbrev Constraints := PerObjective (Option Bounds)

/-- The sum of the violations of all constraints, in the order of the objectives. -/
def Constraints.violation (c : Constraints) (metrics : Metrics Amount) : Float :=
  Number.sum (c.toList.map fun e =>
    match metrics.get e.1 with
    | some amount => e.2.violation amount.value
    | none => Number.infinity)

end Retrofit
