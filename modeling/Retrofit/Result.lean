import Retrofit.SearchError
import Retrofit.Solution

/-!
# Results of a search

What an optimiser reports: solutions, the number of candidates that had to be simulated, the time it
took, and, if it keeps one, a history with a summary of every generation. A result without
evaluations or without a passage of time is not accepted.
-/

namespace Retrofit

/-- A length of time, with less than a second's worth of nanoseconds. -/
structure Duration where
  seconds : Nat
  nanos : Nat
deriving DecidableEq

namespace Duration

def ofNanos (nanos : Nat) : Duration :=
  ⟨nanos / 1000000000, nanos % 1000000000⟩

def toNanos (d : Duration) : Nat :=
  d.seconds * 1000000000 + d.nanos

end Duration

/-- What a generation has reached. -/
structure GenerationSummary where
  generation : Nat
  frontSize : Nat
  feasibleCount : Nat
  evaluations : Nat
  /-- The best value of every requested objective, in its own direction. -/
  bestValues : Metrics Amount
deriving DecidableEq

namespace GenerationSummary

/-- The first of the values with the least cost; undefined values do not count. -/
def bestValue (o : Objective) (values : List Amount) : Option Amount :=
  match values.filter Amount.isDefined with
  | [] => none
  | v :: rest =>
    some (rest.foldl
      (fun best v => if (o.cost v).rank < (o.cost best).rank then v else best) v)

def ofPopulation (generation frontSize evaluations : Nat) (objectives : List Objective)
    (population : List PortfolioSolution) : GenerationSummary where
  generation := generation
  frontSize := frontSize
  feasibleCount := population.countP (·.feasible)
  evaluations := evaluations
  bestValues := .ofFn fun o =>
    if o ∈ objectives then bestValue o (population.map (·.metric o)) else none

end GenerationSummary

structure OptimisationResult where
  solutions : List PortfolioSolution
  evaluations : Nat
  elapsed : Duration
  history : Option (List GenerationSummary)

namespace OptimisationResult

/-- The result, unless nothing was evaluated or no time has passed. -/
def accept (solutions : List PortfolioSolution) (evaluations : Nat) (elapsed : Duration)
    (history : Option (List GenerationSummary)) : Except SearchError OptimisationResult :=
  if evaluations = 0 then .error (.invalidResult .noEvaluations)
  else if elapsed.toNanos = 0 then .error (.invalidResult .noTime)
  else .ok ⟨solutions, evaluations, elapsed, history⟩

end OptimisationResult

end Retrofit
