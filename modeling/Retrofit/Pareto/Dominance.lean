import Retrofit.Solution

/-!
# Dominance

Candidates are compared by their costs and by the violation of their constraints. A candidate
without violation beats every candidate with one; between two with violations the smaller violation
wins; otherwise one dominates the other if it costs no more anywhere and less somewhere.
-/

namespace Retrofit

/-- No cost of `a` exceeds that of `b`, and one is less. -/
def dominates (a b : List Amount) : Bool :=
  let pairs := a.zip b
  !pairs.any (fun p => p.2 < p.1) && pairs.any (fun p => p.1 < p.2)

/-- What a candidate is judged by. -/
structure Judgement where
  costs : List Amount
  violation : Float

namespace Judgement

/-- An undefined violation is not feasible. -/
def feasible (j : Judgement) : Bool :=
  j.violation ≤ 0.0

def beats (a b : Judgement) : Bool :=
  match a.feasible, b.feasible with
  | true, false => true
  | false, true => false
  | true, true => dominates a.costs b.costs
  | false, false =>
    if a.violation < b.violation then true
    else if b.violation < a.violation then false
    else dominates a.costs b.costs

end Judgement

def PortfolioSolution.judgement (objectives : List Objective) (s : PortfolioSolution) :
    Judgement :=
  ⟨s.costs objectives, s.violation⟩

end Retrofit
