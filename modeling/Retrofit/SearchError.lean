/-!
# Why a search fails

Every way in which a search can end without a result, as a cause, and the text that reports it.
-/

namespace Retrofit

/-- Why a parameter of an optimiser is refused. -/
inductive ParameterError where
  | notPositive (names : String)
  | notRate (name : String)
  | onlyElite
deriving DecidableEq

def ParameterError.message : ParameterError → String
  | notPositive names => names ++ " must be positive"
  | notRate name => name ++ " must lie in [0, 1]"
  | onlyElite => "elite population cannot fill the whole population"

/-- Why the range of an attribute cannot be searched. -/
inductive RangeError where
  | noValues
  | stepNotPositive
  | maxBelowMin
  | tooWide
  | badBounds
deriving DecidableEq

def RangeError.message : RangeError → String
  | noValues => "no legal values"
  | stepNotPositive => "step must be positive"
  | maxBelowMin => "max is below min"
  | tooWide => "range too wide"
  | badBounds => "bounds must be finite with min <= max"

/-- Why the outcome of a search is not accepted. -/
inductive ResultError where
  | noEvaluations
  | noTime
  | emptyFront (siteId : String)
deriving DecidableEq

def ResultError.message : ResultError → String
  | noEvaluations => "number of evaluations must be positive"
  | noTime => "execution time must be positive"
  | emptyFront siteId => "site `" ++ siteId ++ "` produced an empty front"

inductive SearchError where
  | badParameter (reason : ParameterError)
  | emptyPortfolio
  | invalidRange (siteId asset attr : String) (reason : RangeError)
  | noObjectives
  | simulation (siteId cause : String)
  | invalidResult (reason : ResultError)
  /-- The search was broken off, for one by a simulator that gave no answer. -/
  | crashed (cause : String)
deriving DecidableEq

def SearchError.message : SearchError → String
  | badParameter reason => "Invalid population parameters were passed: " ++ reason.message
  | emptyPortfolio => "The portfolio has no sites to optimise."
  | invalidRange siteId asset attr reason =>
    "Site `" ++ siteId ++ "` has an invalid range for `" ++ asset ++ "." ++ attr ++ "`: "
      ++ reason.message
  | noObjectives => "At least one objective must be requested."
  | simulation siteId _ => "Simulation failed for site `" ++ siteId ++ "`"
  | invalidResult reason => "Invalid optimisation result: " ++ reason.message
  | crashed cause => cause

end Retrofit
