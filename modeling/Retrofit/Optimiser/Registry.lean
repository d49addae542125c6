import Retrofit.Optimiser.Hyperparameters

/-!
# The registry of optimisers

The registry builds an optimiser from its id and the hyperparameters of a task. Five are built in;
the Bayesian optimiser is left to the host to register.
-/

namespace Retrofit

/-- Why a service or an optimiser cannot be set up. -/
inductive ConfigurationError where
  | nonPositiveCapacity
  | malformedHyperparameters (id : OptimiserId)
  | invalidHyperparameter (id : OptimiserId) (reason : ParameterError)
  | unregisteredOptimiser (id : OptimiserId)
  | invalidVariable (name value : String)
deriving DecidableEq

def ConfigurationError.message : ConfigurationError → String
  | nonPositiveCapacity => "Queue capacity must be positive."
  | malformedHyperparameters id => "Malformed hyperparameters for optimiser `" ++ id.name ++ "`"
  | invalidHyperparameter id reason =>
    "Invalid hyperparameter for optimiser `" ++ id.name ++ "`: " ++ reason.message
  | unregisteredOptimiser id =>
    "No implementation is registered for optimiser `" ++ id.name ++ "`."
  | invalidVariable name value =>
    "Environment variable " ++ name ++ " has an invalid value `" ++ value ++ "`."

/-- Makes an optimiser from hyperparameters. -/
abbrev Constructor := Json → Except ConfigurationError Optimiser

/-- Reads settings; `null` stands for the defaults. -/
def readSettings {α : Type} (id : OptimiserId) (read : Json → Option α) (hyperparameters : Json) :
    Except ConfigurationError α :=
  match read hyperparameters.orEmpty with
  | some settings => .ok settings
  | none => .error (.malformedHyperparameters id)

def construct {α : Type} (id : OptimiserId) (read : Json → Option α)
    (check : α → Except ParameterError Unit) (make : α → Optimiser) : Constructor :=
  fun hyperparameters => do
    let settings ← readSettings id read hyperparameters
    match check settings with
    | .ok () => return make settings
    | .error reason => throw (.invalidHyperparameter id reason)

/-- The constructors of the optimisers that have one. -/
structure Registry where
  constructors : List (OptimiserId × Constructor)

namespace Registry

/-- The built-in optimisers on a machine with the given number of processors. -/
def builtin (processors : Nat) : Registry where
  constructors := [
    (.nsga2, construct .nsga2 (Nsga2.Settings.ofJson? processors) (·.check) .nsga2),
    (.separatedNsga2,
      construct .separatedNsga2 (Separated.Settings.ofJson? processors) (·.check) .separated),
    (.nestedNsga2, construct .nestedNsga2 (Nested.Settings.ofJson? processors) (·.check) .nested),
    (.genetic, construct .genetic (Genetic.Settings.ofJson? processors) (·.check) .genetic),
    (.gridSearch, construct .gridSearch (Grid.Settings.ofJson? processors) (·.check) .gridSearch)]

def find? (r : Registry) (id : OptimiserId) : Option Constructor :=
  r.constructors.lookup id

def isRegistered (r : Registry) (id : OptimiserId) : Bool :=
  (r.find? id).isSome

/-- Adds a constructor in place of an earlier one. -/
def register (r : Registry) (id : OptimiserId) (c : Constructor) : Registry :=
  ⟨(id, c) :: r.constructors⟩

def build (r : Registry) (id : OptimiserId) (hyperparameters : Json) :
    Except ConfigurationError Optimiser :=
  match r.find? id with
  | some c => c hyperparameters
  | none => .error (.unregisteredOptimiser id)

end Registry

end Retrofit
