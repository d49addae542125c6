import Retrofit.Json.Reading
import Retrofit.Optimiser.Basic

/-!
# Hyperparameters

The settings of an optimiser as they stand in a task: an object in which every field has a default
and other fields are errors, or `null` for the defaults throughout. `withDefaultConcurrency` fills
in the number of threads where a task leaves it open.
-/

namespace Retrofit

namespace Nsga2.Settings

def fieldNames : List String :=
  ["population_size", "generations", "mutation_rate", "crossover_rate", "tournament_size", "seed",
    "max_concurrency", "record_history"]

def ofJson? (processors : Nat) (j : Json) : Option Settings := do
  let d := default processors
  let r ← j.toRecord? fieldNames true
  let populationSize ← r.withDefault "population_size" d.populationSize (·.toWord? 64)
  let generations ← r.withDefault "generations" d.generations (·.toWord? 64)
  let mutationRate ← r.withDefault "mutation_rate" d.mutationRate (Json.toOption? Json.toFloat?)
  let crossoverRate ← r.withDefault "crossover_rate" d.crossoverRate Json.toFloat?
  let tournamentSize ← r.withDefault "tournament_size" d.tournamentSize (·.toWord? 64)
  let seed ← r.withDefault "seed" d.seed (Json.toOption? (·.toWord? 64))
  let maxConcurrency ← r.withDefault "max_concurrency" d.maxConcurrency (·.toWord? 64)
  let recordHistory ← r.withDefault "record_history" d.recordHistory Json.toBool?
  return { populationSize, generations, mutationRate, crossoverRate, tournamentSize, seed,
           maxConcurrency, recordHistory }

def toJson (s : Settings) : Json :=
  .object [
    ("population_size", .int s.populationSize),
    ("generations", .int s.generations),
    ("mutation_rate", .ofOption .ofFloat s.mutationRate),
    ("crossover_rate", .ofFloat s.crossoverRate),
    ("tournament_size", .int s.tournamentSize),
    ("seed", .ofOption (fun seed => .int seed) s.seed),
    ("max_concurrency", .int s.maxConcurrency),
    ("record_history", .bool s.recordHistory)]

end Nsga2.Settings

namespace Genetic.Settings

def fieldNames : List String :=
  ["population_size", "generations", "mutation_rate", "crossover_rate", "elitism_rate",
    "tournament_size", "objective", "seed", "max_concurrency", "record_history"]

def ofJson? (processors : Nat) (j : Json) : Option Settings := do
  let d := default processors
  let r ← j.toRecord? fieldNames true
  let populationSize ← r.withDefault "population_size" d.populationSize (·.toWord? 64)
  let generations ← r.withDefault "generations" d.generations (·.toWord? 64)
  let mutationRate ← r.withDefault "mutation_rate" d.mutationRate (Json.toOption? Json.toFloat?)
  let crossoverRate ← r.withDefault "crossover_rate" d.crossoverRate Json.toFloat?
  let elitismRate ← r.withDefault "elitism_rate" d.elitismRate Json.toFloat?
  let tournamentSize ← r.withDefault "tournament_size" d.tournamentSize (·.toWord? 64)
  let objective ← r.withDefault "objective" d.objective
    (Json.toOption? fun j => j.toName?.bind Objective.ofName?)
  let seed ← r.withDefault "seed" d.seed (Json.toOption? (·.toWord? 64))
  let maxConcurrency ← r.withDefault "max_concurrency" d.maxConcurrency (·.toWord? 64)
  let recordHistory ← r.withDefault "record_history" d.recordHistory Json.toBool?
  return { populationSize, generations, mutationRate, crossoverRate, elitismRate, tournamentSize,
           objective, seed, maxConcurrency, recordHistory }

def toJson (s : Settings) : Json :=
  .object [
    ("population_size", .int s.populationSize),
    ("generations", .int s.generations),
    ("mutation_rate", .ofOption .ofFloat s.mutationRate),
    ("crossover_rate", .ofFloat s.crossoverRate),
    ("elitism_rate", .ofFloat s.elitismRate),
    ("tournament_size", .int s.tournamentSize),
    ("objective", .ofOption (fun o => .text o.name) s.objective),
    ("seed", .ofOption (fun seed => .int seed) s.seed),
    ("max_concurrency", .int s.maxConcurrency),
    ("record_history", .bool s.recordHistory)]

end Genetic.Settings

namespace Grid.Settings

def fieldNames : List String :=
  ["max_evaluations", "continuous_steps", "seed", "max_concurrency"]

def ofJson? (processors : Nat) (j : Json) : Option Settings := do
  let d := default processors
  let r ← j.toRecord? fieldNames true
  let maxEvaluations ← r.withDefault "max_evaluations" d.maxEvaluations (·.toWord? 64)
  let continuousSteps ← r.withDefault "continuous_steps" d.continuousSteps (·.toWord? 64)
  let seed ← r.withDefault "seed" d.seed (Json.toOption? (·.toWord? 64))
  let maxConcurrency ← r.withDefault "max_concurrency" d.maxConcurrency (·.toWord? 64)
  return { maxEvaluations, continuousSteps, seed, maxConcurrency }

def toJson (s : Settings) : Json :=
  .object [
    ("max_evaluations", .int s.maxEvaluations),
    ("continuous_steps", .int s.continuousSteps),
    ("seed", .ofOption (fun seed => .int seed) s.seed),
    ("max_concurrency", .int s.maxConcurrency)]

end Grid.Settings

namespace Separated.Settings

def ofJson? (processors : Nat) (j : Json) : Option Settings := do
  let d := default processors
  let r ← j.toRecord? ["site", "max_front_size"] true
  let site ← r.withDefault "site" d.site (Nsga2.Settings.ofJson? processors)
  let maxFrontSize ← r.withDefault "max_front_size" d.maxFrontSize (·.toWord? 64)
  return { site, maxFrontSize }

def toJson (s : Settings) : Json :=
  .object [("site", s.site.toJson), ("max_front_size", .int s.maxFrontSize)]

end Separated.Settings

namespace Nested.Settings

def ofJson? (processors : Nat) (j : Json) : Option Settings := do
  let d := default processors
  let r ← j.toRecord? ["separated", "portfolio"] true
  let separated ← r.withDefault "separated" d.separated (Separated.Settings.ofJson? processors)
  let portfolio ← r.withDefault "portfolio" d.portfolio (Nsga2.Settings.ofJson? processors)
  return { separated, portfolio }

def toJson (s : Settings) : Json :=
  .object [("separated", s.separated.toJson), ("portfolio", s.portfolio.toJson)]

end Nested.Settings

namespace OptimiserId

/-- The sections of the hyperparameters that have a number of threads. -/
def concurrencyPaths : OptimiserId → List (List String)
  | separatedNsga2 => [["site"]]
  | nestedNsga2 => [["separated", "site"], ["portfolio"]]
  | gridSearch | nsga2 | genetic => [[]]
  | bayesian => []

end OptimiserId

namespace Json

/-- The empty object in place of `null`. -/
def orEmpty : Json → Json
  | .null => .object []
  | j => j

/-- Adds a field unless there is one of this name. -/
def addField (name : String) (value : Json) (fields : List (String × Json)) :
    List (String × Json) :=
  if fields.any (·.1 = name) then fields else Dict.insertEntry name value fields

/-- Changes the value of the first field of a name. -/
def updateField (name : String) (f : Json → Json) : List (String × Json) → List (String × Json)
  | [] => []
  | (name', value) :: rest =>
    if name' = name then (name', f value) :: rest else (name', value) :: updateField name f rest

/-- Fills in the number of threads in the section at the end of a path. Sections that are missing
are created; a value that is no object is left as it is. -/
def fillConcurrency (threads : Nat) : List String → Json → Json
  | [], .object fields => .object (addField "max_concurrency" (.int threads) fields)
  | section_ :: path, .object fields =>
    .object (updateField section_ (fillConcurrency threads path)
      (addField section_ (.object []) fields))
  | _, j => j

end Json

/-- Fills in the number of threads wherever the hyperparameters leave it open. -/
def OptimiserId.withDefaultConcurrency (id : OptimiserId) (hyperparameters : Json)
    (threads : Nat) : Json :=
  id.concurrencyPaths.foldl (fun j path => j.fillConcurrency threads path) hyperparameters.orEmpty

end Retrofit
