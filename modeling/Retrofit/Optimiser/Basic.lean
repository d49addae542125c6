import Retrofit.Search.Genetic
import Retrofit.Search.Grid
import Retrofit.Search.Nested

/-!
# Optimisers

An optimiser is known by its id and, once its settings are fixed, is one of the five searches of
this library.
-/

namespace Retrofit

inductive OptimiserId where
  | nsga2
  | separatedNsga2
  | nestedNsga2
  | genetic
  | gridSearch
  | bayesian
deriving DecidableEq

namespace OptimiserId

def all : List OptimiserId :=
  [nsga2, separatedNsga2, nestedNsga2, genetic, gridSearch, bayesian]

def name : OptimiserId → String
  | nsga2 => "nsga2"
  | separatedNsga2 => "separated_nsga2"
  | nestedNsga2 => "separated_nsga2_x_nsga2"
  | genetic => "genetic_algorithm"
  | gridSearch => "grid_search"
  | bayesian => "bayesian"

def ofName? (name : String) : Option OptimiserId :=
  all.find? (·.name = name)

theorem ofName?_name (id : OptimiserId) : ofName? id.name = some id := by
  cases id <;> decide

end OptimiserId

/-- A search with its settings. -/
inductive Optimiser where
  | nsga2 (settings : Nsga2.Settings)
  | genetic (settings : Genetic.Settings)
  | gridSearch (settings : Grid.Settings)
  | separated (settings : Separated.Settings)
  | nested (settings : Nested.Settings)

namespace Optimiser

variable {σ γ : Type} [Random.Source γ]

/-- The number of threads that candidates are simulated on. -/
def threads : Optimiser → Nat
  | nsga2 settings => settings.maxConcurrency
  | genetic settings => settings.maxConcurrency
  | gridSearch settings => settings.maxConcurrency
  | separated settings => settings.site.maxConcurrency
  | nested settings => settings.separated.site.maxConcurrency

/-- Runs the search with batches evaluated by a pool. -/
def runOn (engine : Engine σ γ) (pool : Pool σ) :
    Optimiser → Request → Search (Cache σ) OptimisationResult
  | nsga2 settings, request => Nsga2.run engine settings request pool
  | genetic settings, request => Genetic.run engine settings request pool
  | gridSearch settings, request => Grid.run engine settings request pool
  | separated settings, request => Separated.run engine settings request pool
  | nested settings, request => Nested.run engine settings request pool

/-- Runs the search with the candidates of every batch evaluated in order. -/
def run (engine : Engine σ γ) (optimiser : Optimiser) (request : Request) :
    Search (Cache σ) OptimisationResult :=
  optimiser.runOn engine engine.oneByOne request

end Optimiser

end Retrofit
