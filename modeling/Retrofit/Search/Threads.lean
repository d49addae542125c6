import Retrofit.Search.Problem

/-!
# Threads

The candidates of a batch are evaluated by threads that share the cache. A thread asks for the
scenarios of its candidate one at a time, and between two of its steps any other thread may take its
own. A call of the simulator is shared by all threads that ask for the scenario meanwhile: they wait
and find the result in the cache. So asking is one step, and which candidate a scenario is
simulated for depends on who comes first; so does which of several failures is the first one, and
that is the one reported. A `Schedule` says whose turn it is.

One thread takes the candidates in order, as `Problem.evaluateAll` does.
-/

namespace Retrofit

/-- How far the evaluation of a candidate is. -/
inductive Progress where
  | waiting (chromosome : Chromosome)
  /-- There are scenarios left to ask for; the sites before have solutions, and `fresh` tells whether
  the simulator was called for one of them. -/
  | running (work : List (Scenario × Site × Totals Amount)) (solutions : Dict SiteSolution)
      (fresh : Bool)
  | settled (verdict : Except SearchError PortfolioSolution)

namespace Progress

def isWaiting : Progress → Bool
  | waiting _ => true
  | _ => false

def isRunning : Progress → Bool
  | running _ _ _ => true
  | _ => false

def failure? : Progress → Option SearchError
  | settled (.error reason) => some reason
  | _ => none

def solution? : Progress → Option PortfolioSolution
  | settled (.ok solution) => some solution
  | _ => none

/-- The number of steps that are left at most. -/
def stepsLeft (p : PortfolioProblem) : Progress → Nat
  | waiting chromosome => ((p.space.decode chromosome).zip p.sites).length + 2
  | running work _ _ => work.length + 1
  | settled _ => 0

variable {σ : Type}

/-- The next step of a candidate: it is decoded, or asks for one more scenario, or is counted if it
had to be simulated. -/
def step (simulate : Simulator σ) (p : PortfolioProblem) (trial : Trial σ) :
    Progress → Progress × Trial σ
  | waiting chromosome =>
    (running ((p.space.decode chromosome).zip p.sites) .empty false, trial)
  | running ((scenario, site, baseline) :: rest) solutions fresh =>
    match Trial.ask simulate site.siteId scenario trial with
    | (.ok (result, called), trial) =>
      (running rest (solutions.insert site.siteId (site.solution baseline scenario result))
        (fresh || called), trial)
    | (.error reason, trial) => (settled (.error reason), trial)
  | running [] solutions fresh =>
    (settled (.ok (.ofSites solutions p.constraints)),
      { trial with evaluations := trial.evaluations + if fresh then 1 else 0 })
  | settled verdict => (settled verdict, trial)

end Progress

/-- Places in the batch: each is the candidate whose thread takes the next turn. -/
abbrev Schedule := List Nat

/-- A batch that threads are at work on. -/
structure Batch (σ : Type) where
  trial : Trial σ
  candidates : List Progress
  /-- Why the first candidate failed that did so. -/
  failure : Option SearchError

namespace Batch

variable {σ : Type}

/-- The candidate at a place takes its next step. -/
def advance (simulate : Simulator σ) (p : PortfolioProblem) (b : Batch σ) (place : Nat) :
    Batch σ :=
  match b.candidates[place]? with
  | some candidate =>
    let (next, trial) := candidate.step simulate p b.trial
    ⟨trial, b.candidates.set place next, b.failure.or next.failure?⟩
  | none => b

/-- Whether a thread may take the next step of the candidate at a place. No candidate is begun after
a failure, or while all threads have one to work on. One thread takes them in order. -/
def mayAdvance (threads : Nat) (b : Batch σ) (place : Nat) : Bool :=
  match b.candidates[place]? with
  | some (.waiting _) =>
    b.failure.isNone && b.candidates.countP (·.isRunning) < max threads 1 &&
      (1 < threads || !(b.candidates.take place).any (·.isWaiting))
  | _ => true

/-- One turn of a schedule. -/
def turn (simulate : Simulator σ) (p : PortfolioProblem) (threads : Nat) (b : Batch σ)
    (place : Nat) : Batch σ :=
  if b.mayAdvance threads place then b.advance simulate p place else b

/-- Takes the candidate at a place to its end, unless one has failed. -/
def settle (simulate : Simulator σ) (p : PortfolioProblem) (b : Batch σ) (place : Nat) : Batch σ :=
  match b.failure, b.candidates[place]? with
  | none, some candidate =>
    (List.replicate (candidate.stepsLeft p) place).foldl (advance simulate p) b
  | _, _ => b

/-- Takes the turns of a schedule, and then the candidates that are not settled in order. -/
def run (simulate : Simulator σ) (p : PortfolioProblem) (threads : Nat) (schedule : Schedule)
    (b : Batch σ) : Batch σ :=
  (List.range b.candidates.length).foldl (settle simulate p)
    (schedule.foldl (turn simulate p threads) b)

/-- The solutions of all candidates, or the failure. -/
def outcome (b : Batch σ) : Except SearchError (List PortfolioSolution) :=
  match b.failure with
  | some reason => .error reason
  | none => .ok (b.candidates.filterMap (·.solution?))

end Batch

/-- Where the order of the turns comes from. Like the answers of a simulator it may depend on
anything in the world. -/
abbrev Scheduler (σ : Type) := StateM σ Schedule

/-- Evaluates a batch on a number of threads. -/
def PortfolioProblem.evaluateTogether {σ : Type} (simulate : Simulator σ) (scheduler : Scheduler σ)
    (threads : Nat) (p : PortfolioProblem) : Evaluator (Trial σ) := fun chromosomes trial =>
  let (schedule, world) := scheduler.run trial.cache.world
  let batch : Batch σ := ⟨{ trial with cache := { trial.cache with world } },
    chromosomes.map .waiting, none⟩
  let batch := batch.run simulate p threads schedule
  (batch.outcome, batch.trial)

/-- How batches are evaluated, given a number of threads and the problem. -/
abbrev Pool (σ : Type) := Nat → PortfolioProblem → Evaluator (Trial σ)

/-- Evaluates batches in order, whatever the number of threads. -/
def Engine.oneByOne {σ γ : Type} (engine : Engine σ γ) : Pool σ :=
  fun _ p => (p.problem engine.simulate).evaluateAll

/-- Evaluates batches on threads that take their turns as scheduled. -/
def Engine.together {σ γ : Type} (engine : Engine σ γ) (scheduler : Scheduler σ) : Pool σ :=
  fun threads p => p.evaluateTogether engine.simulate scheduler threads

end Retrofit
