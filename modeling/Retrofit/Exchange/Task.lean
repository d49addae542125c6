import Retrofit.Exchange.Solution
import Retrofit.Task.Basic

/-!
# Exchange form of tasks and payloads

A task may leave out its id and the time of its creation; they are then given by the reader.
-/

namespace Retrofit

open Json

def TaskId.toJson (id : TaskId) : Json := .text id.text

def TaskId.ofJson? (j : Json) : Option TaskId :=
  j.toText?.bind ofText?

def Timestamp.toJson (t : Timestamp) : Json := .text t.text

def Timestamp.ofJson? (j : Json) : Option Timestamp :=
  j.toText?.bind ofText?

def OptimiserId.toJson (id : OptimiserId) : Json := .text id.name

def OptimiserId.ofJson? (j : Json) : Option OptimiserId :=
  j.toName?.bind ofName?

namespace OptimiserSpec

def toJson (s : OptimiserSpec) : Json :=
  .object [("id", s.id.toJson), ("hyperparameters", s.hyperparameters)]

def ofJson? (j : Json) : Option OptimiserSpec := do
  let r ← j.toRecord? ["id", "hyperparameters"] false
  let id ← r.required "id" OptimiserId.ofJson?
  let hyperparameters ← r.withDefault "hyperparameters" .null toPlain?
  return { id, hyperparameters }

end OptimiserSpec

namespace Task

def toJson (t : Task) : Json :=
  .object [
    ("task_id", t.id.toJson),
    ("client_id", .text t.clientId),
    ("objectives", .ofList Objective.toJson t.objectives),
    ("optimiser", t.optimiser.toJson),
    ("portfolio", .ofList Site.toJson t.portfolio),
    ("constraints", t.constraints.toJson),
    ("existing_solutions", .ofOption (.ofList PortfolioSolution.toJson) t.existing),
    ("created_at", t.createdAt.toJson)]

def fieldNames : List String :=
  ["task_id", "client_id", "objectives", "optimiser", "portfolio", "constraints",
    "existing_solutions", "created_at"]

def ofJson? (freshId : TaskId) (now : Timestamp) (j : Json) : Option Task := do
  let r ← j.toRecord? fieldNames false
  let id ← r.withDefault "task_id" freshId TaskId.ofJson?
  let clientId ← r.required "client_id" toText?
  let objectives ← r.required "objectives" (toList? Objective.ofJson?)
  let optimiser ← r.required "optimiser" OptimiserSpec.ofJson?
  let portfolio ← r.required "portfolio" (toList? Site.ofJson?)
  let constraints ← r.withDefault "constraints" .none Constraints.ofJson?
  let existing ← r.withDefault "existing_solutions" none
    (toOption? (toList? PortfolioSolution.ofJson?))
  let createdAt ← r.withDefault "created_at" now Timestamp.ofJson?
  return { id, clientId, objectives, optimiser, portfolio, constraints, existing, createdAt }

end Task

namespace ResultPayload

def toJson (p : ResultPayload) : Json :=
  .object [
    ("task_id", p.taskId.toJson),
    ("client_id", .text p.clientId),
    ("objectives", .ofList Objective.toJson p.objectives),
    ("solutions", .ofList PortfolioSolution.toJson p.result.solutions),
    ("n_evals", .int p.result.evaluations),
    ("exec_time", p.result.elapsed.toJson),
    ("history", GenerationSummary.historyToJson p.result.history),
    ("completed_at", p.completedAt.toJson)]

def fieldNames : List String :=
  ["task_id", "client_id", "objectives", "solutions", "n_evals", "exec_time", "history",
    "completed_at"]

def ofJson? (j : Json) : Option ResultPayload := do
  let r ← j.toRecord? fieldNames false
  let taskId ← r.required "task_id" TaskId.ofJson?
  let clientId ← r.required "client_id" toText?
  let objectives ← r.required "objectives" (toList? Objective.ofJson?)
  let solutions ← r.required "solutions" (toList? PortfolioSolution.ofJson?)
  let evaluations ← r.required "n_evals" (·.toWord? 64)
  let elapsed ← r.required "exec_time" Duration.ofJson?
  let history ← r.withDefault "history" none GenerationSummary.historyOfJson?
  let completedAt ← r.required "completed_at" Timestamp.ofJson?
  return { taskId, clientId, objectives, result := { solutions, evaluations, elapsed, history },
           completedAt }

end ResultPayload

end Retrofit
