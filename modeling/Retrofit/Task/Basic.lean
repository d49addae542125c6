import Retrofit.Json.Basic
import Retrofit.Optimiser.Basic
import Retrofit.Task.Id
import Retrofit.Task.Timestamp

/-!
# Tasks

A task asks for one optimisation. What comes out of it is sent on as a result payload.
-/

namespace Retrofit

/-- The optimiser to use, and its settings as they were given. -/
structure OptimiserSpec where
  id : OptimiserId
  hyperparameters : Json

structure Task where
  id : TaskId
  clientId : String
  objectives : List Objective
  optimiser : OptimiserSpec
  portfolio : List Site
  constraints : Constraints
  /-- Known solutions that the search may start from. -/
  existing : Option (List PortfolioSolution)
  createdAt : Timestamp

namespace Task

/-- What the task asks of its optimiser. -/
def request (t : Task) : Request where
  objectives := t.objectives
  constraints := t.constraints
  portfolio := t.portfolio
  existing := t.existing.getD []

end Task

/-- What is sent on when a task is done. -/
structure ResultPayload where
  taskId : TaskId
  clientId : String
  objectives : List Objective
  result : OptimisationResult
  completedAt : Timestamp

/-- The payload of a task's result at the time of its completion. -/
def Task.payload (t : Task) (result : OptimisationResult) (completedAt : Timestamp) :
    ResultPayload :=
  ⟨t.id, t.clientId, t.objectives, result, completedAt⟩

end Retrofit
