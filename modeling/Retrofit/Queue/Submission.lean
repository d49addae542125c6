import Retrofit.Queue.Basic

/-!
# Submission of tasks

A task is put into the queue only if it asks for something, has sites, and the data of all its sites
can be read. The catalog knows which data there are.
-/

namespace Retrofit

/-- Whether the bundle of a site is available; nothing if the catalog cannot be reached. -/
abbrev Catalog := (siteId bundleId : String) → Option Bool

namespace Catalog

/-- The catalog that has every bundle. -/
def permissive : Catalog := fun _ _ => some true

/-- The catalog of a set of bundles. -/
def ofList (bundles : List String) : Catalog := fun _ bundleId => some (bundles.contains bundleId)

/-- The catalog that does not answer. -/
def unreachable : Catalog := fun _ _ => none

end Catalog

inductive SubmissionError where
  | noObjectives
  | noSites
  | dataUnavailable (siteId bundleId : String)
  | catalogUnreachable
  | refused (reason : QueueError)
deriving DecidableEq

def SubmissionError.message : SubmissionError → String
  | noObjectives => "Invalid task: no objectives requested"
  | noSites => "Invalid task: portfolio has no sites"
  | dataUnavailable siteId bundleId =>
    "Dataset bundle `" ++ bundleId ++ "` for site `" ++ siteId ++ "` is not available."
  | catalogUnreachable => "Could not reach the dataset catalog"
  | refused reason => reason.message

/-- Looks up the data of the sites in order, up to the first that are missing. -/
def Catalog.check (catalog : Catalog) : List Site → Except SubmissionError Unit
  | [] => .ok ()
  | site :: rest =>
    match catalog site.siteId site.bundleId with
    | none => .error .catalogUnreachable
    | some false => .error (.dataUnavailable site.siteId site.bundleId)
    | some true => catalog.check rest

/-- Refuses tasks that cannot be worked on. -/
def Task.check (task : Task) (catalog : Catalog) : Except SubmissionError Unit :=
  if task.objectives.isEmpty then .error .noObjectives
  else if task.portfolio.isEmpty then .error .noSites
  else catalog.check task.portfolio

/-- Checks a task and puts it into the queue. -/
def WorkQueue.submit (q : WorkQueue) (catalog : Catalog) (now : Timestamp) (task : Task) :
    Except SubmissionError (Admission × WorkQueue) := do
  task.check catalog
  return q.put now task

end Retrofit
