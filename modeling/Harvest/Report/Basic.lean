import Harvest.Job.Basic

/-!
# Results and reports

What a run says about each entity, and the report over all of them. The counts and
sums of a report are functions of its results, so they cannot disagree with them.
-/

namespace Harvest

/-- The result of one entity. -/
structure TaskResult where
  entity : String
  job : Option String
  /-- Rows that the job delivered. -/
  rows : Nat
  /-- Rows that were fetched on their own because they are logically deleted. -/
  softDeletedRows : Nat
  bytes : Nat
  highWatermark : Option Int
  /-- Seconds taken. -/
  duration : Float
  status : String
  error : Option String
  deriving Repr

namespace TaskResult

/-- The status of an entity that was extracted. -/
def successStatus : String := "SUCCESS"

/-- The status of an entity that was not extracted. -/
def failedStatus : String := "FAILED"

/-- The result of an entity whose extraction failed. -/
def failure (entity error : String) : TaskResult :=
  ⟨entity, none, 0, 0, 0, none, 0, failedStatus, some error⟩

/-- The entity was extracted. -/
def isSuccess (r : TaskResult) : Bool := r.status == successStatus

end TaskResult

/-- The report of a run. -/
structure Report where
  run : String
  operation : Operation
  results : List TaskResult
  /-- Seconds taken. -/
  duration : Float
  deriving Repr

namespace Report

/-- The number of entities that were extracted. -/
def success (r : Report) : Nat := r.results.countP TaskResult.isSuccess

/-- The number of entities that were not. -/
def failed (r : Report) : Nat := r.results.length - r.success

/-- A number summed up over results. -/
def total (f : TaskResult → Nat) : List TaskResult → Nat
  | [] => 0
  | t :: rest => f t + total f rest

/-- The rows of all entities. -/
def totalRows (r : Report) : Nat := total (fun t => t.rows + t.softDeletedRows) r.results

/-- The bytes of all entities. -/
def totalBytes (r : Report) : Nat := total TaskResult.bytes r.results

end Report

end Harvest
