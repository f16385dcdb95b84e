/-!
# Bulk jobs

The nouns of the bulk service: a job runs one operation for one entity, its
batches carry queries, and a completed batch lists references to its results.
-/

namespace Harvest

/-- What a job extracts: the live rows, or the logically deleted ones as well. -/
inductive Operation
  | query
  | queryAll
  deriving DecidableEq, Repr

/-- The name of an operation. -/
def Operation.name : Operation → String
  | .query => "query"
  | .queryAll => "queryAll"

/-- The states of a job on the service. -/
inductive JobState
  | opened
  | closed
  | aborted
  | failed
  deriving DecidableEq, Repr

/-- The name of a job's state. -/
def JobState.name : JobState → String
  | .opened => "Open"
  | .closed => "Closed"
  | .aborted => "Aborted"
  | .failed => "Failed"

/-- The states of a batch on the service. A batch is left unprocessed when the service
has split it into child batches. -/
inductive BatchState
  | queued
  | inProgress
  | completed
  | failed
  | notProcessed
  deriving DecidableEq, Repr

namespace BatchState

/-- The name of a batch's state. -/
def name : BatchState → String
  | .queued => "Queued"
  | .inProgress => "InProgress"
  | .completed => "Completed"
  | .failed => "Failed"
  | .notProcessed => "NotProcessed"

/-- A state that a batch does not leave. -/
def isTerminal : BatchState → Bool
  | .completed => true
  | .failed => true
  | _ => false

theorem isTerminal_iff (s : BatchState) :
    s.isTerminal = true ↔ s = .completed ∨ s = .failed := by
  cases s <;> simp [isTerminal]

end BatchState

/-- How the service works on the batches of a job: always side by side. -/
inductive Concurrency
  | parallel
  deriving DecidableEq, Repr

/-- The name of a way to work on batches. -/
def Concurrency.name : Concurrency → String
  | .parallel => "Parallel"

/-- How results are coded: always as rows of text. -/
inductive ContentType
  | csv
  deriving DecidableEq, Repr

/-- The name of a coding of results. -/
def ContentType.name : ContentType → String
  | .csv => "CSV"

/-- What the service is asked to create; with a chunk size it may split the query. -/
structure JobRequest where
  entity : String
  operation : Operation
  concurrency : Concurrency
  contentType : ContentType
  chunkSize : Option Nat
  deriving DecidableEq, Repr

/-- A job as the service reports it. -/
structure JobInfo where
  id : String
  entity : String
  operation : Operation
  state : JobState
  deriving DecidableEq, Repr

/-- A batch as the service reports it. -/
structure BatchInfo where
  id : String
  job : String
  state : BatchState
  stateMessage : Option String
  deriving DecidableEq, Repr

/-- One page of the results of a completed batch. -/
structure ResultReference where
  batch : String
  result : String
  deriving DecidableEq, Repr

/-- A reference in texts: the batch, a slash and the result. -/
def ResultReference.text (r : ResultReference) : String := r.batch ++ "/" ++ r.result

end Harvest
