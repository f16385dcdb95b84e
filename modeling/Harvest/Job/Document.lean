import Harvest.Job.Basic
import Harvest.Json.Value
import Harvest.Watermark

/-!
# The nouns of the bulk service as JSON

Every noun is written as an object with its fields in a fixed order, every state and
kind as its name, and read back from the same form.
-/

namespace Harvest

open Document

variable {Leaf : Type} (rd : LeafReading Leaf)

/-- The operations by their names. -/
def Operation.all : List (String × Operation) :=
  [Operation.query, .queryAll].map fun x => (x.name, x)

/-- The modes of concurrency by their names. -/
def Concurrency.all : List (String × Concurrency) :=
  [Concurrency.parallel].map fun x => (x.name, x)

/-- The types of content by their names. -/
def ContentType.all : List (String × ContentType) := [ContentType.csv].map fun x => (x.name, x)

/-- The states of a job by their names. -/
def JobState.all : List (String × JobState) :=
  [JobState.opened, .closed, .aborted, .failed].map fun x => (x.name, x)

/-- The states of a batch by their names. -/
def BatchState.all : List (String × BatchState) :=
  [BatchState.queued, .inProgress, .completed, .failed, .notProcessed].map fun x => (x.name, x)

/-- The kinds of watermarks by their names. -/
def WatermarkKind.all : List (String × WatermarkKind) :=
  [WatermarkKind.timestamp, .date, .hour, .simple].map fun x => (x.name, x)

/-- Reads what is known of a job. -/
def JobInfo.decode : Decoder Leaf JobInfo :=
  Schema.decode rd <| (Schema.pure JobInfo.mk)
    |>.and (.required "id" (string rd))
    |>.and (.required "entity" (string rd))
    |>.and (.required "operation" (variant rd Operation.all))
    |>.and (.required "state" (variant rd JobState.all))

/-- The document of a job. -/
def JobInfo.encode (i : JobInfo) : Json.Value :=
  .object [("id", .text i.id), ("entity", .text i.entity), ("operation", .text i.operation.name),
    ("state", .text i.state.name)]

/-- Reads what is known of a batch. -/
def BatchInfo.decode : Decoder Leaf BatchInfo :=
  Schema.decode rd <| (Schema.pure BatchInfo.mk)
    |>.and (.required "id" (string rd))
    |>.and (.required "job_id" (string rd))
    |>.and (.required "state" (variant rd BatchState.all))
    |>.and (.maybe rd "state_message" (string rd))

/-- The document of a batch. -/
def BatchInfo.encode (b : BatchInfo) : Json.Value :=
  .object [("id", .text b.id), ("job_id", .text b.job), ("state", .text b.state.name),
    ("state_message", .optional .text b.stateMessage)]

/-- Reads a reference to a result. -/
def ResultReference.decode : Decoder Leaf ResultReference :=
  Schema.decode rd <| (Schema.pure ResultReference.mk)
    |>.and (.required "batch_id" (string rd))
    |>.and (.required "result_id" (string rd))

/-- The document of a reference to a result. -/
def ResultReference.encode (r : ResultReference) : Json.Value :=
  .object [("batch_id", .text r.batch), ("result_id", .text r.result)]

end Harvest
