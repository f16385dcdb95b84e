import Harvest.Json.Value
import Harvest.Report.Basic

/-!
# Results and reports as JSON

A result is written as an object with its fields in order. A report is an object of a
summary and the results; in it the members stand in the order of their names.
-/

namespace Harvest

open Document

/-- Reads a result. -/
def TaskResult.decode {Leaf : Type} (rd : LeafReading Leaf) : Decoder Leaf TaskResult :=
  Schema.decode rd <| (Schema.pure TaskResult.mk)
    |>.and (.required "entity" (string rd))
    |>.and (.maybe rd "job_id" (string rd))
    |>.and (.required "rows" (natural rd 64))
    |>.and (.required "soft_deleted_rows" (natural rd 64))
    |>.and (.required "bytes" (natural rd 64))
    |>.and (.maybe rd "high_watermark" (integer rd))
    |>.and (.required "duration" (real rd))
    |>.and (.required "status" (string rd))
    |>.and (.maybe rd "error" (string rd))

/-- The members of the document of a result. -/
def TaskResult.members (r : TaskResult) : List (String × Json.Value) :=
  [("entity", .text r.entity), ("job_id", .optional .text r.job), ("rows", .natural r.rows),
    ("soft_deleted_rows", .natural r.softDeletedRows), ("bytes", .natural r.bytes),
    ("high_watermark", .optional .integer r.highWatermark), ("duration", .real r.duration),
    ("status", .text r.status), ("error", .optional .text r.error)]

/-- The document of a result. -/
def TaskResult.encode (r : TaskResult) : Json.Value := .object r.members

/-- Members in the order of their names. -/
def sortMembers (members : List (String × Json.Value)) : List (String × Json.Value) :=
  members.mergeSort fun a b => a.1 ≤ b.1

/-- The document of a report. -/
def Report.encode (r : Report) : Json.Value :=
  .object (sortMembers [
    ("summary", .object (sortMembers [("run_id", .text r.run),
      ("operation", .text r.operation.name), ("total_entities", .natural r.results.length),
      ("success", .natural r.success), ("failed", .natural r.failed),
      ("total_rows", .natural r.totalRows), ("total_bytes", .natural r.totalBytes),
      ("total_duration_seconds", .real r.duration)])),
    ("details", .array (r.results.map fun t => .object (sortMembers t.members)))])

end Harvest
