import Harvest.Catalog.Store
import Harvest.Json.Printer
import Harvest.Local.Machine
import Harvest.Report.Document
import Harvest.Sink
import Harvest.Staging.Server

/-!
# Services on one machine

The services around the engine, provided by the machine that it runs on: results that
are staged in a directory, a sink and reports on the disk, and a catalog in a file. Each
request of the engine becomes a program over the machine, which may change what the
services keep.
-/

namespace Harvest.Local

open Program

/-- Where things are. -/
structure Places where
  /-- The directory with the staged results. -/
  staging : String
  /-- The directory for output. -/
  output : String
  /-- The output is compressed. -/
  compressed : Bool
  deriving DecidableEq, Repr

/-- What the services keep. -/
structure State where
  registry : Staging.Registry := {}
  sink : Option Sink := none
  catalog : Option Catalog.Store := none
  deriving DecidableEq, Repr

/-- A program that may change what the services keep. -/
abbrev Kept (α : Type) := StateT State (Program Machine.service) α

/-- A program over the disk. -/
def storing {α : Type} (p : Storing α) : Kept (Except ExtractError α) := fun s =>
  (Machine.ofDisk p.run).bind fun x => .done (x, s)

/-- A program over staged results. -/
def staged {α : Type} (p : Staged α) : Kept (Except ExtractError α) := fun s =>
  (Machine.ofDisk ((p.run.run Staging.Registry.answer).run s.registry)).bind fun (x, registry) =>
    .done (x, { s with registry := registry })

/-- A question to the catalog. -/
def consult {α : Type} (f : Catalog.Contents → α) : Kept (Except ExtractError α) := fun s =>
  match s.catalog with
  | some store => .done (.ok (f store.contents), s)
  | none => .done (.error (.catalog (.reported "no catalog is attached")), s)

/-- A change of the catalog. -/
def amend (f : Catalog.Contents → Except Catalog.Fault Catalog.Contents) :
    Kept (Except ExtractError Unit) := fun s =>
  match s.catalog with
  | some store => (Machine.ofDisk (store.update f)).bind fun (x, store) =>
      .done (x, { s with catalog := some store })
  | none => .done (.error (.catalog (.reported "no catalog is attached")), s)

/-- Opens the sink of an entity and run. -/
def openSink (places : Places) (entity run : String) : Kept (Except ExtractError Unit) := fun s =>
  (Machine.ofDisk (Sink.create places.output entity run places.compressed).run).bind fun
    | .ok sink => .done (.ok (), { s with sink := some sink })
    | .error e => .done (.error e, s)

/-- Gives records to the open sink. -/
def writeBatch (batch : Batch) : Kept (Except ExtractError Unit) := fun s =>
  match s.sink with
  | some sink =>
    let (x, sink) := sink.takeAll batch.records
    .done (x.mapError ExtractError.sink, { s with sink := some sink })
  | none => .done (.error (.sink (.reported "no sink is open")), s)

/-- Finishes the open sink. -/
def finishSink : Kept (Except ExtractError Summary) := fun s =>
  match s.sink with
  | some sink => (Machine.ofDisk sink.finish.run).bind fun x => .done (x, { s with sink := none })
  | none => .done (.error (.sink (.reported "no sink is open")), s)

/-- Gives the open sink up. -/
def dropSink : Kept Unit := fun s =>
  match s.sink with
  | some sink => (Machine.ofDisk sink.drop).bind fun _ => .done ((), { s with sink := none })
  | none => .done ((), s)

/-- Writes a report into a directory. -/
def saveReport (directory : String) (report : Report) : Storing Unit := do
  let path := Path.join directory ("report_" ++ report.run ++ ".json")
  Storing.makeDirectories directory
  Storing.write path (Utf8.encodeString (Json.pretty report.encode))

/-- A request that is passed on to the machine. -/
def passOn {α : Type} (p : Program Machine.service α) : Kept α := fun s =>
  p.bind fun x => .done (x, s)

/-- Answers a request of the engine. -/
def answer (places : Places) : (r : Request) → Kept r.Reply
  | .createJob r => staged (Staging.createJob places.staging r)
  | .jobStatus job => staged (Staging.jobStatus job)
  | .submitBatch job _ => staged (Staging.submitBatch places.staging job)
  | .batchStatus job batch => staged (Staging.batchStatus job batch)
  | .listBatches job => staged (Staging.listBatches job)
  | .listResults job batch => staged (Staging.listResults job batch)
  | .openResult job reference => staged (Staging.openResult job reference)
  | .closeJob job => staged (Staging.closeJob job)
  | .recordCount query => storing (Staging.recordCount places.staging query)
  | .highWatermark query column => storing (Staging.highWatermark places.staging query column)
  | .fetchRecords query => storing (Staging.fetchRecords places.staging query)
  | .openSink entity run => openSink places entity run
  | .writeBatch batch => writeBatch batch
  | .finishSink => finishSink
  | .dropSink => dropSink
  | .getTable database name => consult fun c => c.table? database name
  | .createTable table => amend (Catalog.Contents.create table)
  | .alterTable table => amend (Catalog.Contents.alter table)
  | .getPartition database name values => consult fun c => c.partition? database name values
  | .addPartition database name partition => amend (Catalog.Contents.add database name partition)
  | .alterPartition database name partition => amend (Catalog.Contents.move database name partition)
  | .sleep seconds => passOn (request (S := Machine.service) (.sleep seconds))
  | .clock => passOn (request (S := Machine.service) .clock)
  | .saveReport directory report => storing (saveReport directory report)
  | .tellFailure entity e =>
    passOn (Machine.tell .error ("Entity " ++ entity ++ " failed: " ++ e.message))

end Harvest.Local
