import Harvest.Error
import Harvest.Program
import Harvest.Record
import Harvest.Report.Basic
import Harvest.Stream.Feed

/-!
# The services around the engine

Everything the engine does to the outside is one of these requests: to the bulk
service that runs jobs, to the query service beside it, to the sink that takes the
rows, to the catalog, to the clock, and to the keeper of reports and messages. The
`Engine` is the monad of programs over them that may end with an error.
-/

namespace Harvest

/-- What a sink has written for an entity. -/
structure Summary where
  /-- The directory that holds the files. -/
  location : String
  files : List String
  rows : Nat
  bytes : Nat
  /-- The columns of the files, in order. -/
  columns : List String
  deriving DecidableEq, Repr

/-- The requests of the engine. -/
inductive Request
  | createJob (request : JobRequest)
  | jobStatus (job : String)
  | submitBatch (job query : String)
  | batchStatus (job batch : String)
  | listBatches (job : String)
  | listResults (job batch : String)
  | openResult (job : String) (reference : ResultReference)
  | closeJob (job : String)
  | recordCount (query : String)
  | highWatermark (query column : String)
  | fetchRecords (query : String)
  | openSink (entity run : String)
  | writeBatch (batch : Batch)
  | finishSink
  /-- Gives the open sink up; what it was given is still written. -/
  | dropSink
  | getTable (database name : String)
  | createTable (table : Catalog.Table)
  | alterTable (table : Catalog.Table)
  | getPartition (database name : String) (values : List String)
  | addPartition (database name : String) (partition : Catalog.Partition)
  | alterPartition (database name : String) (partition : Catalog.Partition)
  | sleep (seconds : Nat)
  /-- The seconds that have passed since some fixed moment. -/
  | clock
  | saveReport (directory : String) (report : Report)
  /-- Tells that the extraction of an entity failed. -/
  | tellFailure (entity : String) (error : ExtractError)

/-- The reply to each request. -/
def Request.Reply : Request → Type
  | .createJob _ => Except ExtractError JobInfo
  | .jobStatus _ => Except ExtractError JobInfo
  | .submitBatch _ _ => Except ExtractError BatchInfo
  | .batchStatus _ _ => Except ExtractError BatchInfo
  | .listBatches _ => Except ExtractError (List BatchInfo)
  | .listResults _ _ => Except ExtractError (List ResultReference)
  | .openResult _ _ => Except ExtractError Page
  | .closeJob _ => Except ExtractError JobInfo
  | .recordCount _ => Except ExtractError Nat
  | .highWatermark _ _ => Except ExtractError (Option String)
  | .fetchRecords _ => Except ExtractError (List Record)
  | .openSink _ _ => Except ExtractError Unit
  | .writeBatch _ => Except ExtractError Unit
  | .finishSink => Except ExtractError Summary
  | .dropSink => Unit
  | .getTable _ _ => Except ExtractError (Option Catalog.Table)
  | .createTable _ => Except ExtractError Unit
  | .alterTable _ => Except ExtractError Unit
  | .getPartition _ _ _ => Except ExtractError (Option Catalog.Partition)
  | .addPartition _ _ _ => Except ExtractError Unit
  | .alterPartition _ _ _ => Except ExtractError Unit
  | .sleep _ => Unit
  | .clock => Float
  | .saveReport _ _ => Except ExtractError Unit
  | .tellFailure _ _ => Unit

/-- The reply that refuses a request with an error, where a request can fail. -/
def Request.refuse (e : ExtractError) : (r : Request) → Option r.Reply
  | .createJob _ => some (.error e)
  | .jobStatus _ => some (.error e)
  | .submitBatch _ _ => some (.error e)
  | .batchStatus _ _ => some (.error e)
  | .listBatches _ => some (.error e)
  | .listResults _ _ => some (.error e)
  | .openResult _ _ => some (.error e)
  | .closeJob _ => some (.error e)
  | .recordCount _ => some (.error e)
  | .highWatermark _ _ => some (.error e)
  | .fetchRecords _ => some (.error e)
  | .openSink _ _ => some (.error e)
  | .writeBatch _ => some (.error e)
  | .finishSink => some (.error e)
  | .dropSink => none
  | .getTable _ _ => some (.error e)
  | .createTable _ => some (.error e)
  | .alterTable _ => some (.error e)
  | .getPartition _ _ _ => some (.error e)
  | .addPartition _ _ _ => some (.error e)
  | .alterPartition _ _ _ => some (.error e)
  | .sleep _ => none
  | .clock => none
  | .saveReport _ _ => some (.error e)
  | .tellFailure _ _ => none

/-- The services around the engine. -/
abbrev services : Service := ⟨Request, Request.Reply⟩

/-- Programs over the services that may end with an error. -/
abbrev Engine := ExceptT ExtractError (Program services)

namespace Engine

/-- A program that cannot fail. -/
def ofTotal {α : Type} (p : Program services α) : Engine α := ExceptT.lift p

/-- Runs `cleanup` where `body` ends with an error, and keeps that error. -/
def onError {α : Type} (cleanup : Program services Unit) (body : Engine α) : Engine α :=
  Program.bind body fun
    | .ok value => .done (.ok value)
    | .error e => Program.bind cleanup fun _ => .done (.error e)

end Engine

namespace Engine

open Program

/-- Creates a job. -/
def createJob (r : JobRequest) : Engine JobInfo := request (S := services) (.createJob r)

/-- What is known of a job. -/
def jobStatus (job : String) : Engine JobInfo := request (S := services) (.jobStatus job)

/-- Submits a query to a job. -/
def submitBatch (job query : String) : Engine BatchInfo :=
  request (S := services) (.submitBatch job query)

/-- What is known of a batch. -/
def batchStatus (job batch : String) : Engine BatchInfo :=
  request (S := services) (.batchStatus job batch)

/-- The batches of a job, the submitted one first. -/
def listBatches (job : String) : Engine (List BatchInfo) :=
  request (S := services) (.listBatches job)

/-- The results of a batch. -/
def listResults (job batch : String) : Engine (List ResultReference) :=
  request (S := services) (.listResults job batch)

/-- Closes a job. -/
def closeJob (job : String) : Engine JobInfo := request (S := services) (.closeJob job)

/-- The number of records of a query. -/
def recordCount (query : String) : Engine Nat := request (S := services) (.recordCount query)

/-- The largest value in the column of a query, if there is one. -/
def highWatermark (query column : String) : Engine (Option String) :=
  request (S := services) (.highWatermark query column)

/-- The records of a query. -/
def fetchRecords (query : String) : Engine (List Record) :=
  request (S := services) (.fetchRecords query)

/-- Opens the sink of an entity and run. -/
def openSink (entity run : String) : Engine Unit :=
  request (S := services) (.openSink entity run)

/-- Gives records to the open sink. -/
def writeBatch (batch : Batch) : Engine Unit := request (S := services) (.writeBatch batch)

/-- Finishes the open sink. -/
def finishSink : Engine Summary := request (S := services) .finishSink

/-- The table of a name, if the catalog has it. -/
def getTable (database name : String) : Engine (Option Catalog.Table) :=
  request (S := services) (.getTable database name)

/-- Enters a table that is new to the catalog. -/
def createTable (table : Catalog.Table) : Engine Unit :=
  request (S := services) (.createTable table)

/-- Replaces a table of the catalog. -/
def alterTable (table : Catalog.Table) : Engine Unit :=
  request (S := services) (.alterTable table)

/-- The partition of some values, if its table has it. -/
def getPartition (database name : String) (values : List String) :
    Engine (Option Catalog.Partition) :=
  request (S := services) (.getPartition database name values)

/-- Adds a partition that is new to its table. -/
def addPartition (database name : String) (partition : Catalog.Partition) : Engine Unit :=
  request (S := services) (.addPartition database name partition)

/-- Replaces a partition of a table. -/
def alterPartition (database name : String) (partition : Catalog.Partition) : Engine Unit :=
  request (S := services) (.alterPartition database name partition)

/-- Waits for some seconds. -/
def sleep (seconds : Nat) : Engine Unit := ofTotal (request (S := services) (.sleep seconds))

/-- The seconds that have passed since some fixed moment. -/
def clock : Engine Float := ofTotal (request (S := services) .clock)

/-- Saves the report of a run. -/
def saveReport (directory : String) (report : Report) : Engine Unit :=
  request (S := services) (.saveReport directory report)

end Engine

end Harvest
