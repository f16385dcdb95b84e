import Harvest.Batcher
import Harvest.Catalog.Registration
import Harvest.Configuration.Basic
import Harvest.Job.Prepare
import Harvest.Path
import Harvest.Query

/-!
# Extracting an entity

The query of an entity is composed, its high watermark looked up, and a job run for it.
The batches of its results go to the sink one after the other, then the logically
deleted rows if they have to be fetched on their own. When the job is closed and the
file finished, the table and the partition of the run are registered. Where a step
fails, the sink is given up and the job closed, and nothing is registered.
-/

namespace Harvest

/-- What the extractions of a run have in common. -/
structure RunContext where
  /-- The name of the run. -/
  run : String
  configuration : Configuration
  settings : Settings
  /-- The database for registrations, if there are to be any. -/
  database : Option String
  /-- How often a batch is asked for its state, and how many batches are taken, at most. -/
  patience : Nat
  deriving Repr

/-- What was streamed to the sink. -/
structure Streamed where
  rows : Nat
  softDeletedRows : Nat
  columns : List String
  deriving DecidableEq, Repr

/-- The high watermark of an entity without rows. -/
def noWatermark : Int := -1

namespace Extraction

open Engine

/-- A query, or the error that there is none. -/
def composed {α : Type} (r : Except QueryFault α) : Engine α :=
  ofExcept (r.mapError ExtractError.query)

/-- The configured predicates and the one for the least watermark. -/
def predicates (e : EntityOptions) : Except QueryFault (List String) :=
  let configured := e.predicates.getD []
  match e.watermarkColumn, e.lowWatermark with
  | some column, some low =>
    (Bound.condition ⟨column, low, ">=", e.watermarkKind.getD .timestamp⟩).map fun bound =>
      configured ++ [bound]
  | _, _ => .ok configured

/-- Looks the largest watermark up. -/
def lookUpWatermark (e : EntityOptions) (column : String) (predicates : List String) :
    Engine Int := do
  let query ← composed (Query.watermark e.name e.baseQuery column predicates)
  match ← highWatermark query column with
  | some value =>
    ofExcept ((readWatermark value (e.watermarkKind.getD .timestamp)).mapError fun fault =>
      .decode (.watermark fault))
  | none => pure noWatermark

/-- The high watermark of an entity that has a watermark column. -/
def watermarkOf (e : EntityOptions) (predicates : List String) : Engine (Option Int) :=
  match e.watermarkColumn with
  | some column => do
    let value ← lookUpWatermark e column predicates
    pure (some value)
  | none => pure none

/-- Fetches the logically deleted rows and gives them to the sink behind `rows` others. -/
def fetchDeleted (c : RunContext) (e : EntityOptions) (predicates : List String) (rows : Nat) :
    Engine Nat := do
  let query ← composed (Query.compose e.baseQuery predicates (some c.settings.softDeleteColumn))
  let records ← fetchRecords query
  match records with
  | [] => pure 0
  | records => do
    writeBatch ⟨records, rows + records.length⟩
    pure records.length

/-- Streams the batches into the sink; `deleted` rows were fetched on their own before. -/
def stream (c : RunContext) (e : EntityOptions) (predicates : List String) (deleted : Nat)
    (patience : Nat) (b : Batcher) : Engine Streamed :=
  match patience with
  | 0 => throw (.unending e.name)
  | patience + 1 => do
    let (pulled, b) ← ofTotal b.next
    match ← ofExcept pulled with
    | .batch batch => do
      writeBatch batch
      stream c e predicates deleted patience b
    | .fallback => do
      let fetched ← fetchDeleted c e predicates b.totalRows
      stream c e predicates fetched patience b
    | .finished => pure ⟨b.totalRows, deleted, b.columns⟩

/-- The table of an entity for what its sink has written. -/
def tableOf (database : String) (e : EntityOptions) (summary : Summary) (columns : List String) :
    Catalog.Table where
  database := database
  name := Text.lower e.name
  location := (Path.parent? summary.location).getD summary.location
  columns := if summary.columns.isEmpty then columns else summary.columns
  partitionKeys := ["run_id"]

/-- Registers what was written, if there is a database for it. -/
def register (c : RunContext) (e : EntityOptions) (summary : Summary) (columns : List String) :
    Engine Unit :=
  match c.database with
  | none => pure ()
  | some database => do
    let table := tableOf database e summary columns
    let _ ← Catalog.registerTable table
    let _ ← Catalog.registerPartition table ⟨[c.run], summary.location⟩
    pure ()

/-- Gives the open sink up. -/
def giveUp : Program services Unit := Program.request (S := services) .dropSink

/-- Closes the job once all rows are streamed. If that fails the sink is given up, and it is
tried once more to close the job. -/
def closeJob (job : OpenJob) : Engine Unit := do
  match ← ofTotal job.close with
  | (.ok (), _) => pure ()
  | (.error error, job) =>
    let giveUpAll := giveUp.bind fun _ => job.drop
    onError giveUpAll (throw error)

/-- Streams the results of a prepared job into the sink of the entity, and closes the job. -/
def collect (c : RunContext) (e : EntityOptions) (predicates : List String) (p : PreparedJob) :
    Engine Streamed := do
  let context : StreamContext := ⟨e.name, p.job.id, c.settings.streamRetryLimit⟩
  let batcher := Batcher.start (.start context p.references) c.settings e.columns
  let streamed ← p.job.guarding do
    openSink e.name c.run
    onError giveUp (stream c e predicates 0 c.patience batcher)
  closeJob p.job
  pure streamed

/-- Extracts an entity. -/
def extract (c : RunContext) (e : EntityOptions) : Engine TaskResult := do
  let begun ← clock
  let predicates ← composed (predicates e)
  let watermark ← watermarkOf e predicates
  let query ← composed (Query.compose e.baseQuery predicates none)
  let countQuery ← composed (Query.count e.name e.baseQuery predicates)
  let plan : JobPlan := ⟨e.name, query, countQuery, e.expectedCount⟩
  let prepared ← plan.prepare c.settings c.patience
  let streamed ← collect c e predicates prepared
  let summary ← onError giveUp finishSink
  register c e summary streamed.columns
  let ended ← clock
  pure { entity := e.name, job := some prepared.job.id, rows := streamed.rows,
         softDeletedRows := streamed.softDeletedRows, bytes := summary.bytes,
         highWatermark := watermark, duration := ended - begun,
         status := TaskResult.successStatus, error := none }

end Extraction

end Harvest
