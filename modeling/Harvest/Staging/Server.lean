import Harvest.Query
import Harvest.Staging.File
import Harvest.Staging.Registry

/-!
# Serving staged results

The requests of a bulk service over a directory with one directory for each entity. The
text of a query is not evaluated: a job serves all results that are staged for its
entity. If it may be split, the batch that is submitted is left unprocessed and each
result becomes a batch of its own behind it.
-/

namespace Harvest.Staging

open Staged

/-- The directory of an entity, which has to be there. -/
def entityDirectory (root entity : String) : Storing String := do
  let directory := Path.join root entity
  if ← Storing.isDirectory directory then pure directory
  else throw (.remote (.nothingStaged entity root))

/-- The staged files of an entity. -/
def entityFiles (root entity : String) : Storing (List (String × String)) := do
  let directory ← entityDirectory root entity
  stagedFiles directory

/-- Creates a job for an entity. -/
def createJob (root : String) (r : JobRequest) : Staged JobInfo := do
  let _ ← ofStoring (entityDirectory root r.entity)
  let id ← allocate "750"
  let info : JobInfo := ⟨id, r.entity, r.operation, .opened⟩
  enter ⟨info, r.chunkSize, []⟩
  pure info

/-- What is known of a job. -/
def jobStatus (job : String) : Staged JobInfo := do
  let j ← look job
  pure j.info

/-- A batch of a job for each file. -/
def childBatches (job : String) : List (String × String) → Staged (List StagedBatch)
  | [] => pure []
  | file :: rest => do
    let id ← allocate "751"
    let children ← childBatches job rest
    pure (⟨⟨id, job, .completed, none⟩, [file]⟩ :: children)

/-- Submits a query to a job. -/
def submitBatch (root job : String) : Staged BatchInfo := do
  let info ← jobStatus job
  let files ← ofStoring (entityFiles root info.entity)
  let id ← allocate "751"
  let j ← look job
  match j.chunkSize with
  | some _ => do
    let primary : BatchInfo := ⟨id, job, .notProcessed, none⟩
    let children ← childBatches job files
    add job (⟨primary, []⟩ :: children)
    pure primary
  | none => do
    let primary : BatchInfo := ⟨id, job, .completed, none⟩
    add job [⟨primary, files⟩]
    pure primary

/-- A batch of a job, which has to be there. -/
def findBatch (job batch : String) : Staged StagedBatch := do
  let j ← look job
  match j.batches.find? fun b => b.info.id == batch with
  | some b => pure b
  | none => throw (.remote (.unknownBatch batch job))

/-- What is known of a batch. -/
def batchStatus (job batch : String) : Staged BatchInfo := do
  let b ← findBatch job batch
  pure b.info

/-- The batches of a job. -/
def listBatches (job : String) : Staged (List BatchInfo) := do
  let j ← look job
  pure (j.batches.map StagedBatch.info)

/-- The results of a batch. -/
def listResults (job batch : String) : Staged (List ResultReference) := do
  let b ← findBatch job batch
  pure (b.results.map fun r => ⟨batch, r.1⟩)

/-- Opens a result. -/
def openResult (job : String) (reference : ResultReference) : Staged Page := do
  let j ← look job
  let results := (j.batches.filter fun b => b.info.id == reference.batch).flatMap
    StagedBatch.results
  match results.lookup reference.result with
  | some path => ofStoring (openFile path)
  | none => throw (.remote (.unknownResult reference.batch reference.result job))

/-- Closes a job. -/
def closeJob (job : String) : Staged JobInfo := Staged.close job

/-- The entity of a query. -/
def queriedEntity (query : String) : Storing String :=
  ofExcept ((Query.entity query).mapError ExtractError.query)

/-- Adds up over files. -/
def foldFiles {α : Type} (step : α → String → Storing α) (x : α) :
    List (String × String) → Storing α
  | [] => pure x
  | (_, path) :: rest => do
    let x ← step x path
    foldFiles step x rest

/-- The number of staged records of the queried entity. -/
def recordCount (root query : String) : Storing Nat := do
  let entity ← queriedEntity query
  let files ← entityFiles root entity
  foldFiles (fun n path => do
    let m ← readFile path (countRows path)
    pure (n + m)) 0 files

/-- The largest staged value in a column of the queried entity. -/
def highWatermark (root query column : String) : Storing (Option String) := do
  let entity ← queriedEntity query
  let files ← entityFiles root entity
  foldFiles (fun best path => readFile path (maxOfFile path column best)) none files

/-- The records of the queried entity that are staged as logically deleted. -/
def fetchRecords (root query : String) : Storing (List Record) := do
  let entity ← queriedEntity query
  let directory ← entityDirectory root entity
  let deleted := Path.join directory "deleted"
  if ← Storing.isDirectory deleted then
    let files ← stagedFiles deleted
    foldFiles (fun records path => do
      let more ← readFile path (recordsOf path)
      pure (records ++ more)) [] files
  else pure []

end Harvest.Staging
