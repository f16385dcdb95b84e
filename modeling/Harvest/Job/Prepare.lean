import Harvest.Job.Guard
import Harvest.Job.Polling

/-!
# Running a job

A job is prepared in three steps. It is decided whether the service may split the
query, which takes a count of the records unless the settings or the caller say
enough. Then the job is created and the query submitted. Last, the batch is waited
for, and the child batches if it was split, until the results can be listed.
-/

namespace Harvest

open Engine

/-- The seconds between two questions for a batch of so many rows: thirty, and two more for
every ten thousand rows begun, but at most six hundred. -/
def pollInterval (rows : Nat) : Nat := min (30 + (rows + 9999) / 10000 * 2) 600

/-- A job whose batches are completed. -/
structure PreparedJob where
  job : OpenJob
  references : List ResultReference
  chunked : Bool
  interval : Nat
  deriving DecidableEq, Repr

/-- What a job is to extract. -/
structure JobPlan where
  entity : String
  query : String
  /-- The query that counts the records of `query`. -/
  countQuery : String
  /-- The number of records, where the caller knows it. -/
  expected : Option Nat
  deriving DecidableEq, Repr

namespace JobPlan

/-- The expected number of records, queried where it is not known. -/
def expectedCount (plan : JobPlan) (known : Option Nat) : Engine Nat :=
  match known with
  | some n => pure n
  | none => recordCount plan.countQuery

/-- Decides whether the service may split the query; answers also what is known of the number
of records afterwards. -/
def useChunking (plan : JobPlan) (settings : Settings) : Engine (Bool × Option Nat) :=
  if !settings.chunkingEnabled then pure (false, plan.expected)
  else if settings.skipCountCheck then pure (true, plan.expected)
  else do
    let n ← plan.expectedCount plan.expected
    pure (settings.chunkSize < n, some n)

/-- Waits for the child batches of a split job; one that failed is an error, and so is a job
without any. -/
def awaitChunks (plan : JobPlan) (job : String) (interval patience : Nat) :
    Engine (List BatchInfo) := do
  let batches ← listBatches job
  let children ← Polling.waitForChildren job interval patience batches
  match children.getLast? with
  | some last => do
    ofExcept (last.ensureNotFailed plan.entity)
    pure children
  | none =>
    throw (.jobFailure plan.entity job ((batches.head?.map BatchInfo.id).getD "")
      "chunked job produced no child batches")

/-- Waits until the batches of a job are completed, `batch` being what is known of the batch
that was submitted. -/
def await (plan : JobPlan) (job : String) (chunked : Bool) (interval allPatience : Nat) :
    (patience : Nat) → BatchInfo → Engine (List BatchInfo)
  | patience, batch =>
    match batch.state with
    | .completed => pure [batch]
    | .failed => throw (batch.failure plan.entity)
    | state =>
      if state = .notProcessed ∧ chunked then plan.awaitChunks job interval allPatience
      else match patience with
        | 0 => throw (.unsettled job batch.id)
        | patience + 1 => do
          sleep interval
          let refreshed ← batchStatus job batch.id
          await plan job chunked interval allPatience patience refreshed

/-- Submits the query to a job and waits for its results. -/
def finish (plan : JobPlan) (settings : Settings) (patience : Nat) (job : OpenJob)
    (chunked : Bool) (known : Option Nat) : Engine PreparedJob := do
  let submitted ← submitBatch job.id plan.query
  let rows ← if chunked then pure settings.chunkSize else plan.expectedCount known
  let interval := pollInterval rows
  let primary ← batchStatus job.id submitted.id
  let batches ← plan.await job.id chunked interval patience patience primary
  let references ← collectResults job.id batches
  pure ⟨job, references, chunked, interval⟩

/-- Creates a job for the plan and runs it until its results are known. -/
def prepare (plan : JobPlan) (settings : Settings) (patience : Nat) : Engine PreparedJob := do
  let (chunked, known) ← plan.useChunking settings
  let created ← createJob ⟨plan.entity, settings.operation, .parallel, .csv,
    if chunked then some settings.chunkSize else none⟩
  let job := OpenJob.ofInfo created
  let info ← job.guarding (jobStatus job.id)
  let job := OpenJob.ofInfo info
  job.guarding (plan.finish settings patience job chunked known)

end JobPlan

/-- More rows never shorten the interval. -/
theorem pollInterval_mono {m n : Nat} (h : m ≤ n) : pollInterval m ≤ pollInterval n := by
  unfold pollInterval
  have : (m + 9999) / 10000 ≤ (n + 9999) / 10000 := Nat.div_le_div_right (by omega)
  omega

end Harvest
