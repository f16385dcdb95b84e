import Harvest.Services

/-!
# Waiting for batches

A batch is asked for its state, one sleep between two questions, until the state is
one that it does not leave. How often that is done is bounded by `patience`: a
caller that runs out of it gets an error of its own, and a larger patience changes
nothing else. The child batches of a job that the service has split are waited for
one after the other, up to the first that failed.
-/

namespace Harvest

open Engine

namespace Polling

/-- Asks for a batch until it is completed or failed, `batch` being the last answer. -/
def settle (job : String) (interval : Nat) (id : String) :
    (patience : Nat) → BatchInfo → Engine BatchInfo
  | 0, batch => if batch.state.isTerminal then pure batch else throw (.unsettled job id)
  | patience + 1, batch =>
    if batch.state.isTerminal then pure batch
    else do
      sleep interval
      let refreshed ← batchStatus job id
      settle job interval id patience refreshed

/-- Asks for one batch until it is completed or failed. -/
def untilTerminal (job id : String) (interval patience : Nat) : Engine BatchInfo := do
  let batch ← batchStatus job id
  settle job interval id patience batch

/-- Waits for batches one after the other; stops behind the first one that failed. -/
def waitEach (job : String) (interval patience : Nat) : List BatchInfo → Engine (List BatchInfo)
  | [] => pure []
  | child :: rest => do
    let refreshed ← untilTerminal job child.id interval patience
    if refreshed.state = .failed then pure [refreshed]
    else do
      let others ← waitEach job interval patience rest
      pure (refreshed :: others)

/-- Waits for the child batches of a split job. The first batch of the list is the one that
was split and is not asked for. -/
def waitForChildren (job : String) (interval patience : Nat) (batches : List BatchInfo) :
    Engine (List BatchInfo) :=
  waitEach job interval patience (batches.drop 1)

end Polling

namespace BatchInfo

/-- The error that a failed batch stands for. -/
def failure (batch : BatchInfo) (entity : String) : ExtractError :=
  .jobFailure entity batch.job batch.id (batch.stateMessage.getD "no message from server")

/-- Refuses a batch that failed. -/
def ensureNotFailed (batch : BatchInfo) (entity : String) : Except ExtractError Unit :=
  if batch.state = .failed then .error (batch.failure entity) else .ok ()

end BatchInfo

/-- Lists the results of the completed batches, in the order of the batches. -/
def collectResults (job : String) : List BatchInfo → Engine (List ResultReference)
  | [] => pure []
  | batch :: rest =>
    if batch.state = .completed then do
      let references ← listResults job batch.id
      let others ← collectResults job rest
      pure (references ++ others)
    else collectResults job rest

end Harvest
