import Harvest.Catalog.Basic
import Harvest.Csv.Row
import Harvest.Settings
import Harvest.Watermark

/-!
# Errors of an extraction

Each error keeps its cause; its text is made in one place. Only a stream that
breaks is ever tried again, every other error ends the extraction of its entity.
A service may also report a fault in its own words.
-/

namespace Harvest

/-- A fault of the storage beneath, by its text. -/
structure StorageFault where
  text : String
  deriving DecidableEq, Repr

/-- Why the bulk service refuses a request. -/
inductive RemoteFault
  | nothingStaged (entity root : String)
  | unknownJob (job : String)
  | unknownBatch (batch job : String)
  | unknownResult (batch result job : String)
  | jobNotOpen (job : String)
  | reported (message : String)
  deriving DecidableEq, Repr

/-- The text of a fault. -/
def RemoteFault.message : RemoteFault → String
  | .nothingStaged entity root => "no staged data for entity " ++ entity ++ " under " ++ root
  | .unknownJob job => "unknown job " ++ job
  | .unknownBatch batch job => "unknown batch " ++ batch ++ " in job " ++ job
  | .unknownResult batch result job =>
    "unknown result " ++ batch ++ "/" ++ result ++ " in job " ++ job
  | .jobNotOpen job => "job " ++ job ++ " is not open"
  | .reported message => message

/-- Why rows or values cannot be decoded. -/
inductive DecodeFault
  /-- A row of a result page. -/
  | row (entity : String) (reference : ResultReference) (job : String) (fault : Csv.Fault)
  /-- A row that is read again after a reconnect. -/
  | replayedRow (fault : Csv.Fault)
  /-- A row of a staged file. -/
  | stagedRow (path : String) (fault : Csv.Fault)
  /-- A staged file that breaks off. -/
  | stagedBreak (path reason : String)
  | watermark (fault : WatermarkFault)
  | reported (message : String)
  deriving DecidableEq, Repr

/-- The text of a fault. -/
def DecodeFault.message : DecodeFault → String
  | .row entity reference job fault =>
    entity ++ ": result " ++ reference.text ++ " of job " ++ job ++ ": " ++ fault.message
  | .replayedRow fault => fault.message
  | .stagedRow path fault => path ++ ": " ++ fault.message
  | .stagedBreak path reason => path ++ ": " ++ reason
  | .watermark fault => fault.message
  | .reported message => message

/-- Why the output cannot be written. -/
inductive SinkFault
  /-- A record with a column that the file's header lacks. -/
  | unknownColumn (column file : String)
  | reported (message : String)
  deriving DecidableEq, Repr

/-- The text of a fault. -/
def SinkFault.message : SinkFault → String
  | .unknownColumn column file =>
    "column " ++ column ++ " is not part of the header of " ++ file
  | .reported message => message

/-- The errors of an extraction. -/
inductive ExtractError
  | config (fault : ConfigFault)
  /-- A batch failed on the service. -/
  | jobFailure (entity job batch message : String)
  /-- A result broke while it was read, and every reconnect was spent. -/
  | transientStream (entity job : String) (reference : ResultReference) (attempts : Nat)
      (cause : String)
  /-- After a reconnect, the rows read again did not end with the last row delivered. -/
  | repositionMismatch (entity job : String) (reference : ResultReference) (skipped : Nat)
  /-- The reader was used again after an error. -/
  | streamAborted (entity job reason : String)
  /-- A batch was asked for its state as often as the caller is willing to. -/
  | unsettled (job batch : String)
  /-- An entity gave as many batches as the caller is willing to take. -/
  | unending (entity : String)
  | remote (fault : RemoteFault)
  | query (fault : QueryFault)
  | decode (fault : DecodeFault)
  | sink (fault : SinkFault)
  | catalog (fault : Catalog.Fault)
  | storage (fault : StorageFault)
  deriving DecidableEq, Repr

/-- The name of the kind of an error. -/
def ExtractError.kind : ExtractError → String
  | .config _ => "ConfigError"
  | .jobFailure .. => "JobFailure"
  | .transientStream .. => "TransientStream"
  | .repositionMismatch .. => "RepositionMismatch"
  | .streamAborted .. => "StreamAborted"
  | .unsettled .. => "Unsettled"
  | .unending _ => "Unending"
  | .remote _ => "Remote"
  | .query _ => "Query"
  | .decode _ => "Decode"
  | .sink _ => "Sink"
  | .catalog _ => "Catalog"
  | .storage _ => "IoError"

/-- The text of an error. -/
def ExtractError.message : ExtractError → String
  | .config fault => "Configuration error: " ++ fault.message
  | .jobFailure entity job batch message =>
    "Bulk job " ++ job ++ " failed for " ++ entity ++ " (batch " ++ batch ++ "): " ++ message
  | .transientStream entity job reference attempts cause =>
    "Stream for " ++ entity ++ " (job " ++ job ++ ", batch " ++ reference.batch ++
      ", result " ++ reference.result ++ ") failed after " ++ toString attempts ++
      " reconnects: " ++ cause
  | .repositionMismatch entity job reference skipped =>
    "Repositioning after reconnecting did not point to the expected record for " ++ entity ++
      " (job " ++ job ++ ", batch " ++ reference.batch ++ ", result " ++ reference.result ++
      ", skipped " ++ toString skipped ++ ")"
  | .streamAborted entity job reason =>
    "Result stream for " ++ entity ++ " (job " ++ job ++ ") already failed: " ++ reason
  | .unsettled job batch => "Batch " ++ batch ++ " of job " ++ job ++ " did not settle"
  | .unending entity => "The rows of " ++ entity ++ " do not end"
  | .remote fault => "Remote call failed: " ++ fault.message
  | .query fault => "Invalid query: " ++ fault.message
  | .decode fault => "Failed to decode result row: " ++ fault.message
  | .sink fault => "Output sink error: " ++ fault.message
  | .catalog fault => "Catalog error: " ++ fault.message
  | .storage fault => "I/O error: " ++ fault.text

end Harvest
