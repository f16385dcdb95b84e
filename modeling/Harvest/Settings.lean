import Harvest.Document.Schema
import Harvest.Job.Basic
import Harvest.Text.Blank

/-!
# Settings of the engine

`ExtractOptions` are the options as they are configured; `Settings` are what the
engine works with. Chunking is granted only to callers that plan few partitions of
their own and name none, and a chunk size is brought between its two bounds.
-/

namespace Harvest

/-- Why a configuration cannot be used. -/
inductive ConfigFault
  | rootMissing
  | outputMissing
  | noEntities
  | entityUnnamed
  | watermarkColumnMissing (entity : String)
  | cpuPercent (percent : Nat)
  | softDeleteColumnMissing
  /-- The text of the configuration cannot be read. -/
  | document (fault : Document.Fault)
  /-- A service reports a fault of its configuration. -/
  | reported (message : String)
  deriving DecidableEq, Repr

/-- The text of a fault. -/
def ConfigFault.message : ConfigFault → String
  | .rootMissing => "source.root must be set"
  | .outputMissing => "output.dir must be set"
  | .noEntities => "no entities configured"
  | .entityUnnamed => "entity name must not be empty"
  | .watermarkColumnMissing entity => entity ++ ": low_watermark requires watermark_column"
  | .cpuPercent percent => "cpu_percent out of range: " ++ toString percent
  | .softDeleteColumnMissing => "soft_delete_column must not be empty"
  | .document fault => fault.message
  | .reported message => message

/-- The options of an extraction as they are configured. -/
structure ExtractOptions where
  chunkingEnabled : Bool := false
  chunkSize : Option Int := none
  skipCountCheck : Bool := false
  /-- Records of a batch; zero stands for the usual number. -/
  fetchSize : Option Nat := none
  streamRetryLimit : Option Nat := none
  useQueryAll : Bool := false
  softDeleteRetrievalDisabled : Bool := false
  softDeleteColumn : Option String := none
  maxPartitions : Option Nat := none
  userSpecifiedPartitions : Bool := false
  parallel : Option Nat := none
  cpuPercent : Option Nat := none
  deriving DecidableEq, Repr

/-- The settings that the engine works with. -/
structure Settings where
  chunkingEnabled : Bool := false
  chunkSize : Nat := 200000
  skipCountCheck : Bool := false
  batchSize : Nat := 1000
  streamRetryLimit : Nat := 5
  useQueryAll : Bool := false
  softDeleteDisabled : Bool := false
  softDeleteColumn : String := "IsDeleted"
  deriving DecidableEq, Repr

namespace Settings

/-- The least number of rows of a chunk. -/
def minChunkSize : Nat := 100000

/-- The largest number of rows of a chunk. -/
def maxChunkSize : Nat := 250000

/-- The number of rows of a chunk where none is configured. -/
def defaultChunkSize : Nat := 200000

/-- The most partitions a caller may plan for chunking to be granted. -/
def chunkingPartitionLimit : Nat := 3

/-- The number of partitions where none is configured. -/
def defaultMaxPartitions : Nat := 20

/-- The number of records of a batch where none is configured. -/
def defaultBatchSize : Nat := 1000

/-- Chunking that is requested is granted unless partitions are named or too many. -/
def chunkingEligible (requested userSpecified : Bool) (maxPartitions : Nat) : Bool :=
  requested && !userSpecified && maxPartitions ≤ chunkingPartitionLimit

/-- The chunk size nearest to the requested one between the two bounds. -/
def clampChunkSize (requested : Option Int) : Nat :=
  match requested with
  | none => defaultChunkSize
  | some size => min (max size minChunkSize) maxChunkSize |>.toNat

/-- The settings for configured options. -/
def ofOptions (o : ExtractOptions) : Except ConfigFault Settings :=
  let column := o.softDeleteColumn.getD "IsDeleted"
  if Text.isBlankText column then .error .softDeleteColumnMissing
  else .ok {
    chunkingEnabled := chunkingEligible o.chunkingEnabled o.userSpecifiedPartitions
      (o.maxPartitions.getD defaultMaxPartitions)
    chunkSize := clampChunkSize o.chunkSize
    skipCountCheck := o.skipCountCheck
    batchSize := match o.fetchSize with
      | none => defaultBatchSize
      | some 0 => defaultBatchSize
      | some n => n
    streamRetryLimit := o.streamRetryLimit.getD 5
    useQueryAll := o.useQueryAll
    softDeleteDisabled := o.softDeleteRetrievalDisabled
    softDeleteColumn := column }

/-- The operation that jobs run. -/
def operation (s : Settings) : Operation := if s.useQueryAll then .queryAll else .query

/-- The version of the service's interface: the extended operation needs a newer one. -/
def apiVersion (s : Settings) : String := if s.useQueryAll then "42.0" else "29.0"

theorem chunkingEligible_iff (requested userSpecified : Bool) (maxPartitions : Nat) :
    chunkingEligible requested userSpecified maxPartitions = true ↔
      requested = true ∧ userSpecified = false ∧ maxPartitions ≤ 3 := by
  unfold chunkingEligible chunkingPartitionLimit
  simp [and_assoc]

end Settings

/-- The number of entities extracted at once: the configured one, or a share of the cores,
but at least one. -/
def workerCount (o : ExtractOptions) (cores : Nat) : Nat :=
  match o.parallel with
  | some n => max n 1
  | none =>
    let share := cores.toFloat * ((o.cpuPercent.getD 50).toFloat / 100)
    max share.ceil.toUInt64.toNat 1

end Harvest
