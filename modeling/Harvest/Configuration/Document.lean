import Harvest.Configuration.Basic
import Harvest.Job.Document
import Harvest.Json.Reader
import Harvest.Yaml.Value

/-!
# Configurations as documents

A configuration is a document whose fields have the names below. Its text is JSON where
the path of its file says so, and otherwise YAML.
-/

namespace Harvest

open Document

variable {Leaf : Type} (rd : LeafReading Leaf)

/-- Reads the options of an extraction. -/
def ExtractOptions.decode : Decoder Leaf ExtractOptions :=
  Schema.decode rd <| (Schema.pure ExtractOptions.mk)
    |>.and (.withDefault "chunking_enabled" (boolean rd) false)
    |>.and (.maybe rd "chunk_size" (integer rd))
    |>.and (.withDefault "skip_count_check" (boolean rd) false)
    |>.and (.maybe rd "fetch_size" (natural rd 64))
    |>.and (.maybe rd "stream_retry_limit" (natural rd 32))
    |>.and (.withDefault "use_query_all" (boolean rd) false)
    |>.and (.withDefault "soft_delete_retrieval_disabled" (boolean rd) false)
    |>.and (.maybe rd "soft_delete_column" (string rd))
    |>.and (.maybe rd "max_partitions" (natural rd 32))
    |>.and (.withDefault "user_specified_partitions" (boolean rd) false)
    |>.and (.maybe rd "parallel" (natural rd 64))
    |>.and (.maybe rd "cpu_percent" (natural rd 8))

/-- Reads an entity. -/
def EntityOptions.decode : Decoder Leaf EntityOptions :=
  Schema.decode rd <| (Schema.pure EntityOptions.mk)
    |>.and (.required "name" (string rd))
    |>.and (.maybe rd "query" (string rd))
    |>.and (.maybe rd "columns" (list rd (string rd)))
    |>.and (.maybe rd "predicates" (list rd (string rd)))
    |>.and (.maybe rd "watermark_column" (string rd))
    |>.and (.maybe rd "watermark_type" (variant rd WatermarkKind.all))
    |>.and (.maybe rd "low_watermark" (integer rd))
    |>.and (.maybe rd "expected_record_count" (natural rd 64))

/-- Reads where output goes. -/
def OutputOptions.decode : Decoder Leaf OutputOptions :=
  Schema.decode rd <| (Schema.pure OutputOptions.mk)
    |>.and (.required "dir" (string rd))
    |>.and (.maybe rd "gzip" (boolean rd))

/-- Reads which catalog is used. -/
def CatalogOptions.decode : Decoder Leaf CatalogOptions :=
  Schema.decode rd <| (Schema.pure CatalogOptions.mk)
    |>.and (.required "path" (string rd))
    |>.and (.required "database" (string rd))

/-- Reads the directory with the staged results. -/
def decodeSource : Decoder Leaf String :=
  Schema.decode rd <| (Schema.pure id) |>.and (.required "root" (string rd))

/-- Reads a configuration. -/
def Configuration.decode : Decoder Leaf Configuration :=
  Schema.decode rd <| (Schema.pure Configuration.mk)
    |>.and (.required "source" (decodeSource rd))
    |>.and (.withDefault "extract" (ExtractOptions.decode rd) {})
    |>.and (.required "output" (OutputOptions.decode rd))
    |>.and (.maybe rd "catalog" (CatalogOptions.decode rd))
    |>.and (.withDefault "entities" (list rd (EntityOptions.decode rd)) [])

section Encoders

open Json

/-- The document of the options of an extraction. -/
def ExtractOptions.encode (o : ExtractOptions) : Value :=
  .object [("chunking_enabled", .bool o.chunkingEnabled),
    ("chunk_size", .optional .integer o.chunkSize),
    ("skip_count_check", .bool o.skipCountCheck),
    ("fetch_size", .optional .natural o.fetchSize),
    ("stream_retry_limit", .optional .natural o.streamRetryLimit),
    ("use_query_all", .bool o.useQueryAll),
    ("soft_delete_retrieval_disabled", .bool o.softDeleteRetrievalDisabled),
    ("soft_delete_column", .optional .text o.softDeleteColumn),
    ("max_partitions", .optional .natural o.maxPartitions),
    ("user_specified_partitions", .bool o.userSpecifiedPartitions),
    ("parallel", .optional .natural o.parallel),
    ("cpu_percent", .optional .natural o.cpuPercent)]

/-- The document of an entity, with the query that it stands for. -/
def EntityOptions.encode (e : EntityOptions) : Value :=
  .object [("name", .text e.name), ("query", .optional .text e.query),
    ("columns", .optional .texts e.columns), ("predicates", .optional .texts e.predicates),
    ("watermark_column", .optional .text e.watermarkColumn),
    ("watermark_type", .optional (fun k => .text k.name) e.watermarkKind),
    ("low_watermark", .optional .integer e.lowWatermark),
    ("expected_record_count", .optional .natural e.expectedCount),
    ("base_query", .text e.baseQuery)]

/-- The document of a configuration. -/
def Configuration.encode (c : Configuration) : Value :=
  .object [("source", .object [("root", .text c.sourceRoot)]), ("extract", c.extract.encode),
    ("output", .object [("dir", .text c.output.directory),
      ("gzip", .optional .bool c.output.gzip)]),
    ("catalog", .optional (fun o =>
      .object [("path", .text o.path), ("database", .text o.database)]) c.catalog),
    ("entities", .array (c.entities.map EntityOptions.encode))]

/-- The document of the arguments. -/
def Arguments.encode (a : Arguments) : Value :=
  .object [("config", .text a.config), ("source_root", .optional .text a.sourceRoot),
    ("output", .optional .text a.output), ("entities", .texts a.entities),
    ("enable_chunking", .bool a.enableChunking), ("chunk_size", .optional .integer a.chunkSize),
    ("skip_count_check", .bool a.skipCountCheck), ("parallel", .optional .natural a.parallel)]

/-- The document of settings, with the operation and the version that follow from them. -/
def Settings.encode (s : Settings) : Value :=
  .object [("chunking_enabled", .bool s.chunkingEnabled), ("chunk_size", .natural s.chunkSize),
    ("skip_count_check", .bool s.skipCountCheck), ("batch_size", .natural s.batchSize),
    ("stream_retry_limit", .natural s.streamRetryLimit), ("use_query_all", .bool s.useQueryAll),
    ("soft_delete_disabled", .bool s.softDeleteDisabled),
    ("soft_delete_column", .text s.softDeleteColumn), ("operation", .text s.operation.name),
    ("api_version", .text s.apiVersion)]

end Encoders

/-- Reads settings; those that are missing are the usual ones. -/
def Settings.decode : Decoder Leaf Settings :=
  Schema.decode rd <| (Schema.pure Settings.mk)
    |>.and (.withDefault "chunking_enabled" (boolean rd) false)
    |>.and (.withDefault "chunk_size" (natural rd 32) 200000)
    |>.and (.withDefault "skip_count_check" (boolean rd) false)
    |>.and (.withDefault "batch_size" (natural rd 64) 1000)
    |>.and (.withDefault "stream_retry_limit" (natural rd 32) 5)
    |>.and (.withDefault "use_query_all" (boolean rd) false)
    |>.and (.withDefault "soft_delete_disabled" (boolean rd) false)
    |>.and (.withDefault "soft_delete_column" (string rd) "IsDeleted")

/-- Reads a configuration from the text of the file at `path`. -/
def Configuration.ofText (path text : String) : Except ConfigFault Configuration :=
  let read :=
    if path.endsWith ".json" then
      Json.decodeText (Configuration.decode Json.leafReading) text
    else Yaml.decodeText (Configuration.decode Yaml.leafReading) text
  read.mapError ConfigFault.document

end Harvest
