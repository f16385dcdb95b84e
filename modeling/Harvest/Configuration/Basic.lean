import Harvest.Settings
import Harvest.Text.Folded
import Harvest.Watermark

/-!
# Configurations

A configuration tells where results are staged, where output goes, which entities are
extracted and with which options. The command line may override parts of it; what has
to hold of it before it is used is checked in a fixed order, and the first thing that
does not hold is told.
-/

namespace Harvest

/-- An entity to be extracted. -/
structure EntityOptions where
  name : String
  /-- The query, if it is not made from the columns. -/
  query : Option String := none
  columns : Option (List String) := none
  predicates : Option (List String) := none
  watermarkColumn : Option String := none
  watermarkKind : Option WatermarkKind := none
  /-- The least watermark to extract. -/
  lowWatermark : Option Int := none
  /-- The number of records, if it is known. -/
  expectedCount : Option Nat := none
  deriving DecidableEq, Repr

/-- The query of an entity before predicates are added: the configured one, or one for its
columns. Without columns it asks for the identifier alone. -/
def EntityOptions.baseQuery (e : EntityOptions) : String :=
  match e.query, e.columns with
  | some query, _ => query
  | none, some (c :: cs) => "SELECT " ++ ", ".intercalate (c :: cs) ++ " FROM " ++ e.name
  | none, _ => "SELECT Id FROM " ++ e.name

/-- Where output goes; it is compressed unless that is turned off. -/
structure OutputOptions where
  directory : String
  gzip : Option Bool := none
  deriving DecidableEq, Repr

/-- The catalog in which extractions are registered. -/
structure CatalogOptions where
  path : String
  database : String
  deriving DecidableEq, Repr

/-- A configuration. -/
structure Configuration where
  /-- The directory with the staged results. -/
  sourceRoot : String
  extract : ExtractOptions
  output : OutputOptions
  catalog : Option CatalogOptions
  entities : List EntityOptions
  deriving DecidableEq, Repr

/-- What is given on the command line. -/
structure Arguments where
  /-- The path of the configuration. -/
  config : String
  sourceRoot : Option String := none
  output : Option String := none
  /-- The only entities to extract, unless there are none. -/
  entities : List String := []
  enableChunking : Bool := false
  chunkSize : Option Int := none
  skipCountCheck : Bool := false
  parallel : Option Nat := none
  deriving DecidableEq, Repr

namespace Configuration

/-- The configuration with the parts that the arguments override. Entities are chosen by
name, whatever the case of ASCII letters. -/
def overriddenBy (c : Configuration) (a : Arguments) : Configuration where
  sourceRoot := a.sourceRoot.getD c.sourceRoot
  extract := { c.extract with
    chunkingEnabled := c.extract.chunkingEnabled || a.enableChunking
    chunkSize := a.chunkSize <|> c.extract.chunkSize
    skipCountCheck := c.extract.skipCountCheck || a.skipCountCheck
    parallel := a.parallel <|> c.extract.parallel }
  output := { c.output with directory := a.output.getD c.output.directory }
  catalog := c.catalog
  entities :=
    if a.entities.isEmpty then c.entities
    else c.entities.filter fun e => a.entities.any (Text.sameFolded e.name)

/-- What has to hold of an entity. -/
def checkEntity (e : EntityOptions) : Except ConfigFault Unit :=
  if Text.isBlankText e.name then .error .entityUnnamed
  else if e.lowWatermark.isSome && e.watermarkColumn.isNone then
    .error (.watermarkColumnMissing e.name)
  else .ok ()

/-- What has to hold of the share of the processor. -/
def checkShare (percent : Option Nat) : Except ConfigFault Unit :=
  match percent with
  | some n => if n == 0 || 100 < n then .error (.cpuPercent n) else .ok ()
  | none => .ok ()

/-- The settings for a configuration that can be used. -/
def check (c : Configuration) : Except ConfigFault Settings := do
  if Text.isBlankText c.sourceRoot then .error .rootMissing
  else if Text.isBlankText c.output.directory then .error .outputMissing
  else if c.entities.isEmpty then .error .noEntities
  else do
    c.entities.forM checkEntity
    checkShare c.extract.cpuPercent
    Settings.ofOptions c.extract

/-- Compression of the output. -/
def compresses (c : Configuration) : Bool := c.output.gzip.getD true

end Configuration

end Harvest
