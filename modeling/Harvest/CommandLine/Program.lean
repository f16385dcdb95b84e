import Harvest.Calendar.Pattern
import Harvest.CommandLine.Arguments
import Harvest.Configuration.Document
import Harvest.Local.Services
import Harvest.Run

/-!
# The program

The program reads its arguments and the configuration, opens the catalog, and runs the
extraction. It ends with 0 if all entities were extracted, with 2 if some were not or if
the arguments cannot be taken, and with 1 if the run as a whole failed.
-/

namespace Harvest.CommandLine

open Machine

/-- The name of a run: the date and the time of day, with an underscore between them. -/
def runPattern : Calendar.Pattern :=
  Watermark.dateDigits ++
    [.literal '_', .field .hour, .field .minute, .field .second]

/-- The name of a run that begins at a moment. -/
def runName (t : DateTime) : String := String.ofList (Calendar.write runPattern t)

/-- The text that explains the options. -/
def helpText : String :=
  "Usage: harvest [OPTIONS] --config <CONFIG>\n\nOptions:\n" ++
  "  -c, --config <CONFIG>            Path to configuration file (YAML or JSON)\n" ++
  "      --source-root <SOURCE_ROOT>  Directory with the staged results\n" ++
  "  -o, --output <OUTPUT>            Directory for the output\n" ++
  "      --entity <ENTITY>            Only extract these entities (repeatable)\n" ++
  "      --enable-chunking            Let the service split large queries\n" ++
  "      --chunk-size <CHUNK_SIZE>    Rows of a chunk\n" ++
  "      --skip-count-check           Split without counting first\n" ++
  "      --parallel <PARALLEL>        Entities extracted at once\n" ++
  "  -h, --help                       Print help\n" ++
  "  -V, --version                    Print version"

/-- The text that tells the version. -/
def versionText : String := "harvest 0.1.0"

/-- The text for a refusal of the arguments. -/
def Refusal.message : Refusal → String
  | .unknownArgument => "error: unexpected argument"
  | .unneededValue => "error: a switch was given a value"
  | .repeated => "error: an option was given twice"
  | .badValue => "error: invalid value for an option"
  | .valueMissing => "error: an option needs a value"
  | .configMissing => "error: --config <CONFIG> is required"
  | .help => helpText
  | .version => versionText

/-- Ends with what a refusal of the arguments stands for. -/
def refuse (r : Refusal) : Program Machine.service UInt32 :=
  match r with
  | .help | .version => (tell .print r.message).bind fun _ => .done 0
  | r => (tell .usage r.message).bind fun _ => .done 2

/-- Reads the configuration of a file. -/
def loadConfiguration (path : String) : Storing Configuration := do
  let text ← Storing.readText path
  ofExcept ((Configuration.ofText path text).mapError ExtractError.config)

/-- Tells why the program cannot go on. -/
def abandon (text : String) : Program Machine.service UInt32 :=
  (tell .error text).bind fun _ => .done 1

/-- Tells how a run ended. -/
def conclude (r : Except ExtractError (List TaskResult)) : Program Machine.service UInt32 :=
  match r with
  | .error e => abandon ("Orchestrator failed: " ++ e.message)
  | .ok results =>
    let success := results.countP TaskResult.isSuccess
    let text := "Extraction finished. " ++ toString success ++ "/" ++ toString results.length ++
      " entities successful."
    (tell .info text).bind fun _ => .done (if success < results.length then 2 else 0)

/-- Runs the extraction of a configuration that was checked. -/
def runExtraction (c : Configuration) (catalog : Option Catalog.Store) (patience : Nat) :
    Program Machine.service UInt32 := do
  let name := runName (← Program.request (S := Machine.service) .moment)
  match Run.contextOf c name catalog.isSome patience with
  | .error fault => abandon ("Invalid configuration: " ++ (ExtractError.config fault).message)
  | .ok context => do
    tell .info ("Starting extraction run " ++ name ++ "...")
    let places : Local.Places := ⟨c.sourceRoot, c.output.directory, c.compresses⟩
    let (results, _) ← ((Run.execute context).run.run (Local.answer places)).run { catalog }
    conclude results

/-- Opens the catalog that is configured, and runs the extraction. -/
def openAndRun (c : Configuration) (patience : Nat) : Program Machine.service UInt32 := do
  match c.catalog with
  | none => runExtraction c none patience
  | some options =>
    match ← Machine.ofDisk (Catalog.Store.load options.path).run with
    | .ok store => runExtraction c (some store) patience
    | .error e => abandon ("Failed to open catalog " ++ options.path ++ ": " ++ e.message)

/-- The program for the arguments behind its name. -/
def program (texts : List String) (patience : Nat) : Program Machine.service UInt32 := do
  match readArguments texts with
  | .error r => refuse r
  | .ok arguments =>
    match ← Machine.ofDisk (loadConfiguration arguments.config).run with
    | .error e => abandon ("Failed to load config: " ++ e.message)
    | .ok loaded =>
      let c := loaded.overriddenBy arguments
      match c.check with
      | .error fault => abandon ("Invalid configuration: " ++ (ExtractError.config fault).message)
      | .ok _ => openAndRun c patience

end Harvest.CommandLine
