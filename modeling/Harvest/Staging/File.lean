import Harvest.Disk.Basic
import Harvest.Gzip.Member
import Harvest.Path
import Harvest.Record

/-!
# Staged files

The results of an entity are staged as files in its directory, each a table text that may
be compressed; those of logically deleted records lie in a directory beneath. The files
of a directory are taken in the order of their names without the extension.
-/

namespace Harvest.Staging

/-- The name without an ending, if it has that ending. -/
def dropEnding? (ending name : String) : Option String :=
  let s := name.toList
  let e := ending.toList
  if e.isSuffixOf s then some (String.ofList (s.take (s.length - e.length))) else none

/-- The name of a result for the name of its file, if that is a staged one. -/
def resultOf? (name : String) : Option String :=
  dropEnding? ".csv.gz" name <|> dropEnding? ".csv" name

/-- The staged files among those of a directory: their results and paths, in order. -/
def sortFiles (files : List (String × String)) : List (String × String) :=
  files.mergeSort fun a b => a.1 ≤ b.1

/-- Keeps the paths of files. -/
def keepFiles (directory : String) : List String → Storing (List (String × String))
  | [] => pure []
  | name :: rest => do
    let path := Path.join directory name
    let isFile ← Storing.isFile path
    let files ← keepFiles directory rest
    match isFile, resultOf? name with
    | true, some result => pure ((result, path) :: files)
    | _, _ => pure files

/-- The staged files of a directory. -/
def stagedFiles (directory : String) : Storing (List (String × String)) := do
  let names ← Storing.list directory
  let files ← keepFiles directory names
  pure (sortFiles files)

/-- Opens a staged file. -/
def openFile (path : String) : Storing Page := do
  let page ← Storing.read path
  pure (if path.endsWith ".gz" then Gzip.expand page else page)

/-- What ends the rows of a file. -/
def ending (path : String) (feed : Feed) : Except DecodeFault Unit :=
  match feed.broken with
  | some reason => .error (.stagedBreak path reason)
  | none => .ok ()

/-- The fields of a row of a file. -/
def rowText (path : String) (row : Csv.Row) : Except DecodeFault (List String) :=
  row.text.mapError (.stagedRow path)

/-- The number of rows behind the header. The header is passed over as it is, and a fault of the
first row behind it is told at the place of the header. -/
def countRows (path : String) (feed : Feed) : Except DecodeFault Nat := do
  match feed.rows with
  | [] | [_] => pure ()
  | _ :: row :: rows => do
    let _ ← (row.textAt .start).mapError (DecodeFault.stagedRow path)
    rows.forM fun row => (rowText path row).map fun _ => ()
  ending path feed
  pure (feed.rows.length - 1)

/-- The header of a file, empty if there is none. -/
def headerOf (path : String) (feed : Feed) : Except DecodeFault (List String) :=
  match feed.rows with
  | [] => (ending path feed).map fun _ => []
  | row :: _ => rowText path row

/-- The larger one of two values, the first one being there before. -/
def larger (best : Option String) (value : String) : Option String :=
  match best with
  | none => some value
  | some b => if b < value then some value else some b

/-- The largest value in a column of rows that is not empty. -/
def maxOfRows (path : String) (index : Nat) (best : Option String) :
    List Csv.Row → Except DecodeFault (Option String)
  | [] => .ok best
  | row :: rows => do
    let fields ← rowText path row
    match fields[index]? with
    | some value => maxOfRows path index (if value.isEmpty then best else larger best value) rows
    | none => maxOfRows path index best rows

/-- The largest value in the column of a name over a file; a file without that column is passed
over. -/
def maxOfFile (path column : String) (best : Option String) (feed : Feed) :
    Except DecodeFault (Option String) := do
  let header ← headerOf path feed
  if column ∈ header then
    let best ← maxOfRows path (header.idxOf column) best (feed.rows.drop 1)
    ending path feed
    pure best
  else pure best

/-- The records of a file. -/
def recordsOf (path : String) (feed : Feed) : Except DecodeFault (List Record) := do
  let header ← headerOf path feed
  let rows ← (feed.rows.drop 1).mapM (rowText path)
  ending path feed
  pure (rows.map (Record.ofFields header))

/-- Opens a staged file and decodes its rows. -/
def readFile {α : Type} (path : String) (decode : Feed → Except DecodeFault α) : Storing α := do
  let page ← openFile path
  ofExcept ((decode page.feed).mapError ExtractError.decode)

end Harvest.Staging
