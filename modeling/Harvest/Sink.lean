import Harvest.Csv.Writer
import Harvest.Disk.Basic
import Harvest.Gzip.Member
import Harvest.Path
import Harvest.Services

/-!
# The sink

The rows of an entity go into one file, in a directory of its own for each run. The
first record that is offered gives the header. A record with other columns is brought
into the shape of the header by the names of its columns; if one of them is not in the
header the record is refused, with the rest of its batch.
-/

namespace Harvest

/-- A file that is being written. -/
structure Sink where
  /-- The directory of the file. -/
  directory : String
  file : String
  compressed : Bool
  header : Option (List String)
  /-- The fields of the rows that were accepted, the last one first. -/
  accepted : List (List String)
  deriving DecidableEq, Repr

namespace Sink

/-- A sink before the first record. -/
def start (root entity run : String) (compressed : Bool) : Sink :=
  let directory := Path.join (Path.join root entity) ("run_id=" ++ run)
  let name := if compressed then "part-00000.csv.gz" else "part-00000.csv"
  ⟨directory, Path.join directory name, compressed, none, []⟩

/-- The number of rows behind the header. -/
def rows (s : Sink) : Nat := s.accepted.length

/-- The fields that a record has under a header. -/
def project (header : List String) (r : Record) : List String :=
  if header = r.columns then r.values.map (·.getD "") else header.map fun c => (r.get? c).getD ""

/-- Takes a record. -/
def offer (s : Sink) (r : Record) : Except SinkFault Sink :=
  let header := s.header.getD r.columns
  match r.columns.find? fun c => !header.contains c with
  | some unknown => .error (.unknownColumn unknown s.file)
  | none => .ok { s with header := some header, accepted := project header r :: s.accepted }

/-- Takes records up to the first one that is refused. -/
def takeAll (s : Sink) : List Record → Except SinkFault Unit × Sink
  | [] => (.ok (), s)
  | r :: rest =>
    match s.offer r with
    | .ok s => s.takeAll rest
    | .error e => (.error e, s)

/-- The rows of the file, the header among them. -/
def lines (s : Sink) : List (List String) := s.header.toList ++ s.accepted.reverse

/-- The text of the file. -/
def text (s : Sink) : List UInt8 := s.lines.flatMap Csv.rowBytes

/-- The bytes of the file. -/
def content (s : Sink) : List UInt8 := if s.compressed then Gzip.compress s.text else s.text

/-- Makes the file of an entity and run. -/
def create (root entity run : String) (compressed : Bool) : Storing Sink := do
  let s := start root entity run compressed
  Storing.makeDirectories s.directory
  Storing.write s.file []
  pure s

/-- Writes the file. -/
def finish (s : Sink) : Storing Summary := do
  Storing.append s.file s.content
  let bytes ← Storing.size s.file
  pure ⟨s.directory, [s.file], s.rows, bytes, s.header.getD []⟩

/-- Writes the file as far as possible. -/
def drop (s : Sink) : Program Disk.service Unit :=
  Program.bind (Storing.append s.file s.content).run fun _ => .done ()

@[simp] theorem takeAll_nil (s : Sink) : s.takeAll [] = (.ok (), s) := rfl

theorem takeAll_cons (s : Sink) (r : Record) (rest : List Record) :
    s.takeAll (r :: rest) =
      match s.offer r with
      | .ok s => s.takeAll rest
      | .error e => (.error e, s) := rfl

end Sink

end Harvest
