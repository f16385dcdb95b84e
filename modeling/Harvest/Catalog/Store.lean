import Harvest.Catalog.Basic
import Harvest.Disk.Basic
import Harvest.Json.Printer
import Harvest.Json.Reader
import Harvest.Path

/-!
# The catalog in a file

A catalog holds tables and the partitions of each. It is kept in memory and written to
its file as a whole after every change; a missing file stands for an empty catalog. What
is there already cannot be added, and what is not there cannot be altered.
-/

namespace Harvest.Catalog

open Document

/-- A table and its partitions. -/
structure Stored where
  table : Table
  partitions : List Partition
  deriving DecidableEq, Repr

/-- The tables of a catalog, in the order in which they were added. -/
abbrev Contents := List Stored

section Documents

variable {Leaf : Type} (rd : LeafReading Leaf)

/-- Reads a table. -/
def Table.decode : Decoder Leaf Table :=
  Schema.decode rd <| (Schema.pure Table.mk)
    |>.and (.required "database" (string rd))
    |>.and (.required "name" (string rd))
    |>.and (.required "location" (string rd))
    |>.and (.required "columns" (list rd (string rd)))
    |>.and (.required "partition_keys" (list rd (string rd)))

/-- The document of a table. -/
def Table.encode (t : Table) : Json.Value :=
  .object [("database", .text t.database), ("name", .text t.name), ("location", .text t.location),
    ("columns", .texts t.columns), ("partition_keys", .texts t.partitionKeys)]

/-- Reads a partition. -/
def Partition.decode : Decoder Leaf Partition :=
  Schema.decode rd <| (Schema.pure Partition.mk)
    |>.and (.required "values" (list rd (string rd)))
    |>.and (.required "location" (string rd))

/-- The document of a partition. -/
def Partition.encode (p : Partition) : Json.Value :=
  .object [("values", .texts p.values), ("location", .text p.location)]

/-- Reads a table with its partitions. -/
def Stored.decode : Decoder Leaf Stored :=
  Schema.decode rd <| (Schema.pure Stored.mk)
    |>.and (.required "table" (Table.decode rd))
    |>.and (.withDefault "partitions" (list rd (Partition.decode rd)) [])

/-- The document of a table with its partitions. -/
def Stored.encode (s : Stored) : Json.Value :=
  .object [("table", s.table.encode), ("partitions", .array (s.partitions.map Partition.encode))]

/-- Reads a catalog. -/
def Contents.decode : Decoder Leaf Contents :=
  Schema.decode rd <| (Schema.pure id)
    |>.and (.withDefault "tables" (list rd (Stored.decode rd)) [])

/-- The document of a catalog. -/
def Contents.encode (c : Contents) : Json.Value :=
  .object [("tables", .array (c.map Stored.encode))]

end Documents

/-- The table has this key. -/
def Stored.hasKey (database name : String) (s : Stored) : Bool :=
  s.table.database == database && s.table.name == name

namespace Contents

/-- The table of a key, with its partitions. -/
def stored? (c : Contents) (database name : String) : Option Stored :=
  List.find? (Stored.hasKey database name) c

/-- The table of a key. -/
def table? (c : Contents) (database name : String) : Option Table :=
  (stored? c database name).map Stored.table

/-- The partition of a table with these values. -/
def partition? (c : Contents) (database name : String) (values : List String) :
    Option Partition :=
  (stored? c database name).bind fun s => s.partitions.find? (·.values == values)

/-- Changes the first element that `p` holds of. -/
def modifyFirst {α : Type} (p : α → Bool) (f : α → α) : List α → List α
  | [] => []
  | x :: rest => if p x then f x :: rest else x :: modifyFirst p f rest

/-- Adds a table. -/
def create (t : Table) (c : Contents) : Except Fault Contents :=
  match stored? c t.database t.name with
  | some _ => .error (.tableExists t.database t.name)
  | none => .ok (c ++ [⟨t, []⟩])

/-- Puts a table in the place of the one with its key, whose partitions are kept. -/
def alter (t : Table) (c : Contents) : Except Fault Contents :=
  match stored? c t.database t.name with
  | some _ => .ok (modifyFirst (Stored.hasKey t.database t.name) (fun s => { s with table := t }) c)
  | none => .error (.tableMissing t.database t.name)

/-- Adds a partition to a table. -/
def add (database name : String) (p : Partition) (c : Contents) : Except Fault Contents :=
  match stored? c database name with
  | none => .error (.tableMissing database name)
  | some s =>
    if s.partitions.any (·.values == p.values) then
      .error (.partitionExists p.values database name)
    else .ok (modifyFirst (Stored.hasKey database name)
      (fun s => { s with partitions := s.partitions ++ [p] }) c)

/-- Puts a partition in the place of the one with its values. -/
def move (database name : String) (p : Partition) (c : Contents) : Except Fault Contents :=
  match stored? c database name with
  | none => .error (.tableMissing database name)
  | some s =>
    if s.partitions.any (·.values == p.values) then
      .ok (modifyFirst (Stored.hasKey database name)
        (fun s => { s with
          partitions := modifyFirst (fun q => q.values == p.values) (fun _ => p) s.partitions }) c)
    else .error (.partitionMissing p.values database name)

end Contents

/-- A catalog and the path of its file. -/
structure Store where
  path : String
  contents : Contents
  deriving DecidableEq, Repr

namespace Store

/-- Opens the catalog of a file. -/
def load (path : String) : Storing Store := do
  let isFile ← Storing.isFile path
  let isDirectory ← Storing.isDirectory path
  if isFile || isDirectory then
    let text ← Storing.readText path
    match Json.decodeText (Contents.decode Json.leafReading) text with
    | .ok contents => pure ⟨path, contents⟩
    | .error fault => throw (.catalog (.document path fault))
  else pure ⟨path, []⟩

/-- The text that is written to the file. -/
def text (s : Store) : String := Json.pretty s.contents.encode

/-- Writes the catalog to its file. -/
def save (s : Store) : Storing Unit := do
  match Path.parent? s.path with
  | some parent => if parent.isEmpty then pure () else Storing.makeDirectories parent
  | none => pure ()
  Storing.write s.path (Utf8.encodeString s.text)

/-- Makes a change and writes the catalog. A change that is refused leaves all as it was; one
that cannot be written has been made in memory all the same. -/
def update (s : Store) (f : Contents → Except Fault Contents) :
    Program Disk.service (Except ExtractError Unit × Store) :=
  match f s.contents with
  | .error fault => .done (.error (.catalog fault), s)
  | .ok contents =>
    let changed : Store := { s with contents }
    changed.save.run.bind fun r => .done (r, changed)

end Store

end Harvest.Catalog
