import Harvest.Text.Utf8

/-!
# Rows of a table text

A row is kept as the bytes of its fields together with the place where it starts.
Its text is decoded field by field; the first field that is not UTF-8 is a fault
that tells the place of the row, the field and the byte within the field.
-/

namespace Harvest.Csv

/-- A place between two rows: how many rows, line ends and bytes came before. -/
structure Place where
  row : Nat
  line : Nat
  byte : Nat
  deriving DecidableEq, Repr

/-- The beginning of a text. -/
def Place.start : Place := ⟨0, 1, 0⟩

/-- A field that is not UTF-8: the place of its row, its index and the length of its valid
beginning. -/
structure Fault where
  place : Place
  field : Nat
  index : Nat
  deriving DecidableEq, Repr

/-- The text of a fault. -/
def Fault.message (f : Fault) : String :=
  "CSV parse error: record " ++ toString f.place.row ++ " (line " ++ toString f.place.line ++
    ", field: " ++ toString f.field ++ ", byte: " ++ toString f.place.byte ++
    "): invalid utf-8: invalid UTF-8 in field " ++ toString f.field ++ " near byte index " ++
    toString f.index

/-- A row as it was read: where it starts and the bytes of its fields. -/
structure Row where
  place : Place
  fields : List (List UInt8)
  deriving DecidableEq, Repr

/-- Decodes fields, the first of them being the field of index `i`. -/
def decodeFields (place : Place) (i : Nat) : List (List UInt8) → Except Fault (List String)
  | [] => .ok []
  | f :: fields =>
    match Utf8.decodeString f with
    | .ok s => (decodeFields place (i + 1) fields).map (s :: ·)
    | .error index => .error ⟨place, i, index⟩

/-- The fields of a row as strings. -/
def Row.text (r : Row) : Except Fault (List String) := decodeFields r.place 0 r.fields

/-- The fields of a row as strings, a fault being told at another place. -/
def Row.textAt (place : Place) (r : Row) : Except Fault (List String) :=
  decodeFields place 0 r.fields

end Harvest.Csv
