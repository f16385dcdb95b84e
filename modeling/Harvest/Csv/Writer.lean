import Harvest.Text.Utf8

/-!
# Writing rows

A field is quoted when it holds a comma, a quote or a line end, and a quote inside
of quotes is written twice. A row that would be an empty line is written as a pair
of quotes, so that a reader does not skip it. Every row ends with a line feed.
-/

namespace Harvest.Csv

/-- A character that a field can hold only inside quotes. -/
def needsQuotes (c : Char) : Bool := c == ',' || c == '"' || c == '\r' || c == '\n'

/-- The text of a field inside quotes. -/
def doubleQuotes : List Char → List Char
  | [] => []
  | c :: s => if c = '"' then '"' :: '"' :: doubleQuotes s else c :: doubleQuotes s

/-- The text of a field. -/
def fieldText (s : List Char) : List Char :=
  if s.any needsQuotes then '"' :: doubleQuotes s ++ ['"'] else s

/-- The fields of a row, separated by commas. -/
def joinFields : List (List Char) → List Char
  | [] => []
  | [f] => fieldText f
  | f :: rest => fieldText f ++ ',' :: joinFields rest

/-- The text of a row with its line end. -/
def rowText (fields : List String) : List Char :=
  match joinFields (fields.map String.toList) with
  | [] => ['"', '"', '\n']
  | s => s ++ ['\n']

/-- The bytes of a row with its line end. -/
def rowBytes (fields : List String) : List UInt8 := Utf8.encode (rowText fields)

@[simp] theorem doubleQuotes_nil : doubleQuotes [] = [] := rfl

theorem doubleQuotes_cons (c : Char) (s : List Char) :
    doubleQuotes (c :: s) =
      if c = '"' then '"' :: '"' :: doubleQuotes s else c :: doubleQuotes s := rfl

/-- Every row is a line. -/
theorem rowText_ne_nil (fields : List String) : rowText fields ≠ [] := by
  unfold rowText
  split <;> simp_all

end Harvest.Csv
