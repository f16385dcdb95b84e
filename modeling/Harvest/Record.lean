/-!
# Records

A record pairs the columns of a header with one value each; an empty field of the
source is an absent value. Fields that a row lacks are absent, fields beyond the
header are dropped. A batch is a group of records that are handed on together.
-/

namespace Harvest

/-- The values that `fields` gives to a header: one for each column. -/
def fieldValues : List String → List String → List (Option String)
  | [], _ => []
  | _ :: columns, [] => none :: fieldValues columns []
  | _ :: columns, f :: fields =>
    (if f.isEmpty then none else some f) :: fieldValues columns fields

theorem length_fieldValues (columns fields : List String) :
    (fieldValues columns fields).length = columns.length := by
  induction columns generalizing fields with
  | nil => rfl
  | cons c columns ih =>
    cases fields with
    | nil => simp [fieldValues, ih]
    | cons f fields => simp [fieldValues, ih]

/-- A decoded row: one value, or none, for each column. -/
structure Record where
  columns : List String
  values : List (Option String)
  length_values : values.length = columns.length
  deriving DecidableEq, Repr

namespace Record

/-- Pairs the raw fields of a row with a header. -/
def ofFields (columns fields : List String) : Record :=
  ⟨columns, fieldValues columns fields, length_fieldValues columns fields⟩

/-- The value of the first column of that name. -/
def get? (r : Record) (column : String) : Option String :=
  ((r.columns.zip r.values).lookup column).join

@[simp] theorem columns_ofFields (columns fields : List String) :
    (ofFields columns fields).columns = columns := rfl

@[simp] theorem values_ofFields (columns fields : List String) :
    (ofFields columns fields).values = fieldValues columns fields := rfl

theorem eq_iff (r s : Record) : r = s ↔ r.columns = s.columns ∧ r.values = s.values := by
  cases r
  cases s
  simp

end Record

/-- Records handed on together, with the number of rows delivered so far, these included. -/
structure Batch where
  records : List Record
  totalRows : Nat
  deriving DecidableEq, Repr

end Harvest
