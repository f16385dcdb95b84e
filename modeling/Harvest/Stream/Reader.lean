import Harvest.Stream.Cursor

/-!
# Reading the results of a job

A reader takes the results of one job strictly in order, one open stream at a time.
After an error it stays failed: every later fetch tells the first error again and
asks for nothing.
-/

namespace Harvest

/-- The outcome of one fetch. -/
inductive Fetch
  | row (r : Record)
  /-- Every result is exhausted. -/
  | finished
  deriving DecidableEq, Repr

/-- A reader over the results of one job. -/
structure ResultReader where
  context : StreamContext
  /-- The results that were not opened yet. -/
  pending : List ResultReference
  /-- The result being read. -/
  cursor : Option Cursor
  /-- The header of the last result that had one. -/
  header : Option (List String)
  rowsRead : Nat
  /-- The text of the error that the reader failed with. -/
  failure : Option String
  deriving DecidableEq, Repr

namespace ResultReader

/-- A reader before the first result. -/
def start (context : StreamContext) (references : List ResultReference) : ResultReader :=
  ⟨context, references, none, none, 0, none⟩

/-- Gives the result being read a fresh budget of reconnects. -/
def renewBudget (r : ResultReader) : ResultReader :=
  { r with cursor := r.cursor.map fun c => { c with reconnects := 0 } }

/-- A fetch together with the reader after it. -/
abbrev Outcome := Except ExtractError Fetch × ResultReader

/-- The reader after an error. -/
def fail (r : ResultReader) (e : ExtractError) : Outcome :=
  (.error e, { r with cursor := none, failure := some e.message })

/-- The reader after a record. -/
def deliver (r : ResultReader) (record : Record) (c : Cursor) : Outcome :=
  (.ok (.row record),
    { r with cursor := some c, header := c.header.or r.header, rowsRead := r.rowsRead + 1 })

/-- The reader behind a result. -/
def leave (r : ResultReader) (c : Cursor) : ResultReader :=
  { r with cursor := none, header := c.header.or r.header }

/-- Fetches from the results that were not opened yet. -/
def fetchPending (r : ResultReader) : List ResultReference → Program services Outcome
  | [] => .done (.ok .finished, { r with pending := [] })
  | reference :: pending =>
    .ask (.openResult r.context.job reference) fun
      | .error e => .done ({ r with pending := pending }.fail e)
      | .ok page =>
        (Cursor.next r.context (.start reference page)).bind fun
          | .error e => .done ({ r with pending := pending }.fail e)
          | .ok (some record, c) => .done ({ r with pending := pending }.deliver record c)
          | .ok (none, c) => fetchPending (r.leave c) pending

/-- Fetches the next row of the results. -/
def next (r : ResultReader) : Program services Outcome :=
  match r.failure with
  | some reason =>
    .done (.error (.streamAborted r.context.entity r.context.job reason), r)
  | none =>
    match r.cursor with
    | none => fetchPending r r.pending
    | some c =>
      (Cursor.next r.context c).bind fun
        | .error e => .done (r.fail e)
        | .ok (some record, c) => .done (r.deliver record c)
        | .ok (none, c) => fetchPending (r.leave c) r.pending

theorem next_of_failure (r : ResultReader) (reason : String) (h : r.failure = some reason) :
    r.next = .done (.error (.streamAborted r.context.entity r.context.job reason), r) := by
  simp [next, h]

end ResultReader

end Harvest
