import Harvest.Stream.Reader

/-!
# Batches of records

A batcher groups the rows of a reader into batches of a given size; only the last one
may be smaller. Once the rows are drained it tells, at most once, whether the rows
that are logically deleted still have to be fetched on their own.
-/

namespace Harvest

/-- The outcome of one pull. -/
inductive Pull
  | batch (b : Batch)
  /-- The rows are drained; the logically deleted ones have to be queried. -/
  | fallback
  | finished
  deriving DecidableEq, Repr

/-- A batcher over the rows of a reader. -/
structure Batcher where
  reader : ResultReader
  batchSize : Nat
  /-- The columns that are configured; the header of the results counts where there are
  none. -/
  schema : Option (List String)
  softDeleteColumn : String
  softDeleteDisabled : Bool
  totalRows : Nat
  fallbackTold : Bool
  deriving DecidableEq, Repr

namespace Batcher

/-- A batcher before the first batch. -/
def start (reader : ResultReader) (settings : Settings) (schema : Option (List String)) :
    Batcher :=
  ⟨reader, max settings.batchSize 1, schema, settings.softDeleteColumn,
    settings.softDeleteDisabled, 0, false⟩

/-- The columns of the rows, as configured or as read. -/
def columns (b : Batcher) : List String :=
  match b.schema with
  | some columns => columns
  | none => b.reader.header.getD []

/-- The marker of logically deleted rows is one of the columns. -/
def hasSoftDeleteColumn (b : Batcher) : Bool :=
  b.columns.any (Text.sameFolded · b.softDeleteColumn)

/-- Rows of a reader, with the reader behind them. -/
abbrev Rows := Except ExtractError (List Record) × ResultReader

/-- Takes up to `n` rows after those in `taken`, which are in reverse. -/
def takeRows : (n : Nat) → (taken : List Record) → ResultReader → Program services Rows
  | 0, taken, reader => .done (.ok taken.reverse, reader)
  | n + 1, taken, reader =>
    reader.next.bind fun
      | (.error e, reader) => .done (.error e, reader)
      | (.ok .finished, reader) => .done (.ok taken.reverse, reader)
      | (.ok (.row record), reader) => takeRows n (record :: taken) reader

/-- What a pull answers once its rows are known. -/
def settle (b : Batcher) (records : List Record) : Pull × Batcher :=
  match records with
  | [] =>
    if !b.fallbackTold && !b.softDeleteDisabled && b.hasSoftDeleteColumn then
      (.fallback, { b with fallbackTold := true })
    else (.finished, b)
  | records =>
    let total := b.totalRows + records.length
    (.batch ⟨records, total⟩, { b with totalRows := total })

/-- Pulls the next batch. Every pull renews the reader's budget of reconnects. -/
def next (b : Batcher) : Program services (Except ExtractError Pull × Batcher) :=
  (takeRows b.batchSize [] b.reader.renewBudget).bind fun
    | (.error e, reader) => .done (.error e, { b with reader := reader })
    | (.ok records, reader) =>
      let settled := ({ b with reader := reader } : Batcher).settle records
      .done (.ok settled.1, settled.2)

theorem settle_nil (b : Batcher) :
    b.settle [] = if !b.fallbackTold && !b.softDeleteDisabled && b.hasSoftDeleteColumn then
      (.fallback, { b with fallbackTold := true }) else (.finished, b) := rfl

theorem settle_cons (b : Batcher) (r : Record) (records : List Record) :
    b.settle (r :: records) =
      (.batch ⟨r :: records, b.totalRows + (records.length + 1)⟩,
        { b with totalRows := b.totalRows + (records.length + 1) }) := rfl

end Batcher

end Harvest
