import Harvest.Services

/-!
# Reading one result

A cursor is a read position inside one result. Where the stream breaks the result is
opened again, and the header and every row that was delivered are read once more; the
last of them has to be the row that was delivered last. A result of which no row was
delivered is read from its header on. Every reconnect takes one off the budget, and
the fault that is told once the budget is spent is the one that began the recovery.
-/

namespace Harvest

/-- What a reader needs to name and open results. -/
structure StreamContext where
  entity : String
  job : String
  /-- Reconnects granted to a result between two renewals of its budget. -/
  retryLimit : Nat
  deriving DecidableEq, Repr

/-- A read position inside one result. -/
structure Cursor where
  reference : ResultReference
  feed : Feed
  header : Option (List String)
  delivered : Nat
  /-- The row delivered last. -/
  lastRow : Option (List String)
  /-- Reconnects since the budget was renewed. -/
  reconnects : Nat
  deriving DecidableEq, Repr

namespace Cursor

/-- A cursor at the beginning of a page. -/
def start (reference : ResultReference) (page : Page) : Cursor :=
  ⟨reference, page.feed, none, 0, none, 0⟩

/-- What reading from a cursor gives. -/
inductive Step
  | record (r : Record) (c : Cursor)
  | exhausted (c : Cursor)
  /-- The stream broke. -/
  | broken (fault : String) (c : Cursor)
  /-- A row is no text. -/
  | invalid (fault : Csv.Fault)
  deriving DecidableEq, Repr

/-- Reads a row, the header being known. -/
def readRow (c : Cursor) (header : List String) : Step :=
  match c.feed.next with
  | .row fields rest =>
    .record (.ofFields header fields)
      { c with feed := rest, delivered := c.delivered + 1, lastRow := some fields }
  | .finished => .exhausted c
  | .broken fault => .broken fault c
  | .invalid fault => .invalid fault

/-- Reads a row, and the header before it where it is not known. -/
def read (c : Cursor) : Step :=
  match c.header with
  | some header => c.readRow header
  | none =>
    match c.feed.next with
    | .row header rest => ({ c with header := some header, feed := rest } : Cursor).readRow header
    | .finished => .exhausted c
    | .broken fault => .broken fault c
    | .invalid fault => .invalid fault

/-- What taking up a page again gives. -/
inductive Resumed
  | ready (c : Cursor)
  | mismatch (skipped : Nat)
  | broken (fault : String)
  | invalid (fault : Csv.Fault)
  deriving DecidableEq, Repr

/-- Takes a page up behind the rows that were delivered. -/
def resume (c : Cursor) (page : Page) : Resumed :=
  if c.delivered = 0 then .ready { c with header := none, feed := page.feed }
  else
    match page.feed.next with
    | .finished => .mismatch 0
    | .broken fault => .broken fault
    | .invalid fault => .invalid fault
    | .row header rest =>
      match rest.skip c.delivered 0 header with
      | .short rows => .mismatch rows
      | .broken fault => .broken fault
      | .invalid fault => .invalid fault
      | .landed last rest =>
        if c.lastRow = some last then .ready { c with feed := rest } else .mismatch c.delivered

/-- The outcome of a fetch from one result: a record or its end, with the cursor behind it. -/
abbrev Outcome := Except ExtractError (Option Record × Cursor)

/-- One reconnect more. -/
def countReconnect (c : Cursor) : Cursor := { c with reconnects := c.reconnects + 1 }

/-- What comes of opening the result again. -/
inductive Recovery
  | settled (outcome : Outcome)
  /-- The stream broke again; the fault that is told and the cursor to go on with. -/
  | again (fault : String) (c : Cursor)

/-- Takes a page up again after the fault `fault` and reads a row from it. -/
def takeUp (ctx : StreamContext) (c : Cursor) (fault : String) (page : Page) : Recovery :=
  match c.resume page with
  | .broken _ => .again fault c
  | .mismatch skipped =>
    .settled (.error (.repositionMismatch ctx.entity ctx.job c.reference skipped))
  | .invalid row => .settled (.error (.decode (.replayedRow row)))
  | .ready resumed =>
    match resumed.read with
    | .record r after => .settled (.ok (some r, after))
    | .exhausted after => .settled (.ok (none, after))
    | .broken newFault after => .again newFault after
    | .invalid row => .settled (.error (.decode (.row ctx.entity c.reference ctx.job row)))

/-- Opens the result again after a fault, `budget` reconnects being left, until a row could
be read or its end was reached. -/
def recover (ctx : StreamContext) : (budget : Nat) → String → Cursor → Program services Outcome
  | 0, fault, c =>
    .done (.error (.transientStream ctx.entity ctx.job c.reference c.reconnects fault))
  | budget + 1, fault, c =>
    .ask (.openResult ctx.job c.reference) fun
      | .error e => .done (.error e)
      | .ok page =>
        match takeUp ctx c.countReconnect fault page with
        | .settled outcome => .done outcome
        | .again newFault after => recover ctx budget newFault after

/-- Fetches the next record of a result, or nothing once it is exhausted. -/
def next (ctx : StreamContext) (c : Cursor) : Program services Outcome :=
  match c.read with
  | .record r c => .done (.ok (some r, c))
  | .exhausted c => .done (.ok (none, c))
  | .broken fault c => recover ctx (ctx.retryLimit - c.reconnects) fault c
  | .invalid fault => .done (.error (.decode (.row ctx.entity c.reference ctx.job fault)))

theorem resume_of_delivered_zero (c : Cursor) (page : Page) (h : c.delivered = 0) :
    c.resume page = .ready { c with header := none, feed := page.feed } := by
  simp [resume, h]

theorem readRow_of_row (c : Cursor) (header fields : List String) (rest : Feed)
    (h : c.feed.next = .row fields rest) :
    c.readRow header = .record (.ofFields header fields)
      { c with feed := rest, delivered := c.delivered + 1, lastRow := some fields } := by
  simp [readRow, h]

end Cursor

end Harvest
