import Harvest.Csv.Reader

/-!
# Pages and feeds

A page is what opening a result gives: the bytes that can be read and, if reading
breaks, the text of the fault that ends it. A feed is a page cut into rows. Where
the page breaks the rows that were not completed are lost. A page of which nothing
but the byte-order mark was read passes for an empty one, whatever ended it.
-/

namespace Harvest

/-- The bytes of a result as far as they can be read, and the fault that ends them. -/
structure Page where
  bytes : List UInt8
  broken : Option String
  deriving DecidableEq, Repr

/-- The rows that are still to be read, and the fault after them. -/
structure Feed where
  rows : List Csv.Row
  broken : Option String
  deriving DecidableEq, Repr

/-- The rows of a page. -/
def Page.feed (p : Page) : Feed :=
  match p.broken with
  | none => ⟨Csv.rows p.bytes, none⟩
  | some fault =>
    if p.bytes = Csv.byteOrderMark then ⟨[], none⟩ else ⟨Csv.completedRows p.bytes, some fault⟩

namespace Feed

/-- What reading one row from a feed gives. -/
inductive Next
  | row (fields : List String) (rest : Feed)
  | finished
  /-- The stream broke. -/
  | broken (fault : String)
  /-- The row is no text. -/
  | invalid (fault : Csv.Fault)
  deriving DecidableEq, Repr

/-- Reads one row. -/
def next (f : Feed) : Next :=
  match f.rows with
  | [] =>
    match f.broken with
    | none => .finished
    | some fault => .broken fault
  | row :: rows =>
    match row.text with
    | .ok fields => .row fields ⟨rows, f.broken⟩
    | .error fault => .invalid fault

/-- What passing over rows gives. -/
inductive Skipped
  /-- All rows were there; the last one of them and what follows it. -/
  | landed (last : List String) (rest : Feed)
  /-- The feed ended after so many rows. -/
  | short (rows : Nat)
  | broken (fault : String)
  | invalid (fault : Csv.Fault)
  deriving DecidableEq, Repr

/-- Passes over `n` rows, `passed` rows having been passed over before and `last` being the
last one of them. -/
def skip : Nat → Nat → List String → Feed → Skipped
  | 0, _, last, f => .landed last f
  | n + 1, passed, _, f =>
    match f.next with
    | .row fields rest => skip n (passed + 1) fields rest
    | .finished => .short passed
    | .broken fault => .broken fault
    | .invalid fault => .invalid fault

theorem next_nil_none : next ⟨[], none⟩ = .finished := rfl

theorem next_cons (row : Csv.Row) (rows : List Csv.Row) (broken : Option String)
    (fields : List String) (h : row.text = .ok fields) :
    next ⟨row :: rows, broken⟩ = .row fields ⟨rows, broken⟩ := by
  simp [next, h]

/-- A row that was read is the first of the feed, and the feed ends as before. -/
theorem next_eq_row_iff (f rest : Feed) (fields : List String) :
    f.next = .row fields rest ↔
      ∃ row, f.rows = row :: rest.rows ∧ row.text = .ok fields ∧ rest.broken = f.broken := by
  rcases f with ⟨rows, broken⟩
  rcases rest with ⟨rows', broken'⟩
  cases rows with
  | nil => cases broken <;> simp [next]
  | cons row rows =>
    cases h : row.text with
    | error e => simp [next, h]
    | ok xs =>
      simp only [next, h, Next.row.injEq, Feed.mk.injEq, List.cons.injEq]
      constructor
      · rintro ⟨rfl, rfl, rfl⟩
        exact ⟨row, ⟨rfl, rfl⟩, h, rfl⟩
      · rintro ⟨row', ⟨rfl, rfl⟩, h', rfl⟩
        rw [h] at h'
        exact ⟨Except.ok.inj h', rfl, rfl⟩

@[simp] theorem skip_zero (passed : Nat) (last : List String) (f : Feed) :
    skip 0 passed last f = .landed last f := rfl

end Feed

end Harvest
