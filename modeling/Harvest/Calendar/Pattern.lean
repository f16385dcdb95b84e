import Harvest.Calendar.Basic
import Harvest.Text.Blank
import Harvest.Text.Integer

/-!
# Reading and writing dates by a pattern

A pattern is a list of numeric fields and literal characters. Written, the year
has four digits, or a sign and at least four digits outside of 0 to 9999, and
every other field two. Read, a field may have blanks in front and takes as many
digits as it may have, at most; a signed year takes every digit that follows. A
field out of its range is a fault as soon as it is read, a day that its month
does not have once the whole text is.
-/

namespace Harvest.Calendar

open Harvest.Text

/-- The numeric fields of a date and time of day. -/
inductive Field
  | year
  | month
  | day
  | hour
  | minute
  | second
  deriving DecidableEq, Repr

/-- One element of a pattern. -/
inductive Item
  | field (f : Field)
  | literal (c : Char)
  deriving DecidableEq, Repr

/-- The elements of a pattern, in order. -/
abbrev Pattern := List Item

/-- Why a text does not follow a pattern. -/
inductive Fault
  | tooShort
  | invalid
  | outOfRange
  | trailing
  deriving DecidableEq, Repr

/-- The text of a fault. -/
def Fault.message : Fault → String
  | .tooShort => "premature end of input"
  | .invalid => "input contains invalid characters"
  | .outOfRange => "input is out of range"
  | .trailing => "trailing input"

/-- The largest number of digits read for a field without sign. -/
def Field.width : Field → Nat
  | .year => 4
  | _ => 2

/-- Takes up to `width` digits and their value, counted on from `acc`. -/
def takeDigits : Nat → Nat → List Char → Nat × List Char
  | 0, acc, s => (acc, s)
  | _ + 1, acc, [] => (acc, [])
  | width + 1, acc, c :: s =>
    match digitValue? c with
    | some d => takeDigits width (acc * 10 + d) s
    | none => (acc, c :: s)

/-- Reads one digit or more, at most `width`. -/
def readNumber (width : Nat) (s : List Char) : Except Fault (Nat × List Char) :=
  match s with
  | [] => .error .tooShort
  | c :: _ => if (digitValue? c).isSome then .ok (takeDigits width 0 s) else .error .invalid

/-- Reads a year: four digits at most, or a sign and any number of digits. -/
def readYear (s : List Char) : Except Fault (Int × List Char) :=
  match s with
  | '-' :: s => (readNumber s.length s).map fun p => (-(p.1 : Int), p.2)
  | '+' :: s => (readNumber s.length s).map fun p => ((p.1 : Int), p.2)
  | s => (readNumber Field.year.width s).map fun p => ((p.1 : Int), p.2)

/-- Sets a field, unless the value is out of the field's range. -/
def setField (f : Field) (v : Int) (t : DateTime) : Except Fault DateTime :=
  let bounded (lo hi : Int) (t : DateTime) : Except Fault DateTime :=
    if lo ≤ v ∧ v ≤ hi then .ok t else .error .outOfRange
  match f with
  | .year => bounded (-2147483648) 2147483647 { t with year := v }
  | .month => bounded 1 12 { t with month := v.toNat }
  | .day => bounded 1 31 { t with day := v.toNat }
  | .hour => bounded 0 23 { t with hour := v.toNat }
  | .minute => bounded 0 59 { t with minute := v.toNat }
  | .second => bounded 0 60 { t with second := v.toNat }

/-- Reads one field from a text, blanks in front of it being skipped. -/
def readField (f : Field) (s : List Char) : Except Fault (Int × List Char) :=
  match f with
  | .year => readYear (trimStart s)
  | f => (readNumber f.width (trimStart s)).map fun p => ((p.1 : Int), p.2)

/-- Reads the elements of a pattern into the fields of `t`; answers what is left of the text. -/
def readItems : Pattern → DateTime → List Char → Except Fault (DateTime × List Char)
  | [], t, s => .ok (t, s)
  | .literal _ :: _, _, [] => .error .tooShort
  | .literal c :: pattern, t, d :: s =>
    if c = d then readItems pattern t s else .error .invalid
  | .field f :: pattern, t, s => do
    let (v, s) ← readField f s
    let t ← setField f v t
    readItems pattern t s

/-- The first moment of the year zero, which fields that a pattern lacks are taken from. -/
def origin : DateTime := ⟨0, 1, 1, 0, 0, 0⟩

/-- Reads a whole text by a pattern. -/
def read (pattern : Pattern) (s : List Char) : Except Fault DateTime := do
  let (t, rest) ← readItems pattern origin s
  if rest ≠ [] then .error .trailing
  else if IsDate t.year t.month t.day then .ok t
  else .error .outOfRange

/-- The text of a year. -/
def yearText (year : Int) : List Char :=
  if 0 ≤ year ∧ year ≤ 9999 then padded 4 year.toNat
  else (if year < 0 then '-' else '+') :: padded 4 year.natAbs

/-- The text of a field. -/
def fieldText (t : DateTime) : Field → List Char
  | .year => yearText t.year
  | .month => padded 2 t.month
  | .day => padded 2 t.day
  | .hour => padded 2 t.hour
  | .minute => padded 2 t.minute
  | .second => padded 2 t.second

/-- The text of `t` by a pattern. -/
def write (pattern : Pattern) (t : DateTime) : List Char :=
  pattern.flatMap fun
    | .field f => fieldText t f
    | .literal c => [c]

theorem read_eq_ok (pattern : Pattern) (s : List Char) (t : DateTime)
    (h : readItems pattern origin s = .ok (t, [])) (ht : IsDate t.year t.month t.day) :
    read pattern s = .ok t := by
  unfold read
  rw [h]
  simp [bind, Except.bind, ht]

@[simp] theorem write_nil (t : DateTime) : write [] t = [] := rfl

theorem write_cons_field (f : Field) (pattern : Pattern) (t : DateTime) :
    write (.field f :: pattern) t = fieldText t f ++ write pattern t := by
  simp [write]

theorem write_cons_literal (c : Char) (pattern : Pattern) (t : DateTime) :
    write (.literal c :: pattern) t = c :: write pattern t := by
  simp [write]

end Harvest.Calendar
