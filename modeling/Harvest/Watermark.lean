import Harvest.Calendar.Pattern
import Harvest.Query

/-!
# Watermarks

A watermark is kept as one number: the digits `yyyyMMddHHmmss` of a moment,
`yyyyMMdd` of a date, `yyyyMMddHH` of an hour, or the number itself. A `Bound`
renders such a number as a condition in the literal syntax of the source;
`readWatermark` takes a literal that the source answered with back to the number
of its moment.
-/

namespace Harvest

open Harvest.Text Harvest.Calendar

/-- How the source writes watermark values. -/
inductive WatermarkKind
  | timestamp
  | date
  | hour
  | simple
  deriving DecidableEq, Repr

/-- The name of a kind. -/
def WatermarkKind.name : WatermarkKind → String
  | .timestamp => "timestamp"
  | .date => "date"
  | .hour => "hour"
  | .simple => "simple"

namespace Watermark

/-- The digits of a date. -/
def dateDigits : Pattern := [.field .year, .field .month, .field .day]

/-- The digits of a moment. -/
def stampDigits : Pattern :=
  dateDigits ++ [.field .hour, .field .minute, .field .second]

/-- A date in the syntax of the source. -/
def dateLiteral : Pattern :=
  [.field .year, .literal '-', .field .month, .literal '-', .field .day]

/-- A moment in the syntax of the source, up to its second. -/
def momentLiteral : Pattern :=
  dateLiteral ++ [.literal 'T', .field .hour, .literal ':', .field .minute, .literal ':',
    .field .second]

/-- A moment in the syntax of the source, with its fraction and zone. -/
def stampLiteral : Pattern := momentLiteral ++ ".000Z".toList.map Item.literal

/-- The number of a moment without regard to the sign of its year. -/
def unsignedStamp (t : DateTime) : Nat :=
  t.year.natAbs * 10000000000 + t.month * 100000000 + t.day * 1000000 + t.hour * 10000 +
    t.minute * 100 + t.second

/-- The number of a moment: the digits `yyyyMMddHHmmss`, with the sign of the year. -/
def stamp (t : DateTime) : Int :=
  if t.year < 0 then -(unsignedStamp t : Int) else unsignedStamp t

/-- The first `n` bytes of a text, unless it is shorter or a character lies across the cut. -/
def cutBytes? : Nat → List Char → Option (List Char)
  | 0, _ => some []
  | _ + 1, [] => none
  | n, c :: s => if c.utf8Size ≤ n then (cutBytes? (n - c.utf8Size) s).map (c :: ·) else none

end Watermark

/-- Why a text is no watermark value. -/
inductive WatermarkFault
  | moment (value : String) (fault : Calendar.Fault)
  | number (value : String) (fault : IntegerFault)
  deriving DecidableEq, Repr

/-- The text of a fault. -/
def WatermarkFault.message : WatermarkFault → String
  | .moment value fault => "invalid watermark '" ++ value ++ "': " ++ fault.message
  | .number value fault => "watermark '" ++ value ++ "' is not numeric: " ++ fault.message

/-- A watermark bound such as `LastModifiedDate >= 2024-01-15T10:30:00.000Z`. -/
structure Bound where
  column : String
  value : Int
  operator : String
  kind : WatermarkKind
  deriving DecidableEq, Repr

namespace Bound

/-- Reads the digits `raw` by a pattern and writes the date by another one. -/
def recast (label : String) (raw : List Char) (source target : Pattern) :
    Except QueryFault (List Char) :=
  match Calendar.read source raw with
  | .ok t => .ok (Calendar.write target t)
  | .error fault =>
    .error (.watermark ("invalid " ++ label ++ " " ++ String.ofList raw ++ ": " ++ fault.message))

/-- The literal that stands for the value in the syntax of the source. -/
def literal (b : Bound) : Except QueryFault (List Char) :=
  let raw := decimal b.value
  match b.kind with
  | .simple => .ok raw
  | .timestamp => recast "watermark" raw Watermark.stampDigits Watermark.stampLiteral
  | .hour =>
    recast "watermark" (raw ++ "0000".toList) Watermark.stampDigits [.field .hour]
  | .date => recast "date watermark" raw Watermark.dateDigits Watermark.dateLiteral

/-- The bound as a condition of a query. -/
def condition (b : Bound) : Except QueryFault String :=
  b.literal.map fun text => b.column ++ " " ++ b.operator ++ " " ++ String.ofList text

end Bound

/-- The number of a watermark that the source answered with. What follows the second of a
moment, or the day of a date, is left out. -/
def readWatermark (value : String) (kind : WatermarkKind) : Except WatermarkFault Int :=
  let text := trim value.toList
  let moment (s : List Char) : Except WatermarkFault Int :=
    match Calendar.read Watermark.momentLiteral s with
    | .ok t => .ok (Watermark.stamp t)
    | .error fault => .error (.moment (String.ofList text) fault)
  match kind with
  | .simple => (readInt64 text).mapError (WatermarkFault.number (String.ofList text))
  | .date => moment ((Watermark.cutBytes? 10 text).getD text ++ "T00:00:00".toList)
  | .timestamp => moment ((Watermark.cutBytes? 19 text).getD text)
  | .hour => moment ((Watermark.cutBytes? 19 text).getD text)

end Harvest
