import Harvest.Text.Integer
import Harvest.Yaml.Reader

/-!
# What scalars of YAML stand for

The words of null and of the truth values have three spellings each. An integer is
written with digits to base ten without leading zeros, or to base sixteen, eight or two
behind a mark.
-/

namespace Harvest.Yaml

open Harvest.Document Harvest.Text

/-- The word stands for an absent value. -/
def isNullWord (s : String) : Bool := s == "null" || s == "Null" || s == "NULL" || s == "~"

/-- The truth value that a word stands for. -/
def booleanOf? (s : String) : Option Bool :=
  if s == "true" || s == "True" || s == "TRUE" then some true
  else if s == "false" || s == "False" || s == "FALSE" then some false
  else none

/-- The value of a digit to some base up to sixteen. -/
def digitOf? (base : Nat) (c : Char) : Option Nat := (Json.hexValue? c).filter (· < base)

/-- The value of digits to a base; at least one is needed. -/
def digitsOf? (base : Nat) : List Char → Option Nat
  | [] => none
  | s => s.foldlM (fun n c => (digitOf? base c).map (n * base + ·)) 0

/-- The base that a mark behind a zero announces. -/
def baseOf? : Char → Option Nat
  | 'x' => some 16
  | 'o' => some 8
  | 'b' => some 2
  | _ => none

/-- The value of an integer without its sign, within `limit`. -/
def magnitudeOf? (limit : Nat) (s : List Char) : Option Nat :=
  let marked := match s with
    | '0' :: m :: digits => (baseOf? m).bind fun base => digitsOf? base digits
    | _ => none
  let value := match marked, s with
    | some n, _ => some n
    | none, '0' :: _ :: _ => none
    | none, s => digitsOf? 10 s
  value.filter (· ≤ limit)

/-- The integer without sign that a scalar stands for, of 64 bits. -/
def unsignedOf? (s : List Char) : Option Nat :=
  match s with
  | '+' :: s => magnitudeOf? maxNat64 s
  | s => magnitudeOf? maxNat64 s

/-- The integer of 64 bits that a scalar stands for. -/
def signedOf? (s : List Char) : Option Int :=
  match s with
  | '+' :: s => (magnitudeOf? maxInt64 s).map Int.ofNat
  | '-' :: s => (magnitudeOf? (maxInt64 + 1) s).map fun n => -(n : Int)
  | s => (magnitudeOf? maxInt64 s).map Int.ofNat

/-- The tag that the words of a kind may carry. -/
def kindTag (kind : String) : String := "tag:yaml.org,2002:" ++ kind

/-- The scalar may stand for a value of a kind: it is plain, or a block with the kind's tag. -/
def Leaf.mayBe (v : Leaf) (kind : String) : Bool :=
  match v.style with
  | .plain => true
  | .literal => v.tag == some (kindTag kind)
  | .other => false

/-- Whether a scalar stands for an absent value; one with the tag of null has to. -/
def Leaf.absent? (v : Leaf) : Except Fault Bool :=
  match v.style, v.tag with
  | .plain, some t =>
    if t != kindTag "null" then .ok false
    else if isNullWord v.text then .ok true
    else .error .mistyped
  | .plain, none => .ok (v.text.isEmpty || isNullWord v.text)
  | _, _ => .ok false

/-- The name of a variant: a tag behind its exclamation mark, whose scalar then has to be null,
or else the scalar itself. -/
def readVariant : Value → Except Fault (String × Except Fault Unit)
  | .leaf v =>
    match v.tag with
    | some t =>
      let name := match t.toList with
        | '!' :: s => String.ofList s
        | s => String.ofList s
      let rest :=
        if v.style == .plain && (v.text.isEmpty || isNullWord v.text) then .ok ()
        else .error .mistyped
      .ok (name, rest)
    | none => .ok (v.text, .ok ())
  | .broken => .error .malformed
  | _ => .error .mistyped

/-- What scalars stand for. -/
def leafReading : LeafReading Leaf where
  text? v := some v.text
  signed? v := if v.mayBe "int" then signedOf? v.text.toList else none
  unsigned? v := if v.mayBe "int" then unsignedOf? v.text.toList else none
  boolean? v := if v.mayBe "bool" then booleanOf? v.text else none
  real? _ := none
  absent? := Leaf.absent?
  isVoid v := v.style == .plain && v.text.isEmpty
  variant := readVariant

end Harvest.Yaml
