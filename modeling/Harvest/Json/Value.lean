import Harvest.Document.Schema

/-!
# JSON values

The leaves of a JSON document and what they stand for: texts, numbers and truth
values are told apart, and `null` is an absent value. A variant is a text, or a map
of one member that is named so and null.
-/

namespace Harvest.Json

open Harvest.Document

/-- A scalar of a JSON document. -/
inductive Leaf
  | null
  | bool (b : Bool)
  | integer (n : Int)
  | real (x : Float)
  | text (s : String)
  /-- A scalar that follows the notation but stands for no value: a number beyond all
  bounds, or a text with half a character. -/
  | unusable
  deriving Repr

/-- A JSON document. -/
abbrev Value := Node Leaf

namespace Value

/-- The absent value. -/
def null : Value := .leaf .null

/-- A truth value. -/
def bool (b : Bool) : Value := .leaf (.bool b)

/-- An integer. -/
def integer (n : Int) : Value := .leaf (.integer n)

/-- A number without sign. -/
def natural (n : Nat) : Value := .leaf (.integer n)

/-- A floating number. -/
def real (x : Float) : Value := .leaf (.real x)

/-- A text. -/
def text (s : String) : Value := .leaf (.text s)

/-- A list. -/
def array (xs : List Value) : Value := .list xs true

/-- A list of texts. -/
def texts (xs : List String) : Value := array (xs.map text)

/-- A map. -/
def object (members : List (String × Value)) : Value :=
  .map (members.map fun m => (some m.1, m.2)) true

/-- An optional value, null where there is none. -/
def optional {α : Type} (encode : α → Value) : Option α → Value
  | none => null
  | some x => encode x

end Value

namespace Leaf

/-- The text that a leaf is. -/
def text? : Leaf → Option String
  | .text s => some s
  | _ => none

/-- The integer that a leaf is. -/
def integer? : Leaf → Option Int
  | .integer n => some n
  | _ => none

/-- The number without sign that a leaf is. -/
def natural? : Leaf → Option Nat
  | .integer (.ofNat n) => some n
  | _ => none

/-- The truth value that a leaf is. -/
def bool? : Leaf → Option Bool
  | .bool b => some b
  | _ => none

/-- The floating number that a leaf is; an integer is one as well. -/
def real? : Leaf → Option Float
  | .real x => some x
  | .integer (.ofNat n) => some n.toFloat
  | .integer (.negSucc n) => some (-(n + 1).toFloat)
  | _ => none

/-- The leaf is the absent value. -/
def isNull : Leaf → Bool
  | .null => true
  | _ => false

end Leaf

/-- The name of a variant. -/
def variantName : Value → Except Fault (String × Except Fault Unit)
  | .leaf (.text s) => .ok (s, .ok ())
  | .map [] false => .error .malformed
  | .map ((some name, value) :: rest) complete =>
    let remainder : Except Fault Unit :=
      match value with
      | .leaf .null => if rest.isEmpty && complete then .ok () else .error .malformed
      | _ => .error .mistyped
    .ok (name, remainder)
  | .broken => .error .malformed
  | _ => .error .mistyped

/-- What the leaves of a JSON document stand for. -/
def leafReading : LeafReading Leaf where
  text? := Leaf.text?
  signed? := Leaf.integer?
  unsigned? := Leaf.natural?
  boolean? := Leaf.bool?
  real? := Leaf.real?
  absent? v := .ok v.isNull
  isVoid _ := false
  variant := variantName

end Harvest.Json
