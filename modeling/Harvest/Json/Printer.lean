import Harvest.Decimal.Shortest
import Harvest.Json.Value
import Harvest.Text.Integer
import Harvest.Text.Quoted

/-!
# Writing JSON

A value is written without any blank, or one item to a line with two blanks for each
level. Members keep their order. Of the texts only the quote, the backslash and the
controls are escaped.
-/

namespace Harvest.Json

open Harvest.Document Harvest.Text

/-- A character of a text. -/
def escaped (c : Char) : List Char :=
  if c = '"' then ['\\', '"']
  else if c = '\\' then ['\\', '\\']
  else if c = '\n' then ['\\', 'n']
  else if c = '\r' then ['\\', 'r']
  else if c = '\t' then ['\\', 't']
  else if c = '\x08' then ['\\', 'b']
  else if c = '\x0c' then ['\\', 'f']
  else if c.toNat < 0x10 then ['\\', 'u', '0', '0', '0'] ++ hexDigits c.toNat
  else if c.toNat < 0x20 then ['\\', 'u', '0', '0'] ++ hexDigits c.toNat
  else [c]

/-- A text in quotes. -/
def quotedText (s : String) : List Char := '"' :: s.toList.flatMap escaped ++ ['"']

/-- A scalar. -/
def leafText : Leaf → List Char
  | .null => "null".toList
  | .bool true => "true".toList
  | .bool false => "false".toList
  | .integer n => Text.decimal n
  | .real x => if x.isFinite then (Decimal.floatText x).toList else "null".toList
  | .text s => quotedText s
  | .unusable => "null".toList

/-- The name of a member; every member that is written has one. -/
def nameText (name : Option String) : List Char := quotedText (name.getD "")

mutual

/-- A value without blanks. -/
def compactText : Value → List Char
  | .leaf value => leafText value
  | .list items _ => '[' :: compactItems items ++ [']']
  | .map members _ => '\x7b' :: compactMembers members ++ ['\x7d']
  | .broken => "null".toList

/-- The texts of items, with commas between them. -/
def compactItems : List Value → List Char
  | [] => []
  | [t] => compactText t
  | t :: rest => compactText t ++ ',' :: compactItems rest

/-- The texts of members, with commas between them. -/
def compactMembers : List (Option String × Value) → List Char
  | [] => []
  | [(name, t)] => nameText name ++ ':' :: compactText t
  | (name, t) :: rest => nameText name ++ ':' :: compactText t ++ ',' :: compactMembers rest

end

/-- A line end and the blanks of a level. -/
def newLine (level : Nat) : List Char := '\n' :: List.replicate (2 * level) ' '

mutual

/-- A value over several lines, at a level. -/
def prettyText (level : Nat) : Value → List Char
  | .leaf value => leafText value
  | .list [] _ => ['[', ']']
  | .list (t :: rest) _ =>
    '[' :: newLine (level + 1) ++ prettyText (level + 1) t ++ prettyItems (level + 1) rest ++
      newLine level ++ [']']
  | .map [] _ => ['\x7b', '\x7d']
  | .map ((name, t) :: rest) _ =>
    '\x7b' :: newLine (level + 1) ++ nameText name ++ ": ".toList ++ prettyText (level + 1) t ++
      prettyMembers (level + 1) rest ++ newLine level ++ ['\x7d']
  | .broken => "null".toList

/-- The items behind the first one, each on a line of its own. -/
def prettyItems (level : Nat) : List Value → List Char
  | [] => []
  | t :: rest => ',' :: newLine level ++ prettyText level t ++ prettyItems level rest

/-- The members behind the first one, each on a line of its own. -/
def prettyMembers (level : Nat) : List (Option String × Value) → List Char
  | [] => []
  | (name, t) :: rest =>
    ',' :: newLine level ++ nameText name ++ ": ".toList ++ prettyText level t ++
      prettyMembers level rest

end

/-- The text of a value without blanks. -/
def compact (t : Value) : String := String.ofList (compactText t)

/-- The text of a value over several lines. -/
def pretty (t : Value) : String := String.ofList (prettyText 0 t)

end Harvest.Json
