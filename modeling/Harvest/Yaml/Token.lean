import Harvest.Text.Utf8
import Harvest.Yaml.Scalar

/-!
# Tokens of YAML

The marks of a text, its names and its scalars, and the readers of those that are
words: anchors, tags and directives.
-/

namespace Harvest.Yaml

/-- How a scalar is written. -/
inductive Style
  | plain
  /-- A block that keeps its lines. -/
  | literal
  /-- A quoted scalar, or a block that is folded. -/
  | other
  deriving DecidableEq, Repr

/-- The parts that a text consists of. -/
inductive Token
  | blockSequenceStart
  | blockMappingStart
  | blockEnd
  | flowSequenceStart
  | flowSequenceEnd
  | flowMappingStart
  | flowMappingEnd
  | blockEntry
  | flowEntry
  | key
  | value
  | alias (name : String)
  | anchor (name : String)
  /-- A tag by its handle, empty for one that is written in full, and the rest. -/
  | tag (handle suffix : String)
  | scalar (text : String) (style : Style)
  | version (major minor : Nat)
  /-- What a handle of tags stands for. -/
  | handle (name start : String)
  | documentStart
  | documentEnd
  | streamEnd
  deriving DecidableEq, Repr

/-- The cells of a word and those behind it. -/
def takeWord (s : List Cell) : List Char × List Cell :=
  ((s.takeWhile fun c => isWord c.char).map Cell.char, s.dropWhile fun c => isWord c.char)

/-- The cells behind the blanks. -/
def skipSpaces (s : List Cell) : List Cell := s.dropWhile fun c => isSpace c.char

/-- A character that may stand behind an anchor besides a gap. -/
def endsAnchor (c : Char) : Bool :=
  isGap c || c == '?' || c == ':' || c == ',' || c == ']' || c == '\x7d' || c == '%' || c == '@' ||
    c == '\x60'

/-- Reads the name of an anchor or alias behind its mark. -/
def readAnchor (s : List Cell) : Option (String × List Cell) :=
  let (name, s) := takeWord s
  if name.isEmpty || !endsAnchor (first s) then none else some (String.ofList name, s)

/-- A character of a tag that stands for itself; with `full`, the marks of flow collections are
among them. -/
def isTagChar (full : Bool) (c : Char) : Bool :=
  isWord c || (full && (c == ',' || c == '[' || c == ']')) ||
    [';', '/', '?', ':', '@', '&', '=', '+', '$', '.', '!', '~', '*', '\'', '(', ')'].contains c

/-- Reads the characters of a tag: the octets they have in UTF-8, where `%` and two digits stand
for an octet. -/
def readTagOctets (full : Bool) (fuel : Nat) (acc : List UInt8) (s : List Cell) :
    Option (List UInt8 × List Cell) :=
  match fuel, s with
  | fuel + 1, c :: rest =>
    if isTagChar full c.char then
      readTagOctets full fuel ((String.utf8EncodeChar c.char).reverse ++ acc) rest
    else if c.char = '%' then
      match hexDigits? 2 0 rest with
      | some (octet, rest) => readTagOctets full fuel (octet.toUInt8 :: acc) rest
      | none => none
    else some (acc.reverse, s)
  | _, _ => some (acc.reverse, s)

/-- Reads the characters of a tag. -/
def readTagText (full : Bool) (s : List Cell) : Option (String × List Cell) := do
  let (octets, s) ← readTagOctets full (s.length + 1) [] s
  match Utf8.decodeString octets with
  | .ok text => some (text, s)
  | .error _ => none

/-- A tag ends at a gap, within flow collections also at a comma. -/
def endsTag (flow : Bool) (s : List Cell) : Bool := isGap (first s) || (flow && first s == ',')

/-- Reads a tag behind its exclamation mark. -/
def readTag (flow : Bool) (s : List Cell) : Option (Token × List Cell) := do
  let (token, s) ←
    if first s = '<' then do
      let (text, s) ← readTagText true (s.drop 1)
      if text.isEmpty || first s != '>' then none else some (Token.tag "" text, s.drop 1)
    else
      let (word, behind) := takeWord s
      if first behind = '!' then do
        let (text, s) ← readTagText false (behind.drop 1)
        if text.isEmpty then none
        else some (Token.tag ("!" ++ String.ofList word ++ "!") text, s)
      else do
        let (text, s) ← readTagText false s
        some (if text.isEmpty then Token.tag "" "!" else Token.tag "!" text, s)
  if endsTag flow s then some (token, s) else none

/-- Reads the digits of a version, nine at most. -/
def readVersionNumber (s : List Cell) : Option (Nat × List Cell) :=
  let digits := (s.takeWhile fun c => c.char.isDigit).map Cell.char
  if digits.isEmpty || 9 < digits.length then none
  else some (digits.foldl (fun n d => n * 10 + (d.toNat - 48)) 0, s.drop digits.length)

/-- Reads the handle and the text of a directive about tags. -/
def readHandle (s : List Cell) : Option (Token × List Cell) := do
  let s := skipSpaces s
  if first s != '!' then none
  else
    let (word, s) := takeWord (s.drop 1)
    let (name, s) ←
      if first s = '!' then some ("!" ++ String.ofList word ++ "!", s.drop 1)
      else if word.isEmpty then some ("!", s) else none
    if !isSpace (first s) then none
    else
      let (text, s) ← readTagText true (skipSpaces s)
      if text.isEmpty || !isGap (first s) then none else some (Token.handle name text, s)

/-- Reads a directive behind its percent sign, as far as the end of its line. -/
def readDirective (s : List Cell) : Option (Token × List Cell) := do
  let (name, s) := takeWord s
  let (token, s) ←
    if !isGap (first s) then none
    else if name = ['Y', 'A', 'M', 'L'] then do
      let (major, s) ← readVersionNumber (skipSpaces s)
      if first s != '.' then none
      else
        let (minor, s) ← readVersionNumber (s.drop 1)
        some (Token.version major minor, s)
    else if name = ['T', 'A', 'G'] then readHandle s
    else none
  let s := skipComment s
  if isBreak (first s) then some (token, s.drop 1)
  else if isEnd (first s) then some (token, s)
  else none

end Harvest.Yaml
