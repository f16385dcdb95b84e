import Harvest.Json.Reader
import Harvest.Yaml.Cell

/-!
# Scalars of YAML

A scalar is plain, quoted or a block. In the first two a run of blanks within a line
is kept, a single line end becomes a space, and of several line ends the first one is
dropped. A block keeps its lines or folds them in the same way where neither of the
two lines is indented.
-/

namespace Harvest.Yaml

/-- Blanks and line ends that were passed and not yet made part of a scalar. -/
inductive Gap
  | none
  /-- Blanks within a line, in reverse. -/
  | blanks (cs : List Char)
  /-- The first line end, unless it was escaped, and the ones after it. -/
  | lines (head : Option Char) (more : List Char)

namespace Gap

/-- Passes one blank. -/
def addBlank (c : Char) : Gap → Gap
  | .none => .blanks [c]
  | .blanks cs => .blanks (c :: cs)
  | .lines head more => .lines head more

/-- Passes one line end. -/
def addBreak (c : Char) : Gap → Gap
  | .lines head more => .lines head (more ++ [c])
  | _ => .lines (some c) []

/-- The text that a gap becomes within a scalar. -/
def text : Gap → List Char
  | .none => []
  | .blanks cs => cs.reverse
  | .lines (some '\n') [] => [' ']
  | .lines (some '\n') more => more
  | .lines (some c) more => c :: more
  | .lines Option.none more => more

/-- The gap holds a line end. -/
def isLines : Gap → Bool
  | .lines _ _ => true
  | _ => false

end Gap

/-- The value of `n` hexadecimal digits, and the cells after them. -/
def hexDigits? : (n : Nat) → (acc : Nat) → List Cell → Option (Nat × List Cell)
  | 0, acc, s => some (acc, s)
  | _ + 1, _, [] => none
  | n + 1, acc, c :: s =>
    match Json.hexValue? c.char with
    | some d => hexDigits? n (acc * 16 + d) s
    | none => none

/-- The character that a short escape stands for. -/
def shortEscape? : Char → Option Char
  | '0' => some '\x00'
  | 'a' => some '\x07'
  | 'b' => some '\x08'
  | 't' => some '\t'
  | '\t' => some '\t'
  | 'n' => some '\n'
  | 'v' => some '\x0b'
  | 'f' => some '\x0c'
  | 'r' => some '\r'
  | 'e' => some '\x1b'
  | ' ' => some ' '
  | '"' => some '"'
  | '/' => some '/'
  | '\\' => some '\\'
  | 'N' => some '\x85'
  | '_' => some '\xa0'
  | 'L' => some '\u2028'
  | 'P' => some '\u2029'
  | _ => none

/-- The number of digits of an escape by code point. -/
def codeLength? : Char → Option Nat
  | 'x' => some 2
  | 'u' => some 4
  | 'U' => some 8
  | _ => none

/-- Reads an escape behind its backslash. -/
def readEscape : List Cell → Option (Char × List Cell)
  | [] => none
  | c :: s =>
    match codeLength? c.char with
    | some n =>
      match hexDigits? n 0 s with
      | some (code, s) => if code.isValidChar then some (Char.ofNat code, s) else none
      | none => none
    | none => (shortEscape? c.char).map (·, s)

/-- Reads a quoted scalar behind its opening quote. The fuel bounds the number of cells. -/
def readQuoted (single : Bool) (fuel : Nat) (acc : List Char) (gap : Gap) (s : List Cell) :
    Option (String × List Cell) :=
  match fuel, s with
  | 0, _ => none
  | _, [] => none
  | fuel + 1, c :: rest =>
    if isEnd c.char then none
    else if isSpace c.char then readQuoted single fuel acc (gap.addBlank c.char) rest
    else if isBreak c.char then readQuoted single fuel acc (gap.addBreak c.char) rest
    else if atDocumentMark s then none
    else
      let acc := gap.text.reverse ++ acc
      if single then
        if c.char = '\'' then
          if first rest = '\'' then readQuoted single fuel ('\'' :: acc) .none (rest.drop 1)
          else some (String.ofList acc.reverse, rest)
        else readQuoted single fuel (c.char :: acc) .none rest
      else if c.char = '"' then some (String.ofList acc.reverse, rest)
      else if c.char = '\\' then
        if isBreak (first rest) then readQuoted single fuel acc (.lines none []) (rest.drop 1)
        else
          match readEscape rest with
          | some (e, rest) => readQuoted single fuel (e :: acc) .none rest
          | none => none
      else readQuoted single fuel (c.char :: acc) .none rest

/-- A character that separates the parts of a flow collection. -/
def isFlowMark (c : Char) : Bool := c == ',' || c == '[' || c == ']' || c == '\x7b' || c == '\x7d'

/-- A plain scalar: its text, the cells after it and after the gap behind it, and whether
that gap held a line end. -/
structure Plain where
  text : String
  rest : List Cell
  newLine : Bool

/-- Reads a plain scalar; outside of flow collections its lines have to be indented by
`indent` columns. -/
def readPlain (flow : Bool) (indent : Int) (fuel : Nat) (acc : List Char) (gap : Gap)
    (s : List Cell) : Option Plain :=
  match fuel, s with
  | 0, _ => none
  | _, [] => none
  | fuel + 1, c :: rest =>
    let stop : Option Plain := some ⟨String.ofList acc.reverse, s, gap.isLines⟩
    if isEnd c.char then stop
    else if isSpace c.char then
      if gap.isLines && (c.column : Int) < indent && c.char == '\t' then none
      else readPlain flow indent fuel acc (gap.addBlank c.char) rest
    else if isBreak c.char then readPlain flow indent fuel acc (gap.addBreak c.char) rest
    else
      let behindGap := match gap with
        | .none => false
        | _ => true
      if behindGap && !flow && (c.column : Int) < indent then stop
      else if behindGap && (atDocumentMark s || c.char == '#') then stop
      else if flow && c.char == ':' && (isFlowMark (first rest) || first rest == '?') then none
      else if c.char == ':' && isGap (first rest) then stop
      else if flow && isFlowMark c.char then stop
      else readPlain flow indent fuel (c.char :: (gap.text.reverse ++ acc)) .none rest

/-- What becomes of the line ends behind a block. -/
inductive Chomping
  | strip
  | clip
  | keep
  deriving DecidableEq

/-- The cells from the first one on that is no space or is indented as far as `indent`; an
indentation of zero is not known yet. -/
def skipIndent (indent : Nat) : List Cell → List Cell
  | [] => []
  | c :: s =>
    if (indent = 0 ∨ c.column < indent) ∧ c.char = ' ' then skipIndent indent s else c :: s

/-- Passes the empty lines of a block: the indentation, found where it was not known, the line
ends and the cells after them. -/
def readEmptyLines (parent : Int) (indent : Nat) (fuel widest : Nat) (breaks : List Char)
    (s : List Cell) : Option (Nat × List Char × List Cell) :=
  match fuel with
  | 0 => none
  | fuel + 1 =>
    let s := skipIndent indent s
    let widest := max widest (column s)
    if (indent = 0 ∨ column s < indent) ∧ first s = '\t' then none
    else if isBreak (first s) then
      readEmptyLines parent indent fuel widest (breaks ++ [first s]) (s.drop 1)
    else
      let found := if indent = 0 then max (max widest (parent + 1).toNat) 1 else indent
      some (found, breaks, s)

/-- Takes the rest of a line. -/
def takeLine (s : List Cell) : List Char × List Cell :=
  ((s.takeWhile fun c => !(isBreak c.char || isEnd c.char)).map Cell.char,
    s.dropWhile fun c => !(isBreak c.char || isEnd c.char))

/-- Reads the lines of a block: the text so far, the line end behind it and those of the empty
lines after it. -/
def readLines (literal : Bool) (parent : Int) (indent : Nat) (fuel : Nat) (acc : List Char)
    (lead : List Char) (breaks : List Char) (leadBlank : Bool) (s : List Cell) :
    Option (List Char × List Char × List Char × List Cell) :=
  match fuel with
  | 0 => none
  | fuel + 1 =>
    if column s = indent ∧ !isEnd (first s) then
      let blank := isSpace (first s)
      let joint :=
        if !literal && lead == ['\n'] && !leadBlank && !blank then
          if breaks.isEmpty then [' '] else breaks
        else lead ++ breaks
      let (line, s) := takeLine s
      let acc := line.reverse ++ (joint.reverse ++ acc)
      let (lead, s) := if isBreak (first s) then ([first s], s.drop 1) else ([], s)
      match readEmptyLines parent indent (s.length + 1) 0 [] s with
      | some (_, breaks, s) => readLines literal parent indent fuel acc lead breaks blank s
      | none => none
    else some (acc, lead, breaks, s)

/-- Reads the marks behind the indicator of a block: the chomping and the indentation, zero
where none is given. -/
def readBlockMarks (s : List Cell) : Option (Chomping × Nat × List Cell) :=
  let chomping? (c : Char) : Option Chomping :=
    if c = '+' then some .keep else if c = '-' then some .strip else none
  let digit (c : Char) : Bool := c.isDigit
  match chomping? (first s) with
  | some chomping =>
    let d := peek 1 s
    if digit d then
      if d = '0' then none else some (chomping, d.toNat - 48, s.drop 2)
    else some (chomping, 0, s.drop 1)
  | none =>
    let d := first s
    if digit d then
      if d = '0' then none
      else
        match chomping? (peek 1 s) with
        | some chomping => some (chomping, d.toNat - 48, s.drop 2)
        | none => some (.clip, d.toNat - 48, s.drop 1)
    else some (.clip, 0, s)

/-- The cells without a comment and the blanks before it. -/
def skipComment (s : List Cell) : List Cell :=
  let s := s.dropWhile fun c => isSpace c.char
  if first s = '#' then s.dropWhile fun c => !(isBreak c.char || isEnd c.char) else s

/-- Reads a block behind its indicator, within a collection indented by `parent`. -/
def readBlock (literal : Bool) (parent : Int) (s : List Cell) : Option (String × List Cell) := do
  let (chomping, increment, s) ← readBlockMarks s
  let s := skipComment s
  if !(isBreak (first s) || isEnd (first s)) then none
  else
    let s := if isBreak (first s) then s.drop 1 else s
    let indent :=
      if increment = 0 then 0 else if 0 ≤ parent then parent.toNat + increment else increment
    let (indent, breaks, s) ← readEmptyLines parent indent (s.length + 1) 0 [] s
    let (acc, lead, breaks, s) ←
      readLines literal parent indent (s.length + 1) [] [] breaks false s
    let tail := match chomping with
      | .strip => []
      | .clip => lead
      | .keep => lead ++ breaks
    some (String.ofList (acc.reverse ++ tail), s)

end Harvest.Yaml
