/-!
# Placed characters

A YAML text is read as a list of cells: characters together with their line, column
and index. The different line ends become one line feed each, and a cell with a null
character, which no text may hold, stands behind the last one.
-/

namespace Harvest.Yaml

/-- A character and its place. -/
structure Cell where
  char : Char
  line : Nat
  column : Nat
  index : Nat
  deriving Repr

/-- The line separator and the paragraph separator, which end a line and are kept. -/
def isSeparator (c : Char) : Bool := c == '\u2028' || c == '\u2029'

/-- A character that ends a line. -/
def isBreak (c : Char) : Bool := c == '\n' || isSeparator c

/-- A space or a tab. -/
def isSpace (c : Char) : Bool := c == ' ' || c == '\t'

/-- The null character behind the text. -/
def isEnd (c : Char) : Bool := c == '\x00'

/-- A space, a tab, a line end or the end of the text. -/
def isGap (c : Char) : Bool := isSpace c || isBreak c || isEnd c

/-- A character that a text may hold. -/
def isAllowed (c : Char) : Bool :=
  let n := c.toNat
  n == 0x09 || n == 0x0A || n == 0x0D || (0x20 ≤ n && n ≤ 0x7E) || n == 0x85 ||
    (0xA0 ≤ n && n ≤ 0xD7FF) || (0xE000 ≤ n && n ≤ 0xFFFD && n != 0xFEFF) ||
    (0x10000 ≤ n && n ≤ 0x10FFFF)

/-- Places the characters of a text, the first one being at the given place. -/
def place (line column index : Nat) : List Char → List Cell
  | [] => [⟨'\x00', line, column, index⟩]
  | '\r' :: '\n' :: s => ⟨'\n', line, column, index⟩ :: place (line + 1) 0 (index + 2) s
  | c :: s =>
    if c = '\n' ∨ c = '\r' ∨ c = '\x85' then
      ⟨'\n', line, column, index⟩ :: place (line + 1) 0 (index + 1) s
    else if isSeparator c then ⟨c, line, column, index⟩ :: place (line + 1) 0 (index + 1) s
    else ⟨c, line, column, index⟩ :: place line (column + 1) (index + 1) s

/-- The cells of a text. -/
def cells (s : List Char) : List Cell := place 0 0 0 s

/-- The first character, or the null character behind the text. -/
def first : List Cell → Char
  | [] => '\x00'
  | c :: _ => c.char

/-- The character behind `n` others. -/
def peek (n : Nat) (s : List Cell) : Char := first (s.drop n)

/-- The column reached. -/
def column : List Cell → Nat
  | [] => 0
  | c :: _ => c.column

/-- A line that starts with three dashes or points begins or ends a document. -/
def atDocumentMark (s : List Cell) : Bool :=
  column s == 0 && isGap (peek 3 s) &&
    ((s.take 3).map Cell.char == ['-', '-', '-'] || (s.take 3).map Cell.char == ['.', '.', '.'])

/-- A letter, a digit, a dash or an underscore. -/
def isWord (c : Char) : Bool := c.isAlphanum || c == '-' || c == '_'

end Harvest.Yaml
