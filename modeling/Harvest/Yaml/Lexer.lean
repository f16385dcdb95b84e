import Harvest.Yaml.Token

/-!
# Splitting a text into tokens

A block collection begins where a line is indented further than the collection around
it, and ends where one is indented less. Whether a scalar or a collection in brackets is
the key of a mapping shows only at the colon behind it, which has to stand on the same
line and within 1024 characters. So the place where such a key would begin is kept, and
the tokens that announce it are put in there once the colon is seen.

Where the text stops to follow the notation, the tokens end; those behind a possible key
that was still open are not told either.
-/

namespace Harvest.Yaml

/-- A place where a key may have begun: the number of tokens before it, and its cell. -/
structure KeyStart where
  tokenNumber : Nat
  line : Nat
  column : Nat
  index : Nat
  /-- A token at this place has to be a key. -/
  required : Bool

/-- The state between two tokens. -/
structure Lexer where
  rest : List Cell
  /-- The column of the innermost block collection. -/
  indent : Int
  /-- The columns of the collections around it, innermost first. -/
  outerIndents : List Int
  /-- The possible key of the innermost level. -/
  keyStart : Option KeyStart
  /-- The possible keys of the levels around the flow collections, innermost first. -/
  outerKeys : List (Option KeyStart)
  /-- A key may begin here. -/
  keyAllowed : Bool
  /-- The tokens in reverse. -/
  tokens : List Token
  count : Nat

namespace Lexer

/-- The state before the first token. -/
def start (s : List Cell) : Lexer := ⟨s, -1, [], none, [], true, [], 0⟩

/-- The text here is within a flow collection. -/
def inFlow (l : Lexer) : Bool := !l.outerKeys.isEmpty

/-- Adds a token. -/
def push (t : Token) (l : Lexer) : Lexer := { l with tokens := t :: l.tokens, count := l.count + 1 }

/-- Puts a token behind the first `n`. -/
def insert (n : Nat) (t : Token) (l : Lexer) : Lexer :=
  let behind := l.tokens.take (l.count - n)
  { l with tokens := behind ++ t :: l.tokens.drop (l.count - n), count := l.count + 1 }

/-- Begins a block collection at a column if that is further in; its token is put behind the
first `n`. -/
def openBlock (column n : Nat) (t : Token) (l : Lexer) : Lexer :=
  if l.inFlow || (column : Int) ≤ l.indent then l
  else { l.insert n t with indent := column, outerIndents := l.indent :: l.outerIndents }

/-- Ends the collections in the given list that are indented further than `column`. -/
def closeBlocksIn (column : Int) (l : Lexer) : List Int → Lexer
  | [] => l
  | outer :: more =>
    if column < l.indent then
      closeBlocksIn column { l.push .blockEnd with indent := outer, outerIndents := more } more
    else l

/-- Ends the block collections that are indented further than `column`. -/
def closeBlocks (column : Int) (l : Lexer) : Lexer :=
  if l.inFlow then l else closeBlocksIn column l l.outerIndents

/-- A key that begins at `k` can still end here. -/
def reaches (l : Lexer) (k : KeyStart) : Bool :=
  match l.rest with
  | [] => false
  | c :: _ => k.line == c.line && c.index ≤ k.index + 1024

/-- Gives up the possible key of this level. -/
def forgetKey (l : Lexer) : Option Lexer :=
  match l.keyStart with
  | some k => if k.required then none else some { l with keyStart := none }
  | none => some l

/-- Keeps this place as one where a key may have begun. -/
def markKey (l : Lexer) : Option Lexer :=
  if !l.keyAllowed then some l
  else
    match l.rest with
    | [] => none
    | c :: _ => do
      let required := !l.inFlow && l.indent == c.column
      let l ← l.forgetKey
      some { l with keyStart := some ⟨l.count, c.line, c.column, c.index, required⟩ }

/-- Passes `n` cells. -/
def skip (n : Nat) (l : Lexer) : Lexer := { l with rest := l.rest.drop n }

/-- Passes blanks, comments and line ends; in blocks a key may begin on a new line. -/
def skipToToken (fuel : Nat) (l : Lexer) : Lexer :=
  match fuel with
  | 0 => l
  | fuel + 1 =>
    let tabs := l.inFlow || !l.keyAllowed
    let s := l.rest.dropWhile fun c => c.char == ' ' || (tabs && c.char == '\t')
    let s :=
      if first s = '#' then s.dropWhile fun c => !(isBreak c.char || isEnd c.char) else s
    if isBreak (first s) then
      skipToToken fuel { l with rest := s.drop 1, keyAllowed := l.keyAllowed || !l.inFlow }
    else { l with rest := s }

/-- The end of the text. -/
def atEnd (l : Lexer) : Option Lexer := do
  let l ← (l.closeBlocks (-1)).forgetKey
  some { l.push .streamEnd with rest := [], keyAllowed := false }

/-- A directive. -/
def atDirective (l : Lexer) : Option Lexer := do
  let l ← (l.closeBlocks (-1)).forgetKey
  let (t, s) ← readDirective (l.rest.drop 1)
  some { l.push t with rest := s, keyAllowed := false }

/-- The mark that begins or ends a document. -/
def atDocument (t : Token) (l : Lexer) : Option Lexer := do
  let l ← (l.closeBlocks (-1)).forgetKey
  some { (l.push t).skip 3 with keyAllowed := false }

/-- The opening bracket of a flow collection. -/
def atFlowStart (t : Token) (l : Lexer) : Option Lexer := do
  let l ← l.markKey
  some { (l.push t).skip 1 with
    keyStart := none, outerKeys := l.keyStart :: l.outerKeys, keyAllowed := true }

/-- The closing bracket of a flow collection. -/
def atFlowEnd (t : Token) (l : Lexer) : Option Lexer := do
  let l ← l.forgetKey
  let l := { (l.push t).skip 1 with keyAllowed := false }
  match l.outerKeys with
  | [] => some l
  | k :: more => some { l with keyStart := k, outerKeys := more }

/-- The comma of a flow collection. -/
def atFlowEntry (l : Lexer) : Option Lexer := do
  let l ← l.forgetKey
  some { (l.push .flowEntry).skip 1 with keyAllowed := true }

/-- The dash before an item. -/
def atBlockEntry (l : Lexer) : Option Lexer := do
  if !l.inFlow && !l.keyAllowed then none
  else
    let l ← (l.openBlock (column l.rest) l.count .blockSequenceStart).forgetKey
    some { (l.push .blockEntry).skip 1 with keyAllowed := true }

/-- The question mark before a key. -/
def atKey (l : Lexer) : Option Lexer := do
  if !l.inFlow && !l.keyAllowed then none
  else
    let l ← (l.openBlock (column l.rest) l.count .blockMappingStart).forgetKey
    some { (l.push .key).skip 1 with keyAllowed := !l.inFlow }

/-- The colon before a value. -/
def atValue (l : Lexer) : Option Lexer := do
  let known := match l.keyStart with
    | some k => if l.reaches k then some k else none
    | none => none
  let l ←
    match known with
    | some k =>
      let l := (l.insert k.tokenNumber .key).openBlock k.column k.tokenNumber .blockMappingStart
      some { l with keyStart := none, keyAllowed := false }
    | none =>
      let l ← l.forgetKey
      if !l.inFlow && !l.keyAllowed then none
      else
        let l := l.openBlock (column l.rest) l.count .blockMappingStart
        some { l with keyAllowed := !l.inFlow }
  some ((l.push .value).skip 1)

/-- A token that may be or begin a key and after which no other key can begin. -/
def atWord (read : List Cell → Option (Token × List Cell)) (l : Lexer) : Option Lexer := do
  let l ← l.markKey
  let (t, s) ← read l.rest
  some { l.push t with rest := s, keyAllowed := false }

/-- A block scalar. -/
def atBlock (literal : Bool) (l : Lexer) : Option Lexer := do
  let l ← l.forgetKey
  let (text, s) ← readBlock literal l.indent (l.rest.drop 1)
  let style := if literal then Style.literal else Style.other
  some { l.push (.scalar text style) with rest := s, keyAllowed := true }

/-- A quoted scalar. -/
def atQuoted (single : Bool) (l : Lexer) : Option Lexer :=
  l.atWord fun s => do
    let (text, s) ← readQuoted single (s.length + 1) [] .none (s.drop 1)
    some (.scalar text .other, s)

/-- A plain scalar; a key may begin behind it if that is on another line. -/
def atPlain (l : Lexer) : Option Lexer := do
  let l ← l.markKey
  let p ← readPlain l.inFlow (l.indent + 1) (l.rest.length + 1) [] .none l.rest
  some { l.push (.scalar p.text .plain) with rest := p.rest, keyAllowed := p.newLine }

/-- A character that no plain scalar begins with. -/
def isIndicator (c : Char) : Bool :=
  isFlowMark c ||
    ['-', '?', ':', '#', '&', '*', '!', '|', '>', '\'', '"', '%', '@', '\x60'].contains c

/-- A plain scalar begins with `c` where `next` follows it. -/
def beginsPlain (flow : Bool) (c next : Char) : Bool :=
  !(isGap c || isIndicator c) || (c == '-' && !isSpace next) ||
    (!flow && (c == '?' || c == ':') && !isGap next)

/-- Reads the next token, and the ends of collections before it. -/
def next (l : Lexer) : Option Lexer :=
  let l := l.skipToToken (l.rest.length + 1)
  let l := l.closeBlocks (column l.rest)
  let c := first l.rest
  let behind := peek 1 l.rest
  let lineStart := column l.rest == 0
  if isEnd c then l.atEnd
  else if lineStart && c == '%' then l.atDirective
  else if atDocumentMark l.rest then
    l.atDocument (if c = '-' then .documentStart else .documentEnd)
  else if c = '[' then l.atFlowStart .flowSequenceStart
  else if c = '\x7b' then l.atFlowStart .flowMappingStart
  else if c = ']' then l.atFlowEnd .flowSequenceEnd
  else if c = '\x7d' then l.atFlowEnd .flowMappingEnd
  else if c = ',' then l.atFlowEntry
  else if c = '-' && isGap behind then l.atBlockEntry
  else if c = '?' && (l.inFlow || isGap behind) then l.atKey
  else if c = ':' && (l.inFlow || isGap behind) then l.atValue
  else if c = '*' then
    l.atWord fun s => (readAnchor (s.drop 1)).map fun p => (.alias p.1, p.2)
  else if c = '&' then
    l.atWord fun s => (readAnchor (s.drop 1)).map fun p => (.anchor p.1, p.2)
  else if c = '!' then l.atWord fun s => readTag l.inFlow (s.drop 1)
  else if c = '|' && !l.inFlow then l.atBlock true
  else if c = '>' && !l.inFlow then l.atBlock false
  else if c = '\'' then l.atQuoted true
  else if c = '"' then l.atQuoted false
  else if beginsPlain l.inFlow c behind then l.atPlain
  else none

/-- The tokens that can be told although what follows them is no text of the notation. -/
def told (l : Lexer) : List Token :=
  let pending := (l.keyStart :: l.outerKeys).filterMap fun k =>
    match k with
    | some k => if l.reaches k then some k.tokenNumber else none
    | none => none
  l.tokens.reverse.take (pending.foldl min l.count)

/-- Reads the tokens up to the end of the text, or to its fault. -/
def run (fuel : Nat) (l : Lexer) : List Token :=
  match fuel with
  | 0 => l.told
  | fuel + 1 =>
    match l.next with
    | none => l.told
    | some l => if l.rest.isEmpty then l.tokens.reverse else run fuel l

end Lexer

/-- The tokens of a text; a fault of the text shows in that the token for its end is missing.
A byte order mark before the text is passed over. -/
def tokens (text : String) : List Token :=
  let chars := match text.toList with
    | '\uFEFF' :: s => s
    | s => s
  if chars.all isAllowed then
    let s := cells chars
    (Lexer.start s).run (s.length + 1)
  else []

end Harvest.Yaml
