/-!
# Inflating

Deflated data is a sequence of blocks. A block holds bytes as they are, or symbols of a
prefix code: bytes, and copies of what was inflated before, which reach back 32768 bytes
at most. A copy that reaches back beyond the beginning takes zeros from there.

Inflating ends with the last block, where the data end too early, or where they follow
no rule. What was inflated since the window of 32768 bytes was last full is lost with
such a fault; data that only end too early lose nothing.
-/

namespace Harvest.Gzip

/-- Data that are read bit by bit from the lowest bit of each byte; `offset` bits of the first
byte are read already. -/
structure Bits where
  bytes : List UInt8
  offset : Nat
  deriving Repr

/-- Why inflating ends before the last block does. -/
inductive InflateFault
  | incomplete
  | corrupt
  deriving DecidableEq, Repr

namespace Bits

/-- Reads one bit. -/
def next : Bits → Option (Nat × Bits)
  | ⟨[], _⟩ => none
  | ⟨b :: s, offset⟩ =>
    let bit := (b.toNat >>> offset) % 2
    some (bit, if offset < 7 then ⟨b :: s, offset + 1⟩ else ⟨s, 0⟩)

/-- Reads a number of `n` bits, the lowest first. -/
def take : (n : Nat) → Bits → Option (Nat × Bits)
  | 0, s => some (0, s)
  | n + 1, s => do
    let (bit, s) ← s.next
    let (rest, s) ← take n s
    some (bit + 2 * rest, s)

/-- The bytes behind the one that is being read. -/
def aligned (s : Bits) : List UInt8 := if s.offset = 0 then s.bytes else s.bytes.drop 1

end Bits

/-- A step that needs more data than there are. -/
def orIncomplete {α : Type} (r : Option α) : Except InflateFault α :=
  match r with
  | some x => .ok x
  | none => .error .incomplete

/-- A prefix code: how many codes there are of each length from one on, and the symbols in the
order of their codes. -/
structure PrefixCode where
  counts : List Nat
  symbols : Array Nat
  deriving Repr

namespace PrefixCode

/-- The symbols whose code has the given length, where `lengths` are the lengths of all. -/
def symbolsOf (lengths : List Nat) (length : Nat) : List Nat :=
  (lengths.zipIdx.filter fun p => p.1 == length).map Prod.snd

/-- The number of codes of the greatest length that codes of these counts leave unused, or
`none` where there are more codes than can be. -/
def unused? (left : Nat) : List Nat → Option Nat
  | [] => some left
  | count :: counts => if 2 * left < count then none else unused? (2 * left - count) counts

/-- The code with the given lengths, zero standing for no code. Every code has to be used
unless there is at most one symbol. -/
def ofLengths? (lengths : List Nat) : Option PrefixCode :=
  let groups := (List.range 15).map fun n => symbolsOf lengths (n + 1)
  let counts := groups.map List.length
  let code : PrefixCode := ⟨counts, groups.flatten.toArray⟩
  match unused? 1 counts with
  | none => none
  | some left => if left == 0 || code.symbols.size ≤ 1 then some code else none

/-- Reads a code bit by bit: `code` is what was read, `first` the first code of the next length
and `index` the number of shorter codes. -/
def readFrom (symbols : Array Nat) (code first index : Nat) :
    List Nat → Bits → Except InflateFault (Nat × Bits)
  | [], _ => .error .corrupt
  | count :: counts, s => do
    let (bit, s) ← orIncomplete s.next
    let code := code + bit
    if code < first + count then
      match symbols[index + (code - first)]? with
      | some symbol => .ok (symbol, s)
      | none => .error .corrupt
    else readFrom symbols (2 * code) (2 * (first + count)) (index + count) counts s

/-- Reads a symbol. -/
def read (c : PrefixCode) (s : Bits) : Except InflateFault (Nat × Bits) :=
  readFrom c.symbols 0 0 0 c.counts s

end PrefixCode

/-- The shortest length of a copy for a symbol and the bits that add to it. -/
def lengthRange? (symbol : Nat) : Option (Nat × Nat) :=
  if symbol < 8 then some (symbol + 3, 0)
  else if symbol < 28 then
    let extra := symbol / 4 - 1
    some ((4 + symbol % 4) <<< extra + 3, extra)
  else if symbol = 28 then some (258, 0)
  else none

/-- The shortest distance of a copy for a symbol and the bits that add to it. -/
def distanceRange? (symbol : Nat) : Option (Nat × Nat) :=
  if symbol < 4 then some (symbol + 1, 0)
  else if symbol < 30 then
    let extra := symbol / 2 - 1
    some ((2 + symbol % 2) <<< extra + 1, extra)
  else none

/-- What is inflated so far, and the data that follow. -/
structure Inflated where
  out : Array UInt8
  rest : Bits
  deriving Repr

/-- Copies bytes from a distance. -/
def copyBack (distance : Nat) : (n : Nat) → Array UInt8 → Array UInt8
  | 0, out => out
  | n + 1, out =>
    let b := if distance ≤ out.size then out.getD (out.size - distance) 0 else 0
    copyBack distance n (out.push b)

/-- A step that either goes on or ends with a fault; what was inflated is kept in both. -/
inductive Step
  | more (s : Inflated)
  | fault (f : InflateFault) (out : Array UInt8)

/-- Reads a copy behind the symbol of its length. -/
def readCopy (distances : PrefixCode) (symbol : Nat) (s : Inflated) :
    Except InflateFault Inflated := do
  match lengthRange? (symbol - 257) with
  | none => .error .corrupt
  | some (least, extra) =>
    let (n, rest) ← orIncomplete (s.rest.take extra)
    let (symbol, rest) ← distances.read rest
    match distanceRange? symbol with
    | none => .error .corrupt
    | some (nearest, extra) =>
      let (d, rest) ← orIncomplete (rest.take extra)
      .ok ⟨copyBack (nearest + d) (least + n) s.out, rest⟩

/-- Reads the symbols of a block. -/
def readSymbols (literals distances : PrefixCode) (fuel : Nat) (s : Inflated) : Step :=
  match fuel with
  | 0 => .fault .incomplete s.out
  | fuel + 1 =>
    match literals.read s.rest with
    | .error f => .fault f s.out
    | .ok (symbol, rest) =>
      if symbol < 256 then
        readSymbols literals distances fuel ⟨s.out.push symbol.toUInt8, rest⟩
      else if symbol = 256 then .more ⟨s.out, rest⟩
      else
        match readCopy distances symbol ⟨s.out, rest⟩ with
        | .ok s => readSymbols literals distances fuel s
        | .error f => .fault f s.out

/-- Reads a block of bytes as they are: their number, its complement and the bytes. -/
def readStored (s : Inflated) : Step :=
  match s.rest.aligned with
  | a :: b :: c :: d :: data =>
    let n := a.toNat + 256 * b.toNat
    if n + (c.toNat + 256 * d.toNat) = 65535 then
      let out := s.out ++ (data.take n).toArray
      if data.length < n then .fault .incomplete out else .more ⟨out, ⟨data.drop n, 0⟩⟩
    else .fault .corrupt s.out
  | _ => .fault .incomplete s.out

/-- The codes of a block that brings none. -/
def fixedCodes? : Option (PrefixCode × PrefixCode) := do
  let literals ← PrefixCode.ofLengths? (List.replicate 144 8 ++ List.replicate 112 9 ++
    List.replicate 24 7 ++ List.replicate 8 8)
  let distances ← PrefixCode.ofLengths? (List.replicate 32 5)
  some (literals, distances)

/-- The order in which the lengths of the code of lengths stand. -/
def lengthOrder : List Nat := [16, 17, 18, 0, 8, 7, 9, 6, 10, 5, 11, 4, 12, 3, 13, 2, 14, 1, 15]

/-- Reads `n` numbers of three bits. -/
def takeTriples : (n : Nat) → Bits → Option (List Nat × Bits)
  | 0, s => some ([], s)
  | n + 1, s => do
    let (x, s) ← s.take 3
    let (xs, s) ← takeTriples n s
    some (x :: xs, s)

/-- Reads code lengths up to `total` of them; those before are `acc` in reverse. -/
def readLengths (code : PrefixCode) (total fuel : Nat) (acc : List Nat) (s : Bits) :
    Except InflateFault (List Nat × Bits) :=
  match fuel with
  | 0 => .error .corrupt
  | fuel + 1 =>
    if total ≤ acc.length then
      if acc.length = total then .ok (acc.reverse, s) else .error .corrupt
    else do
      let (symbol, s) ← code.read s
      if symbol < 16 then readLengths code total fuel (symbol :: acc) s
      else if symbol = 16 then
        match acc with
        | [] => .error .corrupt
        | last :: _ =>
          let (n, s) ← orIncomplete (s.take 2)
          readLengths code total fuel (List.replicate (n + 3) last ++ acc) s
      else
        let (n, s) ← orIncomplete (if symbol = 17 then s.take 3 else s.take 7)
        let least := if symbol = 17 then 3 else 11
        readLengths code total fuel (List.replicate (n + least) 0 ++ acc) s

/-- Reads the codes that a block brings. -/
def readCodes (s : Bits) : Except InflateFault (PrefixCode × PrefixCode × Bits) := do
  let (literalCount, s) ← orIncomplete (s.take 5)
  let (distanceCount, s) ← orIncomplete (s.take 5)
  let (lengthCount, s) ← orIncomplete (s.take 4)
  let literalCount := literalCount + 257
  let distanceCount := distanceCount + 1
  let (triples, s) ← orIncomplete (takeTriples (lengthCount + 4) s)
  if 286 < literalCount || 30 < distanceCount then .error .corrupt
  else
    let placed := lengthOrder.zip triples
    match PrefixCode.ofLengths? ((List.range 19).map fun i => (placed.lookup i).getD 0) with
    | none => .error .corrupt
    | some code =>
      let total := literalCount + distanceCount
      let (lengths, s) ← readLengths code total (total + 1) [] s
      match PrefixCode.ofLengths? (lengths.take literalCount),
        PrefixCode.ofLengths? (lengths.drop literalCount) with
      | some literals, some distances => .ok (literals, distances, s)
      | _, _ => .error .corrupt

/-- Reads a block; whether it is the last one. -/
def readBlock (s : Inflated) : Bool × Step :=
  match s.rest.take 1 with
  | none => (true, .fault .incomplete s.out)
  | some (final, rest) =>
    let isLast := final == 1
    match rest.take 2 with
    | none => (true, .fault .incomplete s.out)
    | some (0, rest) => (isLast, readStored ⟨s.out, rest⟩)
    | some (1, rest) =>
      match fixedCodes? with
      | some (literals, distances) =>
        (isLast, readSymbols literals distances (8 * rest.bytes.length + 1) ⟨s.out, rest⟩)
      | none => (true, .fault .corrupt s.out)
    | some (2, rest) =>
      match readCodes rest with
      | .ok (literals, distances, rest) =>
        (isLast, readSymbols literals distances (8 * rest.bytes.length + 1) ⟨s.out, rest⟩)
      | .error f => (true, .fault f s.out)
    | some _ => (true, .fault .corrupt s.out)

/-- The size of the window. -/
def windowSize : Nat := 32768

/-- What is left of the bytes inflated when a fault is met. -/
def salvage (f : InflateFault) (out : Array UInt8) : List UInt8 :=
  match f with
  | .incomplete => out.toList
  | .corrupt => out.toList.take ((out.size - 1) / windowSize * windowSize)

/-- What inflating gives: the bytes, and the data behind the last block or the fault met. -/
structure InflateResult where
  bytes : List UInt8
  ending : Except InflateFault (List UInt8)

/-- Reads blocks up to the last one. -/
def inflateFrom (fuel : Nat) (s : Inflated) : InflateResult :=
  match fuel with
  | 0 => ⟨s.out.toList, .error .incomplete⟩
  | fuel + 1 =>
    match readBlock s with
    | (_, .fault f out) => ⟨salvage f out, .error f⟩
    | (true, .more s) => ⟨s.out.toList, .ok s.rest.aligned⟩
    | (false, .more s) => inflateFrom fuel s

/-- Inflates data. -/
def inflate (data : List UInt8) : InflateResult :=
  inflateFrom (8 * data.length + 1) ⟨#[], ⟨data, 0⟩⟩

end Harvest.Gzip
