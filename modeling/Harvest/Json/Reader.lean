import Harvest.Json.Value
import Harvest.Text.Integer

/-!
# Reading JSON

The text is read into a tree, to its end or to the first place where it is no JSON.
An integer of sixty-four bits is kept as it is; any other number becomes a floating
number, made from as many leading digits as sixty-four bits can hold.
-/

namespace Harvest.Json

open Harvest.Document Harvest.Text

/-- The text without the blanks that may stand between two tokens. -/
def skipBlanks (s : List Char) : List Char :=
  s.dropWhile fun c => c = ' ' ∨ c = '\n' ∨ c = '\t' ∨ c = '\r'

/-- The value of a hexadecimal digit. -/
def hexValue? (c : Char) : Option Nat :=
  if '0' ≤ c ∧ c ≤ '9' then some (c.toNat - 48)
  else if 'a' ≤ c ∧ c ≤ 'f' then some (c.toNat - 87)
  else if 'A' ≤ c ∧ c ≤ 'F' then some (c.toNat - 55)
  else none

/-- The value of four hexadecimal digits, and the text after them. -/
def hex4? : List Char → Option (Nat × List Char)
  | a :: b :: c :: d :: s => do
    let a ← hexValue? a
    let b ← hexValue? b
    let c ← hexValue? c
    let d ← hexValue? d
    pure (((a * 16 + b) * 16 + c) * 16 + d, s)
  | _ => none

/-- The character that a short escape stands for. -/
def shortEscape? : Char → Option Char
  | '"' => some '"'
  | '\\' => some '\\'
  | '/' => some '/'
  | 'b' => some '\x08'
  | 'f' => some '\x0c'
  | 'n' => some '\n'
  | 'r' => some '\r'
  | 't' => some '\t'
  | _ => none

/-- The code unit is the first half of a pair. -/
def isHighHalf (n : Nat) : Bool := 0xD800 ≤ n && n ≤ 0xDBFF

/-- The code unit is the second half of a pair. -/
def isLowHalf (n : Nat) : Bool := 0xDC00 ≤ n && n ≤ 0xDFFF

/-- Reads a text behind its opening quote; `acc` holds what was read, in reverse, or nothing
once it held half a character. The fuel is at least the length of the text. -/
def readText (fuel : Nat) (acc : Option (List Char)) (s : List Char) :
    Option (Leaf × List Char) :=
  match fuel, s with
  | 0, _ => none
  | _, [] => none
  | _, '"' :: s =>
    some (match acc with
      | some cs => .text (String.ofList cs.reverse)
      | none => .unusable, s)
  | fuel + 1, '\\' :: 'u' :: s =>
    match hex4? s with
    | none => none
    | some (n, s) =>
      if isHighHalf n then
        match s with
        | '\\' :: 'u' :: t =>
          match hex4? t with
          | none => none
          | some (m, t) =>
            if isLowHalf m then
              readText fuel
                (acc.map (Char.ofNat ((n - 0xD800) * 0x400 + (m - 0xDC00) + 0x10000) :: ·)) t
            else readText fuel none s
        | _ => readText fuel none s
      else if isLowHalf n then readText fuel none s
      else readText fuel (acc.map (Char.ofNat n :: ·)) s
  | fuel + 1, '\\' :: c :: s =>
    match shortEscape? c with
    | some e => readText fuel (acc.map (e :: ·)) s
    | none => none
  | _, ['\\'] => none
  | fuel + 1, c :: s => if c.toNat < 0x20 then none else readText fuel (acc.map (c :: ·)) s

/-- A number in the making: as many leading digits as sixty-four bits hold, and the power of
ten that they are to be multiplied with. -/
structure Scientific where
  significand : Nat
  exponent : Int
  /-- A digit did not fit; the digits after it do not count either. -/
  full : Bool

/-- Adds a digit before the point. -/
def Scientific.pushWhole (n : Scientific) (d : Nat) : Scientific :=
  if n.full || maxNat64 < n.significand * 10 + d then
    { n with exponent := n.exponent + 1, full := true }
  else { n with significand := n.significand * 10 + d }

/-- Adds a digit after the point. -/
def Scientific.pushFraction (n : Scientific) (d : Nat) : Scientific :=
  if n.full || maxNat64 < n.significand * 10 + d then { n with full := true }
  else { n with significand := n.significand * 10 + d, exponent := n.exponent - 1 }

/-- Takes digits, each being added by `push`. -/
def takeNumber (push : Scientific → Nat → Scientific) (n : Scientific) :
    List Char → Scientific × List Char
  | [] => (n, [])
  | c :: s =>
    match digitValue? c with
    | some d => takeNumber push (push n d) s
    | none => (n, c :: s)

/-- The value of the digits a text starts with, and the text after them. -/
def takeExponent (acc : Nat) : List Char → Nat × List Char
  | [] => (acc, [])
  | c :: s =>
    match digitValue? c with
    | some d => takeExponent (acc * 10 + d) s
    | none => (acc, c :: s)

/-- Divides by ten as often as `e` says, in steps of at most three hundred and eight. -/
def divideByPower (fuel : Nat) (x : Float) (e : Nat) : Float :=
  match fuel with
  | 0 => x
  | fuel + 1 =>
    if e ≤ 308 then x / Float.ofScientific 1 false e
    else if x == 0 then x
    else divideByPower fuel (x / Float.ofScientific 1 false 308) (e - 308)

/-- The floating number of a significand and an exponent, unless it is beyond all bounds. -/
def floatOf? (negative : Bool) (significand : Nat) (exponent : Int) : Option Float :=
  let x := significand.toFloat
  let signed (y : Float) : Float := if negative then -y else y
  if 0 ≤ exponent then
    if significand = 0 then some (signed x)
    else if exponent ≤ 308 then
      let y := x * Float.ofScientific 1 false exponent.toNat
      if y.isInf then none else some (signed y)
    else none
  else some (signed (divideByPower ((-exponent).toNat + 1) x (-exponent).toNat))

/-- The leaf of a floating number. -/
def realLeaf (negative : Bool) (significand : Nat) (exponent : Int) : Leaf :=
  match floatOf? negative significand exponent with
  | some x => .real x
  | none => .unusable

/-- Reads an exponent, if there is one. -/
def readExponent (negative : Bool) (n : Scientific) (s : List Char) :
    Option (Leaf × List Char) :=
  let finish (minus : Bool) (s : List Char) : Option (Leaf × List Char) :=
    match s with
    | c :: _ =>
      if (digitValue? c).isSome then
        let (e, s) := takeExponent 0 s
        let exponent := if minus then n.exponent - e else n.exponent + e
        some (realLeaf negative n.significand exponent, s)
      else none
    | [] => none
  match s with
  | '-' :: s => finish true s
  | '+' :: s => finish false s
  | s => finish false s

/-- Reads what follows the whole part of a number. -/
def readFraction (negative : Bool) (n : Scientific) (s : List Char) : Option (Leaf × List Char) :=
  match s with
  | '.' :: s =>
    match s with
    | c :: _ =>
      if (digitValue? c).isSome then
        let (n, s) := takeNumber Scientific.pushFraction n s
        match s with
        | 'e' :: s => readExponent negative n s
        | 'E' :: s => readExponent negative n s
        | s => some (realLeaf negative n.significand n.exponent, s)
      else none
    | [] => none
  | 'e' :: s => readExponent negative n s
  | 'E' :: s => readExponent negative n s
  | s =>
    if n.full then some (realLeaf negative n.significand n.exponent, s)
    else if !negative then some (.integer n.significand, s)
    else if n.significand = 0 || maxInt64 + 1 < n.significand then
      some (.real (-n.significand.toFloat), s)
    else some (.integer (-(n.significand : Int)), s)

/-- Reads a number behind its sign. A zero stands alone before the point. -/
def readNumber (negative : Bool) (s : List Char) : Option (Leaf × List Char) :=
  match s with
  | [] => none
  | '0' :: s =>
    match s with
    | c :: _ =>
      if (digitValue? c).isSome then none else readFraction negative ⟨0, 0, false⟩ s
    | [] => readFraction negative ⟨0, 0, false⟩ []
  | c :: s =>
    if (digitValue? c).isSome then
      let (n, s) := takeNumber Scientific.pushWhole ⟨0, 0, false⟩ (c :: s)
      readFraction negative n s
    else none

/-- Reads a scalar. -/
def readLeaf (s : List Char) : Option (Leaf × List Char) :=
  match s with
  | 'n' :: 'u' :: 'l' :: 'l' :: s => some (.null, s)
  | 't' :: 'r' :: 'u' :: 'e' :: s => some (.bool true, s)
  | 'f' :: 'a' :: 'l' :: 's' :: 'e' :: s => some (.bool false, s)
  | '"' :: s => readText (s.length + 1) (some []) s
  | '-' :: s => readNumber true s
  | s => readNumber false s

/-- A tree that was read, what is left of the text, and whether no fault was met. -/
structure Outcome where
  tree : Value
  rest : List Char
  intact : Bool

/-- The outcome at a fault. -/
def Outcome.fault : Outcome := ⟨.broken, [], false⟩

/-- Reads the name of a member up to its value: the name, and the text after the colon if
there is one. -/
def readName (s : List Char) : Option (Option String × Option (List Char)) :=
  match s with
  | '"' :: s =>
    match readText (s.length + 1) (some []) s with
    | none => none
    | some (leaf, s) =>
      match skipBlanks s with
      | ':' :: s => some (leaf.text?, some s)
      | _ => some (leaf.text?, none)
  | _ => none

mutual

/-- Reads a value. The fuel bounds the number of steps. -/
def readValue (fuel : Nat) (s : List Char) : Outcome :=
  match fuel with
  | 0 => .fault
  | fuel + 1 =>
    match skipBlanks s with
    | '[' :: s =>
      match skipBlanks s with
      | ']' :: s => ⟨.list [] true, s, true⟩
      | s => readItems fuel [] s
    | '\x7b' :: s =>
      match skipBlanks s with
      | '\x7d' :: s => ⟨.map [] true, s, true⟩
      | s => readMembers fuel [] s
    | s =>
      match readLeaf s with
      | some (leaf, s) => ⟨.leaf leaf, s, true⟩
      | none => .fault

/-- Reads the items of a list, those before being `acc` in reverse. -/
def readItems (fuel : Nat) (acc : List Value) (s : List Char) : Outcome :=
  match fuel with
  | 0 => .fault
  | fuel + 1 =>
    let item := readValue fuel s
    let items := item.tree :: acc
    if !item.intact then ⟨.list items.reverse false, [], false⟩
    else
      match skipBlanks item.rest with
      | ']' :: s => ⟨.list items.reverse true, s, true⟩
      | ',' :: s =>
        match skipBlanks s with
        | ']' :: _ => ⟨.list items.reverse false, [], false⟩
        | s => readItems fuel items s
      | _ => ⟨.list items.reverse false, [], false⟩

/-- Reads the members of a map, those before being `acc` in reverse. -/
def readMembers (fuel : Nat) (acc : List (Option String × Value)) (s : List Char) : Outcome :=
  match fuel with
  | 0 => .fault
  | fuel + 1 =>
    match readName s with
    | none => ⟨.map acc.reverse false, [], false⟩
    | some (name, none) => ⟨.map ((name, .broken) :: acc).reverse false, [], false⟩
    | some (name, some s) =>
      let value := readValue fuel s
      let members := (name, value.tree) :: acc
      if !value.intact then ⟨.map members.reverse false, [], false⟩
      else
        match skipBlanks value.rest with
        | '\x7d' :: s => ⟨.map members.reverse true, s, true⟩
        | ',' :: s =>
          match skipBlanks s with
          | '\x7d' :: _ => ⟨.map members.reverse false, [], false⟩
          | s => readMembers fuel members s
        | _ => ⟨.map members.reverse false, [], false⟩

end

/-- Reads a whole text into a value of the wanted kind; nothing but blanks may follow it. -/
def decodeText {α : Type} (decode : Decoder Leaf α) (s : String) : Except Fault α := do
  let chars := s.toList
  let outcome := readValue (2 * chars.length + 2) chars
  let x ← decode outcome.tree
  if (skipBlanks outcome.rest).isEmpty then pure x else .error .malformed

end Harvest.Json
