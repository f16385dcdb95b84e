import Harvest.Document.Node
import Harvest.Text.Integer

/-!
# Reading records from documents

A `Notation` tells what the leaves of a kind of document stand for, a `Schema` which
fields a record has. A record is read from a map, in which every field may occur once
and other members are passed over, or from a list of its fields in order. Members are
examined in the order of the text, so that the first fault is the one that is told;
fields that are missing are told once the map has come to its end.
-/

namespace Harvest.Document

open Harvest.Text

/-- Why a document cannot be read as what it should be. -/
inductive Fault
  /-- The text does not follow its notation. -/
  | malformed
  /-- A value of another kind, or out of its range. -/
  | mistyped
  | missingField (name : String)
  | unknownVariant (value : String)
  | duplicateField (name : String)
  deriving DecidableEq, Repr

/-- The text of a fault. -/
def Fault.message : Fault → String
  | .malformed => "malformed document"
  | .mistyped => "value of an unexpected kind"
  | .missingField name => "missing field `" ++ name ++ "`"
  | .unknownVariant value => "unknown variant `" ++ value ++ "`"
  | .duplicateField name => "duplicate field `" ++ name ++ "`"

/-- What the leaves of a document stand for. -/
structure LeafReading (Leaf : Type) where
  text? : Leaf → Option String
  signed? : Leaf → Option Int
  unsigned? : Leaf → Option Nat
  boolean? : Leaf → Option Bool
  real? : Leaf → Option Float
  /-- Whether the leaf stands for an absent value. -/
  absent? : Leaf → Except Fault Bool
  /-- The leaf stands for an empty list and an empty map. -/
  isVoid : Leaf → Bool
  /-- The name of a variant, and whether the rest of the tree goes with it. -/
  variant : Node Leaf → Except Fault (String × Except Fault Unit)

section Decoders

variable {Leaf : Type} (rd : LeafReading Leaf)

/-- Reads a value from a tree. -/
abbrev Decoder (Leaf α : Type) := Node Leaf → Except Fault α

/-- Reads a value that a leaf stands for. -/
def scalar {α : Type} (read : Leaf → Option α) : Decoder Leaf α
  | .leaf value =>
    match read value with
    | some x => .ok x
    | none => .error .mistyped
  | .broken => .error .malformed
  | _ => .error .mistyped

/-- Reads a text. -/
def string : Decoder Leaf String := scalar rd.text?

/-- Reads a truth value. -/
def boolean : Decoder Leaf Bool := scalar rd.boolean?

/-- Reads a floating number. -/
def real : Decoder Leaf Float := scalar rd.real?

/-- Reads an integer of 64 bits. -/
def integer : Decoder Leaf Int :=
  scalar fun value => (rd.signed? value).filter fun n =>
    -(maxInt64 : Int) - 1 ≤ n && n ≤ maxInt64

/-- Reads a number without sign, of the given number of bits. -/
def natural (bits : Nat) : Decoder Leaf Nat :=
  scalar fun value => (rd.unsigned? value).filter (· < 1 <<< bits)

/-- Reads a value that may be absent. -/
def optional {α : Type} (decode : Decoder Leaf α) : Decoder Leaf (Option α)
  | .leaf value => do
    if ← rd.absent? value then pure none else (decode (.leaf value)).map some
  | t => (decode t).map some

/-- Reads values one after the other. -/
def each {α : Type} (decode : Decoder Leaf α) : List (Node Leaf) → Except Fault (List α)
  | [] => .ok []
  | t :: rest => do
    let x ← decode t
    let xs ← each decode rest
    pure (x :: xs)

/-- Reads a list of values. -/
def list {α : Type} (decode : Decoder Leaf α) : Decoder Leaf (List α)
  | .list items complete => do
    let xs ← each decode items
    if complete then pure xs else .error .malformed
  | .leaf value => if rd.isVoid value then .ok [] else .error .mistyped
  | .broken => .error .malformed
  | .map _ _ => .error .mistyped

/-- Reads one of several named variants. -/
def variant {α : Type} (names : List (String × α)) : Decoder Leaf α := fun t => do
  let (name, rest) ← rd.variant t
  match names.lookup name with
  | none => .error (.unknownVariant name)
  | some x => do
    rest
    pure x

end Decoders

/-- A field of a record: its name and the check that its value passes. -/
structure FieldCheck (Leaf : Type) where
  name : String
  check : Node Leaf → Except Fault Unit

/-- The fields of a record in order, and how the record is built from them. -/
structure Schema (Leaf α : Type) where
  checks : List (FieldCheck Leaf)
  /-- Builds the record from the members of a map. -/
  ofMembers : (String → Option (Node Leaf)) → Except Fault α
  /-- Builds the record from the front of a list; answers the rest of the list. -/
  ofItems : List (Node Leaf) → Except Fault (α × List (Node Leaf))

namespace Schema

variable {Leaf α β : Type}

/-- A record without fields. -/
def pure (x : α) : Schema Leaf α := ⟨[], fun _ => .ok x, fun items => .ok (x, items)⟩

/-- Adds the fields of `a` behind those of `f`. -/
def seq (f : Schema Leaf (α → β)) (a : Schema Leaf α) : Schema Leaf β where
  checks := f.checks ++ a.checks
  ofMembers members := do
    let g ← f.ofMembers members
    let x ← a.ofMembers members
    .ok (g x)
  ofItems items := do
    let (g, items) ← f.ofItems items
    let (x, items) ← a.ofItems items
    .ok (g x, items)

/-- A field; `absent` stands for it where a map lacks it, `short` where a list ends. -/
def field (name : String) (decode : Decoder Leaf α) (absent short : Except Fault α) :
    Schema Leaf α where
  checks := [⟨name, fun t => (decode t).map fun _ => ()⟩]
  ofMembers members :=
    match members name with
    | some t => decode t
    | none => absent
  ofItems items :=
    match items with
    | [] => short.map (·, [])
    | t :: rest => (decode t).map (·, rest)

/-- A field that has to be there. -/
def required (name : String) (decode : Decoder Leaf α) : Schema Leaf α :=
  field name decode (.error (.missingField name)) (.error .mistyped)

/-- A field that may be missing from a map, or be null. -/
def maybe (rd : LeafReading Leaf) (name : String) (decode : Decoder Leaf α) :
    Schema Leaf (Option α) :=
  field name (optional rd decode) (.ok none) (.error .mistyped)

/-- A field with a usual value. -/
def withDefault (name : String) (decode : Decoder Leaf α) (usual : α) : Schema Leaf α :=
  field name decode (.ok usual) (.ok usual)

/-- Examines the members of a map in order, the fields named in `seen` having occurred. -/
def examine (checks : List (FieldCheck Leaf)) (seen : List String) :
    List (Option String × Node Leaf) → Except Fault Unit
  | [] => .ok ()
  | (none, _) :: _ => .error .mistyped
  | (some name, t) :: rest =>
    match checks.find? (·.name == name) with
    | none => if t.isWhole then examine checks seen rest else .error .malformed
    | some c =>
      if seen.contains name then .error (.duplicateField name)
      else do
        c.check t
        examine checks (name :: seen) rest

/-- The member of a name. -/
def member? (members : List (Option String × Node Leaf)) (name : String) :
    Option (Node Leaf) :=
  members.lookup (some name)

/-- Reads a record. -/
def decode (rd : LeafReading Leaf) (s : Schema Leaf α) : Decoder Leaf α
  | .map members complete => do
    examine s.checks [] members
    if complete then s.ofMembers (member? members) else .error .malformed
  | .list items complete => do
    let (x, rest) ← s.ofItems items
    if rest.isEmpty then if complete then .ok x else .error .malformed
    else .error .mistyped
  | .leaf value => if rd.isVoid value then s.ofMembers fun _ => none else .error .mistyped
  | .broken => .error .malformed

end Schema

/-- `schema |>.and field` reads on with one more field. -/
def Schema.and {Leaf α β : Type} (f : Schema Leaf (α → β)) (a : Schema Leaf α) :
    Schema Leaf β := f.seq a

end Harvest.Document
