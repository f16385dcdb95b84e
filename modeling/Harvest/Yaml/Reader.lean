import Harvest.Document.Schema
import Harvest.Yaml.Lexer

/-!
# Reading YAML

The tokens of a text are read into a tree. A node that is left out is an empty plain
scalar, an alias stands for the tree of its anchor. What a scalar stands for is decided
only where a value of some kind is wanted: numbers, truth values and null are written
plain, and any scalar is a text.
-/

namespace Harvest.Yaml

open Harvest.Document

/-- A scalar, with its tag. -/
structure Leaf where
  text : String
  style : Style
  tag : Option String
  deriving DecidableEq, Repr

/-- A tree read from a text. -/
abbrev Value := Node Leaf

/-- A node that is left out. -/
def Leaf.absent : Leaf := ⟨"", .plain, none⟩

/-- The tree of a node that is left out. -/
def Value.absent : Value := .leaf .absent

/-- Trees by their anchors, the latest first. -/
abbrev Anchors := List (String × Value)

/-- A tree, the tokens behind it, the anchors so far, and whether the text follows the
notation up to there. -/
structure Outcome where
  tree : Value
  rest : List Token
  anchors : Anchors
  intact : Bool

/-- Nothing is read because of a fault. -/
def Outcome.fault : Outcome := ⟨.broken, [], [], false⟩

/-- The anchor and the tag before a node, and the tokens behind them. -/
def readProperties : List Token → Option String × Option (String × String) × List Token
  | .anchor a :: .tag h t :: s => (some a, some (h, t), s)
  | .tag h t :: .anchor a :: s => (some a, some (h, t), s)
  | .anchor a :: s => (some a, none, s)
  | .tag h t :: s => (none, some (h, t), s)
  | s => (none, none, s)

/-- What handles of tags stand for. -/
abbrev Handles := List (String × String)

/-- The handles known without a directive. -/
def Handles.usual : Handles := [("!", "!"), ("!!", "tag:yaml.org,2002:")]

/-- The whole tag, if its handle is known. -/
def Handles.resolve (handles : Handles) (h text : String) : Option String :=
  if h.isEmpty then some text else (handles.lookup h).map (· ++ text)

/-- Gives a tree its anchor. -/
def Outcome.anchored (anchor : Option String) (o : Outcome) : Outcome :=
  match anchor with
  | some a => { o with anchors := (a, o.tree) :: o.anchors }
  | none => o

/-- The text of a key that is a scalar. -/
def nameOf : Value → Option String
  | .leaf v => some v.text
  | _ => none

/-- The value of a key is left out before this token. -/
def endsBlockValue : Token → Bool
  | .key | .value | .blockEnd => true
  | _ => false

/-- The item of a list without indentation of its own is left out before this token. -/
def endsIndentlessItem : Token → Bool
  | .blockEntry | .key | .value | .blockEnd => true
  | _ => false

mutual

/-- Reads a node. Block collections are read where `block` holds, and lists whose dashes are
not indented where `indentless` holds. The fuel bounds the number of steps. -/
def readNode (handles : Handles) (block indentless : Bool) (fuel : Nat) (anchors : Anchors)
    (s : List Token) : Outcome :=
  match fuel with
  | 0 => .fault
  | fuel + 1 =>
    match s with
    | .alias a :: rest =>
      match anchors.lookup a with
      | some t => ⟨t, rest, anchors, true⟩
      | none => .fault
    | s =>
      let (anchor, tagged, rest) := readProperties s
      let tag? : Option (Option String) := match tagged with
        | none => some none
        | some (h, text) => (handles.resolve h text).map some
      match tag?, rest with
      | none, _ => .fault
      | some tag, .scalar text style :: rest =>
        (Outcome.mk (.leaf ⟨text, style, tag⟩) rest anchors true).anchored anchor
      | some _, .flowSequenceStart :: rest =>
        (readFlowItems handles true fuel anchors [] rest).anchored anchor
      | some _, .flowMappingStart :: rest =>
        (readFlowMembers handles true fuel anchors [] rest).anchored anchor
      | some tag, t :: rest' =>
        if indentless && t == .blockEntry then
          (readIndentless handles fuel anchors [] rest).anchored anchor
        else if block && t == .blockSequenceStart then
          (readBlockItems handles fuel anchors [] rest').anchored anchor
        else if block && t == .blockMappingStart then
          (readBlockMembers handles fuel anchors [] rest').anchored anchor
        else if anchor.isSome || tagged.isSome then
          (Outcome.mk (.leaf { Leaf.absent with tag }) rest anchors true).anchored anchor
        else .fault
      | some _, [] => .fault

/-- Reads the items of an indented list, those before being `acc` in reverse. -/
def readBlockItems (handles : Handles) (fuel : Nat) (anchors : Anchors) (acc : List Value)
    (s : List Token) : Outcome :=
  match fuel with
  | 0 => .fault
  | fuel + 1 =>
    match s with
    | .blockEnd :: rest => ⟨.list acc.reverse true, rest, anchors, true⟩
    | .blockEntry :: t :: rest =>
      if t == .blockEntry || t == .blockEnd then
        readBlockItems handles fuel anchors (.absent :: acc) (t :: rest)
      else
        let item := readNode handles true false fuel anchors (t :: rest)
        if item.intact then readBlockItems handles fuel item.anchors (item.tree :: acc) item.rest
        else ⟨.list (item.tree :: acc).reverse false, [], [], false⟩
    | _ => ⟨.list acc.reverse false, [], [], false⟩

/-- Reads the items of a list that is not indented. -/
def readIndentless (handles : Handles) (fuel : Nat) (anchors : Anchors) (acc : List Value)
    (s : List Token) : Outcome :=
  match fuel with
  | 0 => .fault
  | fuel + 1 =>
    match s with
    | .blockEntry :: t :: rest =>
      if endsIndentlessItem t then readIndentless handles fuel anchors (.absent :: acc) (t :: rest)
      else
        let item := readNode handles true false fuel anchors (t :: rest)
        if item.intact then readIndentless handles fuel item.anchors (item.tree :: acc) item.rest
        else ⟨.list (item.tree :: acc).reverse false, [], [], false⟩
    | .blockEntry :: [] | [] => ⟨.list acc.reverse false, [], [], false⟩
    | s => ⟨.list acc.reverse true, s, anchors, true⟩

/-- Reads the members of an indented map, those before being `acc` in reverse. -/
def readBlockMembers (handles : Handles) (fuel : Nat) (anchors : Anchors)
    (acc : List (Option String × Value)) (s : List Token) : Outcome :=
  match fuel with
  | 0 => .fault
  | fuel + 1 =>
    match s with
    | .blockEnd :: rest => ⟨.map acc.reverse true, rest, anchors, true⟩
    | .key :: t :: rest =>
      let name :=
        if endsBlockValue t then ⟨.absent, t :: rest, anchors, true⟩
        else readNode handles true true fuel anchors (t :: rest)
      if !name.intact then ⟨.map acc.reverse false, [], [], false⟩
      else
        let value := readBlockValue handles fuel name.anchors name.rest
        let members := (nameOf name.tree, value.tree) :: acc
        if value.intact then readBlockMembers handles fuel value.anchors members value.rest
        else ⟨.map members.reverse false, [], [], false⟩
    | _ => ⟨.map acc.reverse false, [], [], false⟩

/-- Reads what stands behind a key. -/
def readBlockValue (handles : Handles) (fuel : Nat) (anchors : Anchors) (s : List Token) :
    Outcome :=
  match fuel with
  | 0 => .fault
  | fuel + 1 =>
    match s with
    | .value :: t :: rest =>
      if endsBlockValue t then ⟨.absent, t :: rest, anchors, true⟩
      else readNode handles true true fuel anchors (t :: rest)
    | .value :: [] | [] => .fault
    | s => ⟨.absent, s, anchors, true⟩

/-- Reads the items of a list in brackets; `isFirst` tells that no comma is due. An item may be
a single member, which is a map. -/
def readFlowItems (handles : Handles) (isFirst : Bool) (fuel : Nat) (anchors : Anchors)
    (acc : List Value) (s : List Token) : Outcome :=
  match fuel with
  | 0 => .fault
  | fuel + 1 =>
    let behindComma? : Option (List Token) := match isFirst, s with
      | true, s => some s
      | false, .flowEntry :: s => some s
      | false, _ => none
    match s, behindComma? with
    | .flowSequenceEnd :: rest, _ => ⟨.list acc.reverse true, rest, anchors, true⟩
    | _, some (.flowSequenceEnd :: rest) => ⟨.list acc.reverse true, rest, anchors, true⟩
    | _, some (.key :: rest) =>
      let item := readSingle handles fuel anchors rest
      if item.intact then readFlowItems handles false fuel item.anchors (item.tree :: acc) item.rest
      else ⟨.list (item.tree :: acc).reverse false, [], [], false⟩
    | _, some (t :: rest) =>
      let item := readNode handles false false fuel anchors (t :: rest)
      if item.intact then readFlowItems handles false fuel item.anchors (item.tree :: acc) item.rest
      else ⟨.list (item.tree :: acc).reverse false, [], [], false⟩
    | _, _ => ⟨.list acc.reverse false, [], [], false⟩

/-- Reads a single member within a list, behind the mark of its key. Where the key is left out
the token behind it is passed over. -/
def readSingle (handles : Handles) (fuel : Nat) (anchors : Anchors) (s : List Token) : Outcome :=
  match fuel with
  | 0 => .fault
  | fuel + 1 =>
    match s with
    | [] => ⟨.map [] false, [], [], false⟩
    | t :: rest =>
      let name :=
        if t == .value || t == .flowEntry || t == .flowSequenceEnd then
          ⟨.absent, rest, anchors, true⟩
        else readNode handles false false fuel anchors (t :: rest)
      if !name.intact then ⟨.map [] false, [], [], false⟩
      else
        let value : Outcome := match name.rest with
          | .value :: t :: rest =>
            if t == .flowEntry || t == .flowSequenceEnd then
              ⟨.absent, t :: rest, name.anchors, true⟩
            else readNode handles false false fuel name.anchors (t :: rest)
          | .value :: [] | [] => .fault
          | s => ⟨.absent, s, name.anchors, true⟩
        ⟨.map [(nameOf name.tree, value.tree)] value.intact, value.rest, value.anchors,
          value.intact⟩

/-- Reads the members of a map in braces; `isFirst` tells that no comma is due. -/
def readFlowMembers (handles : Handles) (isFirst : Bool) (fuel : Nat) (anchors : Anchors)
    (acc : List (Option String × Value)) (s : List Token) : Outcome :=
  match fuel with
  | 0 => .fault
  | fuel + 1 =>
    let behindComma? : Option (List Token) := match isFirst, s with
      | true, s => some s
      | false, .flowEntry :: s => some s
      | false, _ => none
    match s, behindComma? with
    | .flowMappingEnd :: rest, _ => ⟨.map acc.reverse true, rest, anchors, true⟩
    | _, some (.flowMappingEnd :: rest) => ⟨.map acc.reverse true, rest, anchors, true⟩
    | _, some (.key :: t :: rest) =>
      let name :=
        if t == .value || t == .flowEntry || t == .flowMappingEnd then
          ⟨.absent, t :: rest, anchors, true⟩
        else readNode handles false false fuel anchors (t :: rest)
      if !name.intact then ⟨.map acc.reverse false, [], [], false⟩
      else
        let value : Outcome := match name.rest with
          | .value :: t :: rest =>
            if t == .flowEntry || t == .flowMappingEnd then
              ⟨.absent, t :: rest, name.anchors, true⟩
            else readNode handles false false fuel name.anchors (t :: rest)
          | .value :: [] | [] => .fault
          | s => ⟨.absent, s, name.anchors, true⟩
        let members := (nameOf name.tree, value.tree) :: acc
        if value.intact then
          readFlowMembers handles false fuel value.anchors members value.rest
        else ⟨.map members.reverse false, [], [], false⟩
    | _, some (.key :: []) => ⟨.map acc.reverse false, [], [], false⟩
    | _, some (t :: rest) =>
      let name := readNode handles false false fuel anchors (t :: rest)
      if !name.intact then ⟨.map acc.reverse false, [], [], false⟩
      else
        let members := (nameOf name.tree, .absent) :: acc
        if name.rest.isEmpty then ⟨.map members.reverse false, [], [], false⟩
        else readFlowMembers handles false fuel name.anchors members name.rest
    | _, _ => ⟨.map acc.reverse false, [], [], false⟩

end

/-- Reads the directives before a document, a version and a handle at most once each. -/
def readDirectives (versioned : Bool) (handles : Handles) :
    List Token → Option (Handles × List Token)
  | .version major minor :: s =>
    if versioned || major != 1 || !(minor == 1 || minor == 2) then none
    else readDirectives true handles s
  | .handle name start :: s =>
    if (handles.lookup name).isSome then none
    else readDirectives versioned ((name, start) :: handles) s
  | s => some (handles, s)

/-- The node of a document is left out before this token. -/
def endsDocument : Token → Bool
  | .version _ _ | .handle _ _ | .documentStart | .documentEnd | .streamEnd => true
  | _ => false

/-- Reads the node of a document. -/
def readRoot (handles : Handles) : List Token → Outcome
  | [] => .fault
  | t :: s =>
    if endsDocument t then ⟨.absent, t :: s, [], true⟩
    else readNode (handles ++ Handles.usual) true false (2 * s.length + 4) [] (t :: s)

/-- Reads the first document; a text without any is one that is left out. -/
def readDocument (s : List Token) : Outcome :=
  match s with
  | [] => .fault
  | .streamEnd :: _ => ⟨.absent, s, [], true⟩
  | .version _ _ :: _ | .handle _ _ :: _ | .documentStart :: _ =>
    match readDirectives false [] s with
    | some (handles, .documentStart :: s) => readRoot handles s
    | _ => .fault
  | s => readRoot [] s

/-- Nothing but marks of the end stands behind a document. -/
def endsThere : List Token → Bool
  | .documentEnd :: s => endsThere s
  | .streamEnd :: _ => true
  | _ => false

/-- Reads a whole text, which has to hold a single document, into a value of the wanted kind. -/
def decodeText {α : Type} (decode : Decoder Leaf α) (text : String) : Except Fault α := do
  let outcome := readDocument (tokens text)
  let x ← decode outcome.tree
  if outcome.intact && endsThere outcome.rest then pure x else .error .malformed

end Harvest.Yaml
