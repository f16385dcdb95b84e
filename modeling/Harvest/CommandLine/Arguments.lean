import Harvest.Configuration.Basic
import Harvest.Text.Integer

/-!
# Reading the command line

An argument that starts with two dashes names an option, one with a single dash holds
short options, and any other is the value of the option before it. A value may also be
attached, to a long name behind an equals sign and to a short one at once. An option
that waits for its value is settled when the next option is read or the line ends, and
only then is its value examined. So where an argument cannot be read at all, that is
told rather than a fault of the option before it.
-/

namespace Harvest.CommandLine

/-- Why the arguments are not taken. Help and the version are asked for in the same way. -/
inductive Refusal
  | unknownArgument
  /-- A switch with a value. -/
  | unneededValue
  /-- An option that is given twice. -/
  | repeated
  /-- A value of the wrong form. -/
  | badValue
  /-- An option without its value. -/
  | valueMissing
  | configMissing
  | help
  | version
  deriving DecidableEq, Repr

/-- The options. -/
inductive Flag
  | config
  | sourceRoot
  | output
  | entity
  | enableChunking
  | chunkSize
  | skipCountCheck
  | parallel
  | help
  | version
  deriving DecidableEq, Repr

namespace Flag

/-- The option of a long name. -/
def ofName? : String → Option Flag
  | "config" => some .config
  | "source-root" => some .sourceRoot
  | "output" => some .output
  | "entity" => some .entity
  | "enable-chunking" => some .enableChunking
  | "chunk-size" => some .chunkSize
  | "skip-count-check" => some .skipCountCheck
  | "parallel" => some .parallel
  | "help" => some .help
  | "version" => some .version
  | _ => none

/-- The option of a letter. -/
def ofLetter? : Char → Option Flag
  | 'c' => some .config
  | 'o' => some .output
  | 'h' => some .help
  | 'V' => some .version
  | _ => none

/-- The option needs a value. -/
def takesValue : Flag → Bool
  | .enableChunking | .skipCountCheck | .help | .version => false
  | _ => true

end Flag

/-- What was given so far. -/
structure Given where
  config : Option String := none
  sourceRoot : Option String := none
  output : Option String := none
  entities : List String := []
  enableChunking : Bool := false
  chunkSize : Option Int := none
  skipCountCheck : Bool := false
  parallel : Option Nat := none
  /-- An option that is not settled, and its value. -/
  pending : Option (Flag × Option String) := none
  deriving Repr

namespace Given

/-- Takes a value that may be given once. -/
def once {α : Type} (present : Bool) (read : Except Refusal α) : Except Refusal α :=
  if present then .error .repeated else read

/-- Reads a signed number. -/
def signed (text : String) : Except Refusal Int :=
  (Text.readInt64 text.toList).mapError fun _ => .badValue

/-- Reads a number without sign. -/
def unsigned (text : String) : Except Refusal Nat :=
  (Text.readNat Text.maxNat64 text.toList).mapError fun _ => .badValue

/-- Gives an option its value. -/
def assign (g : Given) (o : Flag) (text : String) : Except Refusal Given :=
  match o with
  | .config => once g.config.isSome (.ok { g with config := some text })
  | .sourceRoot => once g.sourceRoot.isSome (.ok { g with sourceRoot := some text })
  | .output => once g.output.isSome (.ok { g with output := some text })
  | .entity => .ok { g with entities := g.entities ++ [text] }
  | .chunkSize => once g.chunkSize.isSome do
    let n ← signed text
    pure { g with chunkSize := some n }
  | .parallel => once g.parallel.isSome do
    let n ← unsigned text
    pure { g with parallel := some n }
  | .enableChunking | .skipCountCheck | .help | .version => .error .unneededValue

/-- Turns a switch on. -/
def switch (g : Given) (o : Flag) : Except Refusal Given :=
  match o with
  | .enableChunking => once g.enableChunking (.ok { g with enableChunking := true })
  | .skipCountCheck => once g.skipCountCheck (.ok { g with skipCountCheck := true })
  | .help => .error .help
  | .version => .error .version
  | _ => .error .valueMissing

/-- Examines the option that waits. -/
def settle (g : Given) : Except Refusal Given :=
  match g.pending with
  | none => .ok g
  | some (_, none) => .error .valueMissing
  | some (o, some text) => { g with pending := none }.assign o text

/-- Reads a long option behind its dashes. -/
def readLong (g : Given) (text : List Char) : Except Refusal Given :=
  let name := text.takeWhile (· != '=')
  let value := match text.dropWhile (· != '=') with
    | [] => none
    | _ :: value => some (String.ofList value)
  match Flag.ofName? (String.ofList name) with
  | none => .error .unknownArgument
  | some o =>
    if !o.takesValue && value.isSome then .error .unneededValue
    else do
      let g ← g.settle
      if o.takesValue then
        match value with
        | some value => g.assign o value
        | none => .ok { g with pending := some (o, none) }
      else g.switch o

/-- Reads short options behind their dash. -/
def readShort (g : Given) : List Char → Except Refusal Given
  | [] => .ok g
  | c :: rest =>
    match Flag.ofLetter? c with
    | none => .error .unknownArgument
    | some o => do
      let g ← g.settle
      if o.takesValue then
        match rest with
        | [] => .ok { g with pending := some (o, none) }
        | '=' :: value => g.assign o (String.ofList value)
        | value => g.assign o (String.ofList value)
      else
        let g ← g.switch o
        g.readShort rest

/-- Reads an argument that is no option. -/
def readValue (g : Given) (text : String) : Except Refusal Given :=
  match g.pending with
  | some (o, none) => .ok { g with pending := some (o, some text) }
  | _ => .error .unknownArgument

/-- Reads the arguments one after the other. Behind two dashes alone no option can stand. -/
def readAll (g : Given) : List String → Except Refusal Given
  | [] => g.settle
  | text :: rest =>
    match text.toList with
    | ['-', '-'] => if rest.isEmpty then g.settle else .error .unknownArgument
    | '-' :: '-' :: long => do
      let g ← g.readLong long
      g.readAll rest
    | '-' :: c :: short => do
      let g ← g.readShort (c :: short)
      g.readAll rest
    | _ => do
      let g ← g.readValue text
      g.readAll rest

end Given

/-- Reads the arguments behind the name of the program. -/
def readArguments (texts : List String) : Except Refusal Arguments := do
  let g ← ({} : Given).readAll texts
  match g.config with
  | none => .error .configMissing
  | some config =>
    pure ⟨config, g.sourceRoot, g.output, g.entities, g.enableChunking, g.chunkSize,
      g.skipCountCheck, g.parallel⟩

end Harvest.CommandLine
