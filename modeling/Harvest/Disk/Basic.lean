import Harvest.Error
import Harvest.Program
import Harvest.Stream.Feed

/-!
# The disk

The requests that are made to a disk. A file that can be opened is read as a page: its
bytes as far as they can be read, and the fault that ends them.
-/

namespace Harvest

namespace Disk

/-- The requests to a disk, each for a path. -/
inductive Request
  | read (path : String)
  /-- Puts bytes into a new file, or into an old one in place of its content. -/
  | write (path : String) (bytes : List UInt8)
  /-- Adds bytes at the end of a file. -/
  | append (path : String) (bytes : List UInt8)
  /-- Makes a directory, and those it lies in. -/
  | makeDirectories (path : String)
  /-- The names in a directory. -/
  | list (path : String)
  | isDirectory (path : String)
  | isFile (path : String)
  /-- The number of bytes of a file. -/
  | size (path : String)
  deriving Repr

/-- The reply to each request. -/
def Request.Reply : Request → Type
  | .read _ => Except StorageFault Page
  | .write _ _ => Except StorageFault Unit
  | .append _ _ => Except StorageFault Unit
  | .makeDirectories _ => Except StorageFault Unit
  | .list _ => Except StorageFault (List String)
  | .isDirectory _ => Bool
  | .isFile _ => Bool
  | .size _ => Except StorageFault Nat

/-- A disk as a service. -/
abbrev service : Service := ⟨Request, Request.Reply⟩

end Disk

open Program

/-- Programs over a disk that may end with an error. -/
abbrev Storing := ExceptT ExtractError (Program Disk.service)

namespace Storing

/-- A request that may meet a fault. -/
def ofReply {α : Type} (p : Program Disk.service (Except StorageFault α)) : Storing α :=
  p.bind fun r => .done (r.mapError ExtractError.storage)

/-- A request that cannot fail. -/
def ofTotal {α : Type} (p : Program Disk.service α) : Storing α := ExceptT.lift p

/-- Opens a file. -/
def read (path : String) : Storing Page := ofReply (request (S := Disk.service) (.read path))

/-- Puts bytes into a file in place of its content. -/
def write (path : String) (bytes : List UInt8) : Storing Unit :=
  ofReply (request (S := Disk.service) (.write path bytes))

/-- Adds bytes at the end of a file. -/
def append (path : String) (bytes : List UInt8) : Storing Unit :=
  ofReply (request (S := Disk.service) (.append path bytes))

/-- Makes a directory, and those it lies in. -/
def makeDirectories (path : String) : Storing Unit :=
  ofReply (request (S := Disk.service) (.makeDirectories path))

/-- The names in a directory. -/
def list (path : String) : Storing (List String) :=
  ofReply (request (S := Disk.service) (.list path))

/-- The path leads to a directory. -/
def isDirectory (path : String) : Storing Bool :=
  ofTotal (request (S := Disk.service) (.isDirectory path))

/-- The path leads to a file. -/
def isFile (path : String) : Storing Bool :=
  ofTotal (request (S := Disk.service) (.isFile path))

/-- The number of bytes of a file. -/
def size (path : String) : Storing Nat := ofReply (request (S := Disk.service) (.size path))

/-- The text of a file that has to be UTF-8. -/
def readText (path : String) : Storing String := do
  let page ← read path
  match page.broken, Utf8.decodeString page.bytes with
  | some fault, _ => throw (.storage ⟨fault⟩)
  | none, .ok text => pure text
  | none, .error _ => throw (.storage ⟨"stream did not contain valid UTF-8"⟩)

end Storing

end Harvest
