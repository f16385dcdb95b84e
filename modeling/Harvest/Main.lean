import Harvest.CommandLine.Program
import Std.Time.Format

/-!
# The executable

The program runs against the real machine: its disk, its clock, and its two outputs.
-/

namespace Harvest.Machine

/-- What an action gives, a fault being kept by its text. -/
def attempt {α : Type} (act : IO α) : IO (Except StorageFault α) := do
  try
    let x ← act
    pure (.ok x)
  catch e => pure (.error ⟨toString e⟩)

/-- The action holds; a fault counts as no. -/
def holds (act : IO Bool) : IO Bool := do
  try act catch _ => pure false

/-- Answers a request to the disk. -/
def answerDisk : (r : Disk.Request) → IO r.Reply
  | .read path => attempt do
    let bytes ← IO.FS.readBinFile path
    pure ⟨bytes.toList, none⟩
  | .write path bytes => attempt (IO.FS.writeBinFile path ⟨bytes.toArray⟩)
  | .append path bytes => attempt do
    let handle ← IO.FS.Handle.mk path .append
    handle.write ⟨bytes.toArray⟩
  | .makeDirectories path => attempt do
    if !path.isEmpty then IO.FS.createDirAll path
  | .list path => attempt do
    let directory ← IO.FS.realPath path
    let entries ← directory.readDir
    pure (entries.toList.map fun entry => entry.fileName)
  | .isDirectory path => holds do
    let place ← IO.FS.realPath path
    place.isDir
  | .isFile path => holds do
    let place ← IO.FS.realPath path
    let data ← place.metadata
    pure (data.type == .file)
  | .size path => attempt do
    let place ← IO.FS.realPath path
    let data ← place.metadata
    pure data.byteSize.toNat

/-- The local date and time of day. -/
def localMoment : IO DateTime := do
  let t ← Std.Time.PlainDateTime.now
  pure ⟨t.year, t.month.val.toNat, t.day.val.toNat, t.hour.val.toNat, t.minute.val.toNat,
    t.second.val.toNat⟩

/-- Answers a request to the machine. -/
def answer : (r : Request) → IO r.Reply
  | .disk r => answerDisk r
  | .sleep seconds => IO.sleep (seconds * 1000).toUInt32
  | .clock => do
    let ms ← IO.monoMsNow
    pure (ms.toFloat / 1000)
  | .moment => localMoment
  | .tell level text =>
    match level with
    | .print => IO.println text
    | .info => pure ()
    | .error | .usage => IO.eprintln text

end Harvest.Machine

/-- How often the executable asks before it gives up. -/
def patience : Nat := 1000000000000000000

def main (arguments : List String) : IO UInt32 :=
  (Harvest.CommandLine.program arguments patience).run Harvest.Machine.answer
