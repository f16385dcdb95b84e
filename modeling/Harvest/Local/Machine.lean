import Harvest.Calendar.Basic
import Harvest.Disk.Memory

/-!
# The machine

What a program asks of the machine that it runs on: the disk, to sleep, the time, and to
tell something. `Machine.Memory` is a machine as a value, on which time stands still and
what is told is kept.
-/

namespace Harvest

namespace Machine

/-- What is told, and in what tone. -/
inductive Level
  | error
  | info
  /-- What the program was asked to print. -/
  | print
  /-- How the program is to be called. -/
  | usage
  deriving DecidableEq, Repr

/-- The requests to a machine. -/
inductive Request
  | disk (request : Disk.Request)
  | sleep (seconds : Nat)
  /-- The seconds that have passed since some fixed moment. -/
  | clock
  /-- The date and the time of day where the machine is. -/
  | moment
  | tell (level : Level) (text : String)

/-- The reply to each request. -/
def Request.Reply : Request → Type
  | .disk r => r.Reply
  | .sleep _ => Unit
  | .clock => Float
  | .moment => DateTime
  | .tell _ _ => Unit

/-- A machine as a service. -/
abbrev service : Service := ⟨Request, Request.Reply⟩

/-- A program over the disk as one over the machine. -/
def ofDisk {α : Type} (p : Program Disk.service α) : Program service α :=
  p.run (m := Program service) fun r => Program.request (S := service) (.disk r)

/-- Tells something. -/
def tell (level : Level) (text : String) : Program service Unit :=
  Program.request (S := service) (.tell level text)

/-- A machine as a value: its disk, the moment at which time stands still, and what was told,
the last first. -/
structure Memory where
  disk : Disk.Memory
  moment : DateTime
  told : List (Level × String) := []

/-- Answers a request. -/
def Memory.answer : (r : Request) → StateM Memory r.Reply
  | .disk r => fun m =>
    let (x, disk) := Disk.Memory.answer r m.disk
    (x, { m with disk := disk })
  | .sleep _ => fun m => ((), m)
  | .clock => fun m => ((0 : Float), m)
  | .moment => fun m => (m.moment, m)
  | .tell level text => fun m => ((), { m with told := (level, text) :: m.told })

end Machine

end Harvest
