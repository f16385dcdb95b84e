import Harvest.Services

/-!
# Open jobs

A job that was created is closed at most once, whatever becomes of its extraction. It
is closed only when the service does not report it closed already.
-/

namespace Harvest

open Engine

/-- A job on the service, and whether it is known to be closed. -/
structure OpenJob where
  info : JobInfo
  closed : Bool
  deriving DecidableEq, Repr

namespace OpenJob

/-- A job that was just created. -/
def ofInfo (info : JobInfo) : OpenJob := ⟨info, false⟩

/-- The name that the service gave to the job. -/
def id (job : OpenJob) : String := job.info.id

/-- Asks the service to close the job, unless it reports the job closed. -/
def shut (job : OpenJob) : Engine JobInfo := do
  let status ← jobStatus job.id
  if status.state = .closed then pure status else closeJob job.id

/-- Closes the job, once. A job that could not be closed may be closed later. -/
def close (job : OpenJob) : Program services (Except ExtractError Unit × OpenJob) :=
  if job.closed then .done (.ok (), job)
  else Program.bind job.shut fun
    | .ok info => .done (.ok (), ⟨info, true⟩)
    | .error e => .done (.error e, job)

/-- Closes the job as far as possible. -/
def drop (job : OpenJob) : Program services Unit := job.close.bind fun _ => .done ()

/-- Runs `body` and closes the job where it ends with an error. -/
def guarding {α : Type} (job : OpenJob) (body : Engine α) : Engine α := onError job.drop body

end OpenJob

end Harvest
