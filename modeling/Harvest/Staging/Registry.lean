import Harvest.Disk.Basic
import Harvest.Text.Integer

/-!
# The registry of staged jobs

Staged results are served as a bulk service would serve them. The jobs that were created
and their batches are kept in a registry, which is changed one request at a time: a name
is given out, a job entered or looked up, batches added, a job closed. Each request is
one step, so what clients do to a registry at the same time is a sequence of steps.
-/

namespace Harvest

namespace Staging

/-- A batch, its results and the path of the file behind each. -/
structure StagedBatch where
  info : BatchInfo
  results : List (String × String)
  deriving DecidableEq, Repr

/-- A job and its batches, in the order in which they were submitted. -/
structure StagedJob where
  info : JobInfo
  chunkSize : Option Nat
  batches : List StagedBatch
  deriving DecidableEq, Repr

/-- The jobs by their names, and the number of the next name. -/
structure Registry where
  jobs : List (String × StagedJob) := []
  nextNumber : Nat := 1
  deriving DecidableEq, Repr

/-- The steps of a client: those on the registry, and requests to the disk. -/
inductive Request
  | disk (request : Disk.Request)
  /-- Gives out a name that starts with `lead`. -/
  | allocate (lead : String)
  | enter (job : StagedJob)
  | look (job : String)
  /-- Adds batches to a job that is open. -/
  | add (job : String) (batches : List StagedBatch)
  | close (job : String)
  deriving Repr

/-- The reply to each step. -/
def Request.Reply : Request → Type
  | .disk r => r.Reply
  | .allocate _ => String
  | .enter _ => Unit
  | .look _ => Option StagedJob
  | .add _ _ => Except RemoteFault Unit
  | .close _ => Except RemoteFault JobInfo

/-- The steps as a service. -/
abbrev service : Service := ⟨Request, Request.Reply⟩

/-- The name of a number: three digits that tell the kind, and twelve for the number. -/
def nameOf (lead : String) (n : Nat) : String := lead ++ String.ofList (Text.padded 12 n)

namespace Registry

/-- The job of a name. -/
def job? (g : Registry) (job : String) : Option StagedJob := g.jobs.lookup job

/-- Puts a job into its place, or behind all others. -/
def put (job : StagedJob) : List (String × StagedJob) → List (String × StagedJob)
  | [] => [(job.info.id, job)]
  | (id, old) :: rest =>
    if id == job.info.id then (id, job) :: rest else (id, old) :: put job rest

/-- The registry with a job. -/
def enter (g : Registry) (job : StagedJob) : Registry := { g with jobs := put job g.jobs }

/-- Gives out a name. -/
def allocate (g : Registry) (lead : String) : String × Registry :=
  (nameOf lead g.nextNumber, { g with nextNumber := g.nextNumber + 1 })

/-- Adds batches to a job. -/
def add (g : Registry) (job : String) (batches : List StagedBatch) :
    Except RemoteFault Unit × Registry :=
  match g.job? job with
  | none => (.error (.unknownJob job), g)
  | some j =>
    if j.info.state = .opened then
      (.ok (), g.enter { j with batches := j.batches ++ batches })
    else (.error (.jobNotOpen job), g)

/-- Closes a job. -/
def close (g : Registry) (job : String) : Except RemoteFault JobInfo × Registry :=
  match g.job? job with
  | none => (.error (.unknownJob job), g)
  | some j =>
    let closed := { j with info := { j.info with state := .closed } }
    (.ok closed.info, g.enter closed)

/-- Answers a step, the disk being asked where the step is a request to it. -/
def answer : (r : Request) → StateT Registry (Program Disk.service) r.Reply
  | .disk r => fun g => (Program.request (S := Disk.service) r).bind fun x => .done (x, g)
  | .allocate lead => fun g => .done (g.allocate lead)
  | .enter job => fun g => .done ((), g.enter job)
  | .look job => fun g => .done (g.job? job, g)
  | .add job batches => fun g => .done (g.add job batches)
  | .close job => fun g => .done (g.close job)

theorem lookup_put (job : StagedJob) (id : String) (jobs : List (String × StagedJob)) :
    (put job jobs).lookup id = if id = job.info.id then some job else jobs.lookup id := by
  induction jobs with
  | nil => by_cases h : id = job.info.id <;> simp [put, h, beq_eq_false_iff_ne.2, List.lookup_cons]
  | cons p jobs ih =>
    obtain ⟨other, old⟩ := p
    by_cases ho : other = job.info.id
    · by_cases h : id = job.info.id <;> simp [put, ho, h, beq_eq_false_iff_ne.2, List.lookup_cons]
    · by_cases h : id = other
      · simp [put, ho, h]
      · simp [put, ho, beq_eq_false_iff_ne.2 h, List.lookup_cons, ih]

/-- A job that was entered is found, and every other one is found as before. -/
theorem job?_enter (g : Registry) (job : StagedJob) (id : String) :
    (g.enter job).job? id = if id = job.info.id then some job else g.job? id :=
  lookup_put job id g.jobs

end Registry

end Staging

/-- Programs of a client of staged results, which may end with an error. -/
abbrev Staged := ExceptT ExtractError (Program Staging.service)

namespace Staged

open Program

/-- A program over the disk. -/
def ofStoring {α : Type} (p : Storing α) : Staged α :=
  Program.run (m := Program Staging.service)
    (fun r => request (S := Staging.service) (.disk r)) p.run

/-- A step that may be refused. -/
def ofReply {α : Type} (p : Program Staging.service (Except RemoteFault α)) : Staged α :=
  p.bind fun r => .done (r.mapError ExtractError.remote)

/-- Gives out a name. -/
def allocate (lead : String) : Staged String :=
  ExceptT.lift (request (S := Staging.service) (.allocate lead))

/-- Enters a job. -/
def enter (job : Staging.StagedJob) : Staged Unit :=
  ExceptT.lift (request (S := Staging.service) (.enter job))

/-- The job of a name, which has to be there. -/
def look (job : String) : Staged Staging.StagedJob :=
  ofReply ((request (S := Staging.service) (.look job)).bind fun
    | some j => .done (.ok j)
    | none => .done (.error (.unknownJob job)))

/-- Adds batches to a job, which has to be open. -/
def add (job : String) (batches : List Staging.StagedBatch) : Staged Unit :=
  ofReply (request (S := Staging.service) (.add job batches))

/-- Closes a job. -/
def close (job : String) : Staged JobInfo :=
  ofReply (request (S := Staging.service) (.close job))

end Staged

end Harvest
