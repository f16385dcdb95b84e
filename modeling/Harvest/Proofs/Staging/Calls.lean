import Harvest.Proofs.Staging.Registry

/-!
# The calls of clients of staged results

A call is a program that makes steps on the registry and reads the disk. As nothing is written to
the disk, what is read there can be taken for known (`Program.atDisk`), and what is left of a call
is its steps on the registry: a look for what only tells of a job (`Inspection.atDisk_program`), one
name and an entry for a new job (`atDisk_create`), and for a submission a look, a name, another
look, a name for each file if the job is split, and the addition (`atDisk_submit`).
-/

namespace Harvest

open Disk (Memory)

namespace Program

variable {S : Service} {α β : Type} {P : S.Request → Prop}

/-- Every request of the program has the property. -/
def MakesOnly (P : S.Request → Prop) : Program S α → Prop
  | .done _ => True
  | .ask r next => P r ∧ ∀ reply, (next reply).MakesOnly P

namespace MakesOnly

theorem bind {p : Program S α} {f : α → Program S β} (h : p.MakesOnly P)
    (hf : ∀ a, (f a).MakesOnly P) : (p.bind f).MakesOnly P := by
  induction p with
  | done value => exact hf value
  | ask r next ih => exact ⟨h.1, fun reply => ih reply (h.2 reply)⟩

theorem of_trace {p : Program S α} (h : p.MakesOnly P) {log : List (Exchange S)} {value : α}
    (ht : Trace p log value) : ∀ x ∈ log, P x.request := by
  induction ht with
  | done value => exact List.forall_mem_nil _
  | ask r next reply log value ht ih => exact List.forall_mem_cons.2 ⟨h.1, ih (h.2 reply)⟩

/-- Two programs in sequence of which the first one may end with an error. -/
theorem andThen {ε : Type} {x : ExceptT ε (Program S) α} {f : α → ExceptT ε (Program S) β}
    (h : MakesOnly P x) (hf : ∀ a, MakesOnly P (f a)) :
    MakesOnly P (x >>= f : ExceptT ε (Program S) β) :=
  bind h fun
    | .ok a => hf a
    | .error _ => trivial

end MakesOnly

/-- What is left of a client's program once the disk has answered it. -/
def atDisk (m : Memory) : Program Staging.service α → Program Staging.service α
  | .done value => .done value
  | .ask (.disk r) next => (next (Memory.answer r m).1).atDisk m
  | .ask (.allocate lead) next => .ask (.allocate lead) fun reply => (next reply).atDisk m
  | .ask (.enter job) next => .ask (.enter job) fun reply => (next reply).atDisk m
  | .ask (.look job) next => .ask (.look job) fun reply => (next reply).atDisk m
  | .ask (.add job batches) next => .ask (.add job batches) fun reply => (next reply).atDisk m
  | .ask (.close job) next => .ask (.close job) fun reply => (next reply).atDisk m

theorem atDisk_bind (m : Memory) (p : Program Staging.service α)
    (f : α → Program Staging.service β) :
    (p.bind f).atDisk m = (p.atDisk m).bind fun a => (f a).atDisk m := by
  induction p with
  | done value => rfl
  | ask r next ih =>
    cases r with
    | disk r => exact ih _
    | _ => exact congrArg (Program.ask _) (funext ih)

end Program

/-- The request leaves every disk as it is. -/
def Disk.Request.Reads (r : Disk.Request) : Prop := ∀ m, (Memory.answer r m).2 = m

namespace Staging

/-- The step leaves every disk as it is. -/
def Request.Reads (r : Request) : Prop := ∀ d, r = .disk d → d.Reads

/-- What can be asked about a job. -/
inductive Inspection
  | status
  | batch (batch : String)
  | batches
  | results (batch : String)
  | page (reference : ResultReference)
  deriving DecidableEq, Repr

/-- The calls of a client. A submission has no query, as its text is not evaluated. -/
inductive Call
  | create (r : JobRequest)
  | submit (job : String)
  | inspect (job : String) (inspection : Inspection)
  | close (job : String)
  deriving DecidableEq, Repr

/-- What a client is told. -/
inductive Told
  | job (info : JobInfo)
  | batch (info : BatchInfo)
  | batches (infos : List BatchInfo)
  | results (references : List ResultReference)
  | page (page : Page)
  deriving DecidableEq, Repr

abbrev Answer := Except ExtractError Told

def Inspection.program (job : String) : Inspection → Staged Told
  | .status => do pure (.job (← jobStatus job))
  | .batch id => do pure (.batch (← batchStatus job id))
  | .batches => do pure (.batches (← listBatches job))
  | .results id => do pure (.results (← listResults job id))
  | .page reference => do pure (.page (← openResult job reference))

def Call.program (root : String) : Call → Staged Told
  | .create r => do pure (.job (← createJob root r))
  | .submit job => do pure (.batch (← submitBatch root job))
  | .inspect job inspection => inspection.program job
  | .close job => do pure (.job (← closeJob job))

section Reading

open Program (MakesOnly)

variable {α : Type}

theorem reads_entityDirectory (root entity : String) :
    MakesOnly Disk.Request.Reads (entityDirectory root entity) := by
  refine .andThen ⟨fun _ => rfl, fun _ => trivial⟩ fun there => ?_
  cases there <;> exact trivial

theorem reads_keepFiles (directory : String) (names : List String) :
    MakesOnly Disk.Request.Reads (keepFiles directory names) := by
  induction names with
  | nil => exact trivial
  | cons name rest ih =>
    refine .andThen ⟨fun _ => rfl, fun _ => trivial⟩ fun isFile => .andThen ih fun files => ?_
    split <;> exact trivial

theorem reads_entityFiles (root entity : String) :
    MakesOnly Disk.Request.Reads (entityFiles root entity) :=
  .andThen (reads_entityDirectory root entity) fun directory =>
    .andThen ⟨fun _ => rfl, fun _ => trivial⟩ fun names =>
      .andThen (reads_keepFiles directory names) fun _ => trivial

theorem reads_openFile (path : String) : MakesOnly Disk.Request.Reads (openFile path) :=
  .andThen ⟨fun _ => rfl, fun _ => trivial⟩ fun _ => trivial

theorem reads_ofStoring {p : Storing α} (h : MakesOnly Disk.Request.Reads p) :
    MakesOnly Request.Reads (Staged.ofStoring p) := by
  have hprogram (p : Program Disk.service (Except ExtractError α))
      (h : MakesOnly Disk.Request.Reads p) :
      MakesOnly Request.Reads (Program.run (m := Program Staging.service)
        (fun r => Program.request (S := Staging.service) (.disk r)) p) := by
    induction p with
    | done value => exact trivial
    | ask r next ih =>
      refine ⟨?_, fun reply => ih reply (h.2 reply)⟩
      rintro _ ⟨⟩
      exact h.1
  exact hprogram p h

theorem reads_look (job : String) : MakesOnly Request.Reads (Staged.look job) := by
  refine ⟨nofun, fun found => ?_⟩
  cases found <;> exact trivial

theorem reads_allocate (lead : String) : MakesOnly Request.Reads (Staged.allocate lead) :=
  ⟨nofun, fun _ => trivial⟩

theorem reads_add (job : String) (batches : List StagedBatch) :
    MakesOnly Request.Reads (Staged.add job batches) :=
  ⟨nofun, fun _ => trivial⟩

theorem reads_childBatches (job : String) (files : List (String × String)) :
    MakesOnly Request.Reads (childBatches job files) := by
  induction files with
  | nil => exact trivial
  | cons file rest ih =>
    exact .andThen (reads_allocate _) fun id => .andThen ih fun children => trivial

theorem reads_findBatch (job batch : String) : MakesOnly Request.Reads (findBatch job batch) := by
  refine .andThen (reads_look job) fun j => ?_
  split <;> exact trivial

theorem reads_inspection (job : String) (inspection : Inspection) :
    MakesOnly Request.Reads (inspection.program job) := by
  cases inspection with
  | status => exact .andThen (.andThen (reads_look job) fun _ => trivial) fun _ => trivial
  | batch batch =>
    exact .andThen (.andThen (reads_findBatch job batch) fun _ => trivial) fun _ => trivial
  | batches => exact .andThen (.andThen (reads_look job) fun _ => trivial) fun _ => trivial
  | results batch =>
    exact .andThen (.andThen (reads_findBatch job batch) fun _ => trivial) fun _ => trivial
  | page reference =>
    refine .andThen (.andThen (reads_look job) fun j => ?_) fun _ => trivial
    dsimp only
    split
    · exact reads_ofStoring (reads_openFile _)
    · exact trivial

/-- No call writes to the disk. -/
theorem reads_program (root : String) (call : Call) :
    MakesOnly Request.Reads (call.program root) := by
  cases call with
  | create r =>
    refine .andThen (.andThen (reads_ofStoring (reads_entityDirectory root r.entity)) fun _ =>
      .andThen (reads_allocate _) fun id => ?_) fun _ => trivial
    exact .andThen ⟨nofun, fun _ => trivial⟩ fun _ => trivial
  | submit job =>
    refine .andThen (.andThen (.andThen (reads_look job) fun _ => trivial) fun info =>
      .andThen (reads_ofStoring (reads_entityFiles root info.entity)) fun files =>
        .andThen (reads_allocate _) fun id =>
          .andThen (reads_look job) fun j => ?_) fun _ => trivial
    dsimp only
    split
    · exact .andThen (reads_childBatches job files) fun _ =>
        .andThen (reads_add job _) fun _ => trivial
    · exact .andThen (reads_add job _) fun _ => trivial
  | inspect job inspection => exact reads_inspection job inspection
  | close job =>
    exact .andThen ⟨nofun, fun _ => trivial⟩ fun _ => trivial

end Reading

end Staging

theorem Program.MakesOnly.atDisk {α : Type} {p : Program Staging.service α}
    (h : p.MakesOnly Staging.Request.Reads) (m : Memory) :
    (p.atDisk m).MakesOnly Staging.Request.Reads := by
  induction p with
  | done value => exact trivial
  | ask r next ih =>
    cases r with
    | disk r => exact ih _ (h.2 _)
    | _ => exact ⟨h.1, fun reply => ih reply (h.2 reply)⟩

namespace Staged

open Staging

variable {α β : Type} {m : Memory}

theorem atDisk_ofStoring {p : Storing α} (h : Program.MakesOnly Disk.Request.Reads p)
    (m : Memory) : (ofStoring p).atDisk m = .done (Program.onDisk p m).1 := by
  have hprogram (p : Program Disk.service (Except ExtractError α))
      (h : p.MakesOnly Disk.Request.Reads) :
      (Program.run (m := Program Staging.service)
        (fun r => Program.request (S := Staging.service) (.disk r)) p).atDisk m =
          .done (p.onDisk m).1 := by
    induction p with
    | done value => rfl
    | ask r next ih =>
      refine (ih _ (h.2 _)).trans ?_
      change _ = Program.done ((next (Memory.answer r m).1).onDisk (Memory.answer r m).2).1
      rw [h.1 m]
  exact hprogram p h

/-- A program that only reads the disk can be answered by the disk beforehand. -/
theorem onDisk_eq_atDisk {p : Staged α} (h : Program.MakesOnly Request.Reads p) (g : Registry)
    (m : Memory) : p.onDisk g m = onDisk (p.atDisk m) g m := by
  have hprogram (p : Program Staging.service (Except ExtractError α))
      (h : p.MakesOnly Request.Reads) (g : Registry) :
      onDisk (p : Staged α) g m = onDisk (p.atDisk m) g m := by
    induction p generalizing g with
    | done value => rfl
    | ask r next ih =>
      cases r with
      | disk r =>
        refine Eq.trans ?_ (ih (Memory.answer r m).1 (h.2 _) g)
        change onDisk (next (Memory.answer r m).1) g (Memory.answer r m).2 = _
        rw [h.1 r rfl m]
      | _ => exact ih _ (h.2 _) _
  exact hprogram p h g

section Sequence

variable (f : α → Staged β)

theorem atDisk_bind (x : Staged α) (m : Memory) :
    Program.atDisk m (x >>= f : Staged β) = (Program.atDisk m x).bind fun
      | .ok a => (f a).atDisk m
      | .error e => .done (.error e) := by
  refine (Program.atDisk_bind m x (ExceptT.bindCont f)).trans (congrArg _ (funext fun r => ?_))
  cases r <;> rfl

theorem atDisk_ofStoring_bind {p : Storing α} (h : Program.MakesOnly Disk.Request.Reads p)
    (m : Memory) : Program.atDisk m (ofStoring p >>= f : Staged β) =
      match (Program.onDisk p m).1 with
      | .ok a => (f a).atDisk m
      | .error e => .done (.error e) := by
  rw [atDisk_bind, atDisk_ofStoring h]
  rfl

end Sequence

/-- A look for a job, which has to be there, in front of what is done with it. -/
def seek (job : String) (next : StagedJob → Program Staging.service (Except ExtractError β)) :
    Program Staging.service (Except ExtractError β) :=
  .ask (.look job) fun (found : Option StagedJob) =>
    match found with
    | some j => next j
    | none => .done (.error (.remote (.unknownJob job)))

theorem atDisk_look_bind (job : String) (f : StagedJob → Staged β) (m : Memory) :
    Program.atDisk m (look job >>= f : Staged β) = seek job fun j => (f j).atDisk m :=
  congrArg (Program.ask _) (funext fun found => by cases found <;> rfl)

theorem atDisk_allocate_bind (lead : String) (f : String → Staged β) (m : Memory) :
    Program.atDisk m (allocate lead >>= f : Staged β) =
      .ask (.allocate lead) fun id => (f id).atDisk m :=
  rfl

end Staged

namespace Staging

open Staged (seek)

/-- What is found of the directory of an entity. -/
def directoryOn (root entity : String) (m : Memory) : Except ExtractError String :=
  (Program.onDisk (entityDirectory root entity) m).1

/-- What is found of the staged files of an entity. -/
def filesOn (root entity : String) (m : Memory) : Except ExtractError (List (String × String)) :=
  (Program.onDisk (entityFiles root entity) m).1

/-- What a job tells. -/
def Inspection.tell (m : Memory) (job : String) (j : StagedJob) : Inspection → Answer
  | .status => .ok (.job j.info)
  | .batch id =>
    match j.batches.find? fun b => b.info.id == id with
    | some b => .ok (.batch b.info)
    | none => .error (.remote (.unknownBatch id job))
  | .batches => .ok (.batches (j.batches.map StagedBatch.info))
  | .results id =>
    match j.batches.find? fun b => b.info.id == id with
    | some b => .ok (.results (b.results.map fun r => ⟨id, r.1⟩))
    | none => .error (.remote (.unknownBatch id job))
  | .page reference =>
    match ((j.batches.filter fun b => b.info.id == reference.batch).flatMap
        StagedBatch.results).lookup reference.result with
    | some path => (Program.onDisk (openFile path) m).1.map .page
    | none => .error (.remote (.unknownResult reference.batch reference.result job))

theorem Inspection.atDisk_program (job : String) (inspection : Inspection) (m : Memory) :
    Program.atDisk m (inspection.program job) =
      seek job fun j => .done (inspection.tell m job j) := by
  cases inspection with
  | status =>
    rw [program, jobStatus, bind_assoc, Staged.atDisk_look_bind]
    rfl
  | batches =>
    rw [program, listBatches, bind_assoc, Staged.atDisk_look_bind]
    rfl
  | batch id =>
    rw [program, batchStatus, findBatch, bind_assoc, bind_assoc, Staged.atDisk_look_bind]
    refine congrArg (seek job) (funext fun j => ?_)
    rw [tell]
    cases j.batches.find? fun b => b.info.id == id <;> rfl
  | results id =>
    rw [program, listResults, findBatch, bind_assoc, bind_assoc, Staged.atDisk_look_bind]
    refine congrArg (seek job) (funext fun j => ?_)
    rw [tell]
    cases j.batches.find? fun b => b.info.id == id <;> rfl
  | page reference =>
    rw [program, openResult, bind_assoc, Staged.atDisk_look_bind]
    refine congrArg (seek job) (funext fun j => ?_)
    rw [tell]
    dsimp only
    cases ((j.batches.filter fun b => b.info.id == reference.batch).flatMap
        StagedBatch.results).lookup reference.result with
    | none => rfl
    | some path =>
      dsimp only
      rw [Staged.atDisk_ofStoring_bind _ (reads_openFile path)]
      cases (Program.onDisk (openFile path) m).1 <;> rfl

/-- The batch that is submitted has the first one of the names. -/
def primary (job : String) (split : Bool) (names : List String) : BatchInfo :=
  ⟨names.headD "", job, if split then .notProcessed else .completed, none⟩

/-- The batches of a submission: the one that was submitted, and those of files that become one
batch each. -/
def submission (job : String) (split : Bool) (files : List (String × String))
    (names : List String) : List StagedBatch :=
  ⟨primary job split names, if split then [] else files⟩ ::
    List.zipWith (fun id file => ⟨⟨id, job, .completed, none⟩, [file]⟩) names.tail files

/-- A number of names, each given out by a step. -/
def gather (next : List String → Program service Answer) :
    (n : Nat) → List String → Program service Answer
  | 0, names => next names
  | n + 1, names => .ask (.allocate "751") fun (id : String) => gather next n (names ++ [id])

theorem gather_append (next : List String → Program service Answer) (n : Nat)
    (front names : List String) :
    gather next n (front ++ names) = gather (fun names => next (front ++ names)) n names := by
  induction n generalizing names with
  | zero => rfl
  | succ n ih =>
    simp only [gather, List.append_assoc, ih]

/-- The batches of files have the names that are given out for them. -/
theorem atDisk_childBatches_bind (job : String) (files : List (String × String))
    (f : List StagedBatch → Staged Told) (m : Memory) :
    Program.atDisk m (childBatches job files >>= f : Staged Told) =
      gather (fun names => (f (List.zipWith
        (fun id file => ⟨⟨id, job, .completed, none⟩, [file]⟩) names files)).atDisk m)
        files.length [] := by
  induction files generalizing f with
  | nil => rfl
  | cons file rest ih =>
    rw [childBatches, bind_assoc, Staged.atDisk_allocate_bind, List.length_cons, gather]
    refine congrArg (Program.ask _) (funext fun id => ?_)
    rw [bind_assoc]
    refine (ih _).trans ?_
    have hcons := gather_append (fun names => (f (List.zipWith
      (fun id file => (⟨⟨id, job, .completed, none⟩, [file]⟩ : StagedBatch)) names
        (file :: rest))).atDisk m) rest.length [id] []
    exact hcons.symm

/-- The addition of a submission with these names. -/
def adding (job : String) (split : Bool) (files : List (String × String)) (names : List String) :
    Program service Answer :=
  .ask (.add job (submission job split files names)) fun reply =>
    .done ((reply.mapError ExtractError.remote).map fun _ => .batch (primary job split names))

/-- What a submission does behind its first name. -/
def named (job : String) (files : List (String × String)) (id : String) :
    Program service Answer :=
  seek job fun j => gather (adding job j.chunkSize.isSome files)
    (if j.chunkSize.isSome then files.length else 0) [id]

/-- A submission from its first look on. -/
def submitting (root : String) (m : Memory) (job : String) : Program service Answer :=
  seek job fun j =>
    match filesOn root j.info.entity m with
    | .ok files => .ask (.allocate "751") (named job files)
    | .error e => .done (.error e)

/-- A submission is a look, a name, another look, a name for each file if the job is split, and the
addition. -/
theorem atDisk_submit (root job : String) (m : Memory) :
    Program.atDisk m ((Call.submit job).program root) = submitting root m job := by
  rw [Call.program, submitBatch, jobStatus]
  simp only [bind_assoc]
  rw [Staged.atDisk_look_bind]
  refine congrArg (seek job) (funext fun j => ?_)
  rw [pure_bind, Staged.atDisk_ofStoring_bind _ (reads_entityFiles root j.info.entity), filesOn]
  cases (Program.onDisk (entityFiles root j.info.entity) m).1 with
  | error e => rfl
  | ok files =>
    dsimp only
    rw [Staged.atDisk_allocate_bind]
    refine congrArg (Program.ask _) (funext fun id => ?_)
    rw [Staged.atDisk_look_bind]
    refine congrArg (seek job) (funext fun j => ?_)
    -- behind the names there is only the addition
    have hadd (primary : BatchInfo) (batches : List StagedBatch) :
        Program.atDisk m (Staged.add job batches >>= fun _ => pure (.batch primary) : Staged Told) =
          .ask (.add job batches) fun reply =>
            .done ((reply.mapError ExtractError.remote).map fun _ => .batch primary) :=
      congrArg (Program.ask _) (funext fun reply => by cases reply <;> rfl)
    cases j.chunkSize with
    | none =>
      dsimp only
      rw [bind_assoc]
      exact hadd _ _
    | some size =>
      dsimp only
      rw [bind_assoc, atDisk_childBatches_bind]
      refine Eq.trans ?_ (gather_append (adding job true files) files.length [id] []).symm
      refine congrArg (gather · files.length []) (funext fun names => ?_)
      rw [bind_assoc]
      exact hadd _ _

/-- A new job of this name. -/
def StagedJob.created (r : JobRequest) (id : String) : StagedJob :=
  ⟨⟨id, r.entity, r.operation, .opened⟩, r.chunkSize, []⟩

/-- The entry of a new job. -/
def entering (r : JobRequest) (id : String) : Program service Answer :=
  .ask (.enter (.created r id)) fun _ => .done (.ok (.job (StagedJob.created r id).info))

theorem atDisk_create (root : String) (r : JobRequest) (m : Memory) :
    Program.atDisk m ((Call.create r).program root) =
      match directoryOn root r.entity m with
      | .ok _ => .ask (.allocate "750") (entering r)
      | .error e => .done (.error e) := by
  rw [Call.program, createJob]
  simp only [bind_assoc]
  rw [Staged.atDisk_ofStoring_bind _ (reads_entityDirectory root r.entity), directoryOn]
  cases (Program.onDisk (entityDirectory root r.entity) m).1 <;> rfl

theorem atDisk_close (root job : String) (m : Memory) :
    Program.atDisk m ((Call.close job).program root) = .ask (.close job) fun reply =>
      .done ((reply.mapError ExtractError.remote).map .job) := by
  refine congrArg (Program.ask _) (funext fun reply => ?_)
  cases reply <;> rfl

end Staging

end Harvest
