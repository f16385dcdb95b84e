import Harvest.Proofs.Staging.Serving
import Mathlib.Logic.Function.Basic

/-!
# Other names for jobs and batches

`rename ρ` puts `ρ name` in place of each name of a job or a batch. Names are only ever compared,
so a call with other names is answered with other names, and makes the same of a job with other
names (`Call.serve_rename`), as long as different names stay different. What is told about the disk
has no names of jobs or batches in it (`unnamed_openFile` and those in front of it).
-/

namespace Harvest

open Disk (Memory)

section Renaming

variable (ρ : String → String)

def JobInfo.rename (info : JobInfo) : JobInfo := { info with id := ρ info.id }

def BatchInfo.rename (info : BatchInfo) : BatchInfo :=
  { info with id := ρ info.id, job := ρ info.job }

/-- The result itself is named by its file. -/
def ResultReference.rename (r : ResultReference) : ResultReference := { r with batch := ρ r.batch }

def RemoteFault.rename : RemoteFault → RemoteFault
  | .nothingStaged entity root => .nothingStaged entity root
  | .unknownJob job => .unknownJob (ρ job)
  | .unknownBatch batch job => .unknownBatch (ρ batch) (ρ job)
  | .unknownResult batch result job => .unknownResult (ρ batch) result (ρ job)
  | .jobNotOpen job => .jobNotOpen (ρ job)
  | .reported message => .reported message

/-- Only the faults of the service tell of jobs and batches here. -/
def ExtractError.rename : ExtractError → ExtractError
  | .remote fault => .remote (fault.rename ρ)
  | e => e

namespace Staging

def StagedBatch.rename (b : StagedBatch) : StagedBatch := { b with info := b.info.rename ρ }

/-- Results are not renamed. -/
@[simp] theorem flatMap_results_rename (batches : List StagedBatch) :
    (batches.map (StagedBatch.rename ρ)).flatMap StagedBatch.results =
      batches.flatMap StagedBatch.results := by
  rw [List.flatMap_map]
  rfl

def StagedJob.rename (j : StagedJob) : StagedJob :=
  { j with info := j.info.rename ρ, batches := j.batches.map (StagedBatch.rename ρ) }

@[simp] theorem StagedJob.entity_rename (j : StagedJob) :
    (j.rename ρ).info.entity = j.info.entity :=
  rfl

@[simp] theorem StagedJob.state_rename (j : StagedJob) :
    (j.rename ρ).info.state = j.info.state :=
  rfl

@[simp] theorem StagedJob.batches_rename (j : StagedJob) :
    (j.rename ρ).batches = j.batches.map (StagedBatch.rename ρ) :=
  rfl

def Told.rename : Told → Told
  | .job info => .job (info.rename ρ)
  | .batch info => .batch (info.rename ρ)
  | .batches infos => .batches (infos.map (BatchInfo.rename ρ))
  | .results references => .results (references.map (ResultReference.rename ρ))
  | .page content => .page content

def Answer.rename : Answer → Answer
  | .ok told => .ok (told.rename ρ)
  | .error e => .error (e.rename ρ)

def Inspection.rename : Inspection → Inspection
  | .status => .status
  | .batch id => .batch (ρ id)
  | .batches => .batches
  | .results id => .results (ρ id)
  | .page reference => .page (reference.rename ρ)

def Call.rename : Call → Call
  | .create r => .create r
  | .submit job => .submit (ρ job)
  | .inspect job inspection => .inspect (ρ job) (inspection.rename ρ)
  | .close job => .close (ρ job)

end Staging

end Renaming

section Unnamed

variable {α β : Type}

/-- A result whose error has no names in it. -/
def Unnamed (x : Except ExtractError α) : Prop := ∀ e, x = .error e → ∀ ρ, e.rename ρ = e

theorem unnamed_ok (a : α) : Unnamed (.ok a) := nofun

theorem unnamed_storage (x : Except StorageFault α) :
    Unnamed (x.mapError ExtractError.storage) := by
  intro e he ρ
  cases x with
  | ok a => cases he
  | error fault =>
    cases he
    rfl

namespace Program

/-- Whatever is replied, the program is done with such a value. -/
def EndsIn {S : Service} (P : α → Prop) : Program S α → Prop
  | .done value => P value
  | .ask _ next => ∀ reply, (next reply).EndsIn P

theorem EndsIn.onDisk {P : α → Prop} {p : Program Disk.service α} (h : p.EndsIn P) (m : Memory) :
    P (p.onDisk m).1 := by
  induction p generalizing m with
  | done value => exact h
  | ask r next ih => exact ih _ (h _) _

/-- Two programs in sequence of which the first one may end with an error. -/
theorem EndsIn.andThen {S : Service} {x : ExceptT ExtractError (Program S) α}
    {f : α → ExceptT ExtractError (Program S) β} (h : EndsIn Unnamed x)
    (hf : ∀ a, EndsIn Unnamed (f a)) :
    EndsIn Unnamed (x >>= f : ExceptT ExtractError (Program S) β) := by
  have hprogram (p : Program S (Except ExtractError α)) (h : p.EndsIn Unnamed) :
      EndsIn Unnamed (p.bind (ExceptT.bindCont f)) := by
    induction p with
    | done value =>
      cases value with
      | ok a => exact hf a
      | error e =>
        intro e' he'
        cases he'
        exact h e rfl
    | ask r next ih => exact fun reply => ih reply (h reply)
  exact hprogram x h

end Program

end Unnamed

namespace Staging

open Program (EndsIn)

theorem unnamed_entityDirectory (root entity : String) :
    EndsIn Unnamed (entityDirectory root entity) := by
  refine .andThen (fun _ => unnamed_ok _) fun there => ?_
  cases there with
  | true => exact unnamed_ok _
  | false =>
    rintro _ ⟨⟩ ρ
    rfl

theorem unnamed_keepFiles (directory : String) (names : List String) :
    EndsIn Unnamed (keepFiles directory names) := by
  induction names with
  | nil => exact unnamed_ok _
  | cons name rest ih =>
    refine .andThen (fun _ => unnamed_ok _) fun isFile => .andThen ih fun files => ?_
    split <;> exact unnamed_ok _

theorem unnamed_entityFiles (root entity : String) :
    EndsIn Unnamed (entityFiles root entity) :=
  .andThen (unnamed_entityDirectory root entity) fun directory =>
    .andThen (fun _ => unnamed_storage _) fun names =>
      .andThen (unnamed_keepFiles directory names) fun _ => unnamed_ok _

theorem unnamed_openFile (path : String) : EndsIn Unnamed (openFile path) :=
  .andThen (fun _ => unnamed_storage _) fun _ => unnamed_ok _

section Equivariance

variable {root : String} {m : Memory} {ρ : String → String} {names : List String}

theorem primary_rename (h : names ≠ []) (job : String) (split : Bool) :
    primary (ρ job) split (names.map ρ) = (primary job split names).rename ρ := by
  cases names with
  | nil => exact absurd rfl h
  | cons id rest => rfl

theorem submission_rename (h : names ≠ []) (job : String) (split : Bool)
    (files : List (String × String)) :
    submission (ρ job) split files (names.map ρ) =
      (submission job split files names).map (StagedBatch.rename ρ) := by
  rw [submission, submission, List.map_cons, primary_rename h, ← List.map_tail,
    List.zipWith_map_left, List.map_zipWith]
  rfl

theorem Call.lead_rename (call : Call) : (call.rename ρ).lead = call.lead := by
  cases call <;> rfl

theorem Call.job?_rename (call : Call) (names : List String) :
    (call.rename ρ).job? (names.map ρ) = (call.job? names).map ρ := by
  cases call with
  | create r => exact List.head?_map
  | _ => rfl

theorem Call.found_rename {v w : View} (h : ∀ job, w (ρ job) = (v job).map (StagedJob.rename ρ))
    (call : Call) : (call.rename ρ).found w = (call.found v).map (StagedJob.rename ρ) := by
  cases call with
  | create r => rfl
  | _ => exact h _

theorem Call.takes_rename (call : Call) (found : Option StagedJob) :
    (call.rename ρ).takes root m (found.map (StagedJob.rename ρ)) = call.takes root m found := by
  cases call <;> cases found <;> rfl

/-- A batch is found by its name as before, if different names stay different. -/
theorem named_comp_rename (hρ : Function.Injective ρ) (id : String) :
    ((fun b : StagedBatch => b.info.id == ρ id) ∘ StagedBatch.rename ρ) =
      fun b => b.info.id == id :=
  funext fun b => Bool.eq_iff_iff.2 (by simp [StagedBatch.rename, BatchInfo.rename, hρ.eq_iff])

theorem Inspection.tell_rename (hρ : Function.Injective ρ) (inspection : Inspection) (job : String)
    (j : StagedJob) : (inspection.rename ρ).tell m (ρ job) (j.rename ρ) =
      Answer.rename ρ (inspection.tell m job j) := by
  cases inspection with
  | status => rfl
  | batch id =>
    simp only [rename, tell, StagedJob.rename, List.find?_map, named_comp_rename hρ]
    cases j.batches.find? fun b => b.info.id == id <;> rfl
  | batches =>
    simp only [rename, tell, StagedJob.rename, Answer.rename, Told.rename, List.map_map]
    rfl
  | results id =>
    simp only [rename, tell, StagedJob.rename, List.find?_map, named_comp_rename hρ]
    cases j.batches.find? fun b => b.info.id == id with
    | none => rfl
    | some b =>
      simp only [Option.map_some, Answer.rename, Told.rename, List.map_map]
      rfl
  | page reference =>
    simp only [rename, tell, StagedJob.batches_rename, ResultReference.rename, List.filter_map,
      named_comp_rename hρ, flatMap_results_rename]
    cases ((j.batches.filter fun b => b.info.id == reference.batch).flatMap
        StagedBatch.results).lookup reference.result with
    | none => rfl
    | some path =>
      have hunnamed := (unnamed_openFile path).onDisk m
      dsimp only
      cases hpage : (Program.onDisk (openFile path) m).1 with
      | ok page => rfl
      | error e => exact congrArg Except.error (hunnamed e hpage ρ).symm

/-- A call with other names is answered with other names, and makes the same of its job. -/
theorem Call.serve_rename (hρ : Function.Injective ρ) (call : Call) (found : Option StagedJob)
    (hnames : names.length = call.takes root m found) :
    (call.rename ρ).serve root m (names.map ρ) (found.map (StagedJob.rename ρ)) =
      (Answer.rename ρ (call.serve root m names found).1,
        (call.serve root m names found).2.map (StagedJob.rename ρ)) := by
  cases call with
  | create r =>
    simp only [rename, serve, takes] at hnames ⊢
    have hunnamed : Unnamed (directoryOn root r.entity m) :=
      (unnamed_entityDirectory root r.entity).onDisk m
    cases hdirectory : directoryOn root r.entity m with
    | error e => simp only [Answer.rename, hunnamed e hdirectory ρ]
    | ok directory =>
      rw [hdirectory] at hnames
      obtain ⟨id, rfl⟩ := List.length_eq_one_iff.1 hnames
      rfl
  | submit job =>
    cases found with
    | none => rfl
    | some j =>
      simp only [rename, serve, takes, Option.map_some] at hnames ⊢
      have hunnamed : Unnamed (filesOn root j.info.entity m) :=
        (unnamed_entityFiles root j.info.entity).onDisk m
      rw [StagedJob.entity_rename]
      cases hfiles : filesOn root j.info.entity m with
      | error e => simp only [Answer.rename, hunnamed e hfiles ρ, Option.map_some]
      | ok files =>
        rw [hfiles] at hnames
        have hne : names ≠ [] := fun hnil =>
          needed_ne_zero j.chunkSize.isSome files (hnames.symm.trans (congrArg List.length hnil))
        rw [StagedJob.state_rename]
        by_cases hopen : j.info.state = .opened
        · simp only [hopen, if_true, StagedJob.rename, primary_rename hne, submission_rename hne,
            Answer.rename, Told.rename, Option.map_some, List.map_append]
        · simp only [hopen, if_false, StagedJob.rename, Answer.rename, ExtractError.rename,
            RemoteFault.rename, Option.map_some]
  | inspect job inspection =>
    cases found with
    | none => rfl
    | some j =>
      simp only [rename, serve, Option.map_some, Inspection.tell_rename hρ]
  | close job => cases found <;> rfl

/-- Calls on jobs with other names have the same effect with other names. -/
theorem Answers.rename (hρ : Function.Injective ρ) {v v' w w' : View} {call : Call} {x y : Answer}
    (hw : ∀ job, w (ρ job) = (v job).map (StagedJob.rename ρ))
    (h : Answers root m v v' call names x)
    (h' : Answers root m w w' (call.rename ρ) (names.map ρ) y) :
    y = Answer.rename ρ x ∧ ∀ job, w' (ρ job) = (v' job).map (StagedJob.rename ρ) := by
  have hserve := Call.serve_rename hρ call (call.found v) h.length
  rw [← Call.found_rename hw] at hserve
  refine ⟨?_, fun job => ?_⟩
  · rw [h'.answer, hserve, h.answer]
  · rw [h'.jobs, h.jobs, Call.job?_rename, hserve]
    by_cases hjob : call.job? names = some job
    · rw [if_pos hjob, hjob]
      exact if_pos rfl
    · rw [if_neg hjob]
      exact (if_neg fun hmap => hjob (Option.map_injective hρ hmap)).trans (hw job)

end Equivariance

end Staging

end Harvest
