import Harvest.Proofs.Staging.Calls

/-!
# Calls that are answered at once

`Call.serve` is what a call is answered with, and what its job becomes, if nothing else happens in
the meantime. A call takes several steps, but all of them but the last one leave every job as it is
(`Pending.advance`): `Pending` tells what is left of a call, which stays true while others change
the jobs, as no job ever changes its entity or whether it is split (`Pending.mono`). So a call is
answered by its last step, as if it had happened at once there (`Answers`).
-/

namespace Harvest

open Disk (Memory)

namespace Staging

open Staged (seek)

/-- The jobs by their names. -/
abbrev View := String → Option StagedJob

/-- A job that is closed. -/
def StagedJob.closed (j : StagedJob) : StagedJob :=
  { j with info := { j.info with state := .closed } }

/-- The number of names of a submission. -/
def needed (split : Bool) (files : List (String × String)) : Nat :=
  if split then files.length + 1 else 1

theorem needed_ne_zero (split : Bool) (files : List (String × String)) :
    needed split files ≠ 0 := by
  cases split <;> simp [needed]

namespace Call

/-- What the names begin with that are given out for a call. -/
def lead : Call → String
  | .create _ => "750"
  | _ => "751"

/-- The call is for a new job. -/
def isCreate : Call → Bool
  | .create _ => true
  | _ => false

/-- The job that a call is about, these names being given out for it. -/
def job? (names : List String) : Call → Option String
  | .create _ => names.head?
  | .submit job => some job
  | .inspect job _ => some job
  | .close job => some job

/-- The job that a call meets; a new one is not there before. -/
def found (v : View) : Call → Option StagedJob
  | .create _ => none
  | .submit job => v job
  | .inspect job _ => v job
  | .close job => v job

/-- The number of names that are given out for a call. -/
def takes (root : String) (m : Memory) (found : Option StagedJob) : Call → Nat
  | .create r =>
    match directoryOn root r.entity m with
    | .ok _ => 1
    | .error _ => 0
  | .submit _ =>
    match found with
    | none => 0
    | some j =>
      match filesOn root j.info.entity m with
      | .ok files => needed j.chunkSize.isSome files
      | .error _ => 0
  | .inspect _ _ => 0
  | .close _ => 0

/-- What a call is answered with, and what its job becomes, if all of it happens at once. -/
def serve (root : String) (m : Memory) (names : List String) (found : Option StagedJob) :
    Call → Answer × Option StagedJob
  | .create r =>
    match directoryOn root r.entity m with
    | .ok _ =>
      let j := StagedJob.created r (names.headD "")
      (.ok (.job j.info), some j)
    | .error e => (.error e, found)
  | .submit job =>
    match found with
    | none => (.error (.remote (.unknownJob job)), none)
    | some j =>
      match filesOn root j.info.entity m with
      | .ok files =>
        if j.info.state = .opened then
          (.ok (.batch (primary job j.chunkSize.isSome names)),
            some { j with batches := j.batches ++ submission job j.chunkSize.isSome files names })
        else (.error (.remote (.jobNotOpen job)), some j)
      | .error e => (.error e, some j)
  | .inspect job inspection =>
    match found with
    | none => (.error (.remote (.unknownJob job)), none)
    | some j => (inspection.tell m job j, some j)
  | .close job =>
    match found with
    | none => (.error (.remote (.unknownJob job)), none)
    | some j => (.ok (.job j.closed.info), some j.closed)

end Call

/-- From some jobs to others all of a call happens at once: it takes these names, is answered, and
changes no job but its own. -/
structure Answers (root : String) (m : Memory) (v v' : View) (call : Call) (names : List String)
    (x : Answer) : Prop where
  length : names.length = call.takes root m (call.found v)
  answer : x = (call.serve root m names (call.found v)).1
  jobs : ∀ job, v' job =
    if call.job? names = some job then (call.serve root m names (call.found v)).2 else v job

/-- Jobs are kept under their own names. -/
def View.Keyed (v : View) : Prop := ∀ job j, v job = some j → j.info.id = job

theorem View.Keyed.enter {g : Registry} (h : View.Keyed g.job?) (j : StagedJob) :
    View.Keyed (g.enter j).job? := by
  intro job j' hj'
  rw [Registry.job?_enter] at hj'
  split at hj'
  · next hsame =>
    cases hj'
    exact hsame.symm
  · exact h job j' hj'

section Answering

variable {root : String} {m : Memory} {g : Registry} {v : View} {call : Call}
  {names : List String} {x : Answer}

/-- A job is entered as it is left by the call. -/
theorem answers_enter {j : StagedJob}
    (hlength : names.length = call.takes root m (call.found g.job?))
    (hserve : call.serve root m names (call.found g.job?) = (x, some j))
    (hjob : call.job? names = some j.info.id) :
    Answers root m g.job? (g.enter j).job? call names x where
  length := hlength
  answer := by rw [hserve]
  jobs := by
    intro job
    rw [Registry.job?_enter, hserve, hjob]
    exact if_congr (by simp [eq_comm]) rfl rfl

/-- A call that leaves its job as it is changes nothing. -/
theorem answers_same (hlength : names.length = call.takes root m (call.found v))
    (hserve : call.serve root m names (call.found v) = (x, call.found v))
    (hnew : call.isCreate = true → names = []) : Answers root m v v call names x where
  length := hlength
  answer := by rw [hserve]
  jobs := by
    intro job
    rw [hserve]
    split
    case isFalse hjob => rfl
    case isTrue hjob =>
      cases call with
      | create r =>
        rw [hnew rfl] at hjob
        cases hjob
      | _ =>
        cases hjob
        rfl

/-- A job that is inspected stays as it is. -/
theorem answers_inspect (root : String) (m : Memory) (v : View) (job : String)
    (inspection : Inspection) :
    Answers root m v v (.inspect job inspection) []
      ((Call.inspect job inspection).serve root m [] (v job)).1 := by
  refine answers_same rfl ?_ fun _ => rfl
  change Call.serve root m [] (v job) (.inspect job inspection) = _
  cases h : v job <;> simp [Call.serve, Call.found, h]

end Answering

/-- What is left of a call, these names being given out for it so far. -/
inductive Pending (root : String) (m : Memory) (v : View) :
    Call → List String → Program service Answer → Prop
  | create {r : JobRequest} {directory : String} (h : directoryOn root r.entity m = .ok directory) :
      Pending root m v (.create r) [] (.ask (.allocate "750") (entering r))
  | enter {r : JobRequest} {directory : String} (h : directoryOn root r.entity m = .ok directory)
      (id : String) : Pending root m v (.create r) [id] (entering r id)
  | submit (job : String) : Pending root m v (.submit job) [] (submitting root m job)
  | name {job : String} {j : StagedJob} {files : List (String × String)} (hjob : v job = some j)
      (hfiles : filesOn root j.info.entity m = .ok files) :
      Pending root m v (.submit job) [] (.ask (.allocate "751") (named job files))
  | seek {job : String} {j : StagedJob} {files : List (String × String)} (hjob : v job = some j)
      (hfiles : filesOn root j.info.entity m = .ok files) (id : String) :
      Pending root m v (.submit job) [id] (named job files id)
  | gather {job : String} {j : StagedJob} {files : List (String × String)} {split : Bool}
      {names : List String} {n : Nat} (hjob : v job = some j)
      (hfiles : filesOn root j.info.entity m = .ok files) (hsplit : j.chunkSize.isSome = split)
      (hnames : names.length + n = needed split files) :
      Pending root m v (.submit job) names (gather (adding job split files) n names)
  | inspect (job : String) (inspection : Inspection) : Pending root m v (.inspect job inspection) []
      (seek job fun j => .done (inspection.tell m job j))
  | close (job : String) : Pending root m v (.close job) [] (.ask (.close job) fun reply =>
      .done ((reply.mapError ExtractError.remote).map .job))

/-- What is left of a program behind its next request, and the registry then. -/
def Registry.advance (m : Memory) (g : Registry) :
    Program service Answer → Program service Answer × Registry
  | .done x => (.done x, g)
  | .ask r next =>
    let answered := (Program.onDisk ((Registry.answer r).run g) m).1
    (next answered.1, answered.2)

/-- What comes of a step of a call: it may have a name more, or is answered. -/
inductive Outcome (root : String) (m : Memory) (g : Registry) (call : Call) (names : List String) :
    Program service Answer × Registry → Prop
  | kept {p : Program service Answer} (pending : Pending root m g.job? call names p) :
      Outcome root m g call names (p, g)
  | named {p : Program service Answer}
      (pending : Pending root m g.job? call (names ++ [nameOf call.lead g.nextNumber]) p) :
      Outcome root m g call names (p, { g with nextNumber := g.nextNumber + 1 })
  | answered {x : Answer} {g' : Registry} (number : g'.nextNumber = g.nextNumber)
      (keyed : View.Keyed g'.job?) (answers : Answers root m g.job? g'.job? call names x) :
      Outcome root m g call names (.done x, g')

namespace Pending

variable {root : String} {m : Memory} {v v' : View} {g : Registry} {call : Call}
  {names : List String} {p : Program service Answer}

/-- The entity of a job never changes, and neither whether it is split. -/
theorem mono (h : Pending root m v call names p)
    (hkeeps : ∀ job j, v job = some j → ∃ j', v' job = some j' ∧
      j'.info.entity = j.info.entity ∧ j'.chunkSize = j.chunkSize) :
    Pending root m v' call names p := by
  cases h with
  | create h => exact .create h
  | enter h id => exact .enter h id
  | submit job => exact .submit job
  | name hjob hfiles =>
    obtain ⟨j', hjob', hentity, -⟩ := hkeeps _ _ hjob
    exact .name hjob' (hentity ▸ hfiles)
  | seek hjob hfiles id =>
    obtain ⟨j', hjob', hentity, -⟩ := hkeeps _ _ hjob
    exact .seek hjob' (hentity ▸ hfiles) id
  | gather hjob hfiles hsplit hnames =>
    obtain ⟨j', hjob', hentity, hsize⟩ := hkeeps _ _ hjob
    exact .gather hjob' (hentity ▸ hfiles) (hsize ▸ hsplit) hnames
  | inspect job inspection => exact .inspect job inspection
  | close job => exact .close job

/-- A call begins to make its steps, or is answered without any. -/
theorem start (root : String) (m : Memory) (call : Call) (hkeyed : View.Keyed g.job?) :
    Outcome root m g call [] ((call.program root).atDisk m, g) := by
  cases call with
  | create r =>
    rw [atDisk_create]
    cases hdirectory : directoryOn root r.entity m with
    | ok directory => exact .kept (.create hdirectory)
    | error e =>
      refine .answered rfl hkeyed (answers_same ?_ ?_ fun _ => rfl)
      · simp [Call.takes, hdirectory]
      · simp [Call.serve, Call.found, hdirectory]
  | submit job =>
    rw [atDisk_submit]
    exact .kept (.submit job)
  | inspect job inspection =>
    rw [Call.program, Inspection.atDisk_program]
    exact .kept (.inspect job inspection)
  | close job =>
    rw [atDisk_close]
    exact .kept (.close job)

theorem advance_seek (m : Memory) (g : Registry) (job : String)
    (next : StagedJob → Program service Answer) :
    g.advance m (Staged.seek job next) = (match g.job? job with
      | some j => next j
      | none => .done (.error (.remote (.unknownJob job))), g) :=
  rfl

theorem advance_adding (m : Memory) (g : Registry) (job : String) (split : Bool)
    (files : List (String × String)) (names : List String) :
    g.advance m (adding job split files names) =
      (.done (((g.add job (submission job split files names)).1.mapError ExtractError.remote).map
        fun _ => .batch (primary job split names)),
        (g.add job (submission job split files names)).2) :=
  rfl

/-- A step leaves all jobs as they are, or is the one that answers the call. -/
theorem advance (h : Pending root m g.job? call names p) (hkeyed : View.Keyed g.job?) :
    Outcome root m g call names (g.advance m p) := by
  cases h with
  | create h => exact .named (.enter h _)
  | enter h id =>
    refine .answered rfl (hkeyed.enter _) (answers_enter ?_ ?_ rfl)
    · simp [Call.takes, h]
    · simp [Call.serve, h]
  | submit job =>
    rw [submitting, advance_seek]
    cases hjob : g.job? job with
    | none =>
      refine .answered rfl hkeyed (answers_same ?_ ?_ fun _ => rfl)
      · simp [Call.takes, Call.found, hjob]
      · simp [Call.serve, Call.found, hjob]
    | some j =>
      dsimp only
      cases hfiles : filesOn root j.info.entity m with
      | ok files => exact .kept (.name hjob hfiles)
      | error e =>
        refine .answered rfl hkeyed (answers_same ?_ ?_ fun _ => rfl)
        · simp [Call.takes, Call.found, hjob, hfiles]
        · simp [Call.serve, Call.found, hjob, hfiles]
  | name hjob hfiles => exact .named (.seek hjob hfiles _)
  | seek hjob hfiles id =>
    rw [Staging.named, advance_seek, hjob]
    refine .kept (.gather hjob hfiles rfl ?_)
    unfold needed
    split <;> simp [Nat.add_comm]
  | @gather job j files split names n hjob hfiles hsplit hnames =>
    cases n with
    | succ n =>
      refine .named (.gather hjob hfiles hsplit ?_)
      rw [List.length_append, List.length_singleton]
      omega
    | zero =>
      have htakes : names.length = (Call.submit job).takes root m (g.job? job) := by
        simp [Call.takes, hjob, hfiles, hsplit, ← hnames]
      rw [Staging.gather, advance_adding, Registry.add, hjob]
      by_cases hopen : j.info.state = .opened
      · dsimp only
        rw [if_pos hopen]
        refine .answered rfl (hkeyed.enter _)
          (answers_enter htakes ?_ (congrArg some (hkeyed job j hjob).symm))
        simp [Call.serve, Call.found, hjob, hfiles, hsplit, hopen, Except.mapError, Except.map]
      · dsimp only
        rw [if_neg hopen]
        refine .answered rfl hkeyed (answers_same htakes ?_ fun h => by cases h)
        simp [Call.serve, Call.found, hjob, hfiles, hopen, Except.mapError, Except.map]
  | inspect job inspection =>
    have hanswers := answers_inspect root m g.job? job inspection
    rw [advance_seek]
    cases hjob : g.job? job with
    | none =>
      rw [hjob] at hanswers
      exact .answered rfl hkeyed hanswers
    | some j =>
      rw [hjob] at hanswers
      exact .answered rfl hkeyed hanswers
  | close job =>
    change Outcome root m g (.close job) []
      (.done (((g.close job).1.mapError ExtractError.remote).map .job), (g.close job).2)
    rw [Registry.close]
    cases hjob : g.job? job with
    | none =>
      refine .answered rfl hkeyed (answers_same rfl ?_ fun _ => rfl)
      simp [Call.serve, Call.found, hjob, Except.mapError, Except.map]
    | some j =>
      refine .answered rfl (hkeyed.enter j.closed) (answers_enter rfl ?_
        (congrArg some (hkeyed job j hjob).symm))
      simp [Call.serve, Call.found, hjob, Except.mapError, Except.map, StagedJob.closed]

theorem exists_ask (h : Pending root m v call names p) : ∃ r next, p = .ask r next := by
  cases h with
  | @gather job j files split names n => cases n <;> exact ⟨_, _, rfl⟩
  | _ => exact ⟨_, _, rfl⟩

end Pending

/-- A program that only reads the disk goes on behind its next request. -/
theorem onDisk_advance {p : Program service Answer} (h : p.MakesOnly Request.Reads) (g : Registry)
    (m : Memory) :
    Staged.onDisk (p : Staged Told) g m = Staged.onDisk (g.advance m p).1 (g.advance m p).2 m := by
  cases p with
  | done x => rfl
  | ask r next =>
    cases r with
    | disk r =>
      change Staged.onDisk (next (Memory.answer r m).1) g (Memory.answer r m).2 = _
      rw [h.1 r rfl m]
      rfl
    | _ => rfl

section Alone

variable {root : String} {m : Memory} {call : Call}

/-- What is left of a call is answered if nobody else takes a step. -/
theorem Pending.onDisk {p : Program service Answer} {g : Registry} {names : List String}
    (hreads : p.MakesOnly Request.Reads) (h : Pending root m g.job? call names p)
    (hkeyed : View.Keyed g.job?) :
    ∃ x g' n, Staged.onDisk (p : Staged Told) g m = ((x, g'), m) ∧
      Answers root m g.job? g'.job? call
        (names ++ (List.range' g.nextNumber n).map (nameOf call.lead)) x ∧
      g'.nextNumber = g.nextNumber + n ∧ View.Keyed g'.job? := by
  -- by induction on what is left, which each step makes shorter as long as it does not answer
  induction p generalizing g names with
  | done x =>
    obtain ⟨r, next, hask⟩ := h.exists_ask
    cases hask
  | ask r next ih =>
    rw [onDisk_advance hreads]
    have houtcome := h.advance hkeyed
    obtain ⟨reply, hreply⟩ : ∃ reply, (g.advance m (.ask r next)).1 = next reply := ⟨_, rfl⟩
    generalize g.advance m (.ask r next) = stepped at houtcome hreply
    cases houtcome with
    | kept pending =>
      subst hreply
      exact ih reply (hreads.2 reply) pending hkeyed
    | named pending =>
      subst hreply
      obtain ⟨x, g', n, hrun, hanswers, hnumber, hkeyed'⟩ :=
        ih reply (g := { g with nextNumber := g.nextNumber + 1 }) (hreads.2 reply) pending hkeyed
      refine ⟨x, g', n + 1, hrun, ?_, hnumber.trans (by dsimp only; omega), hkeyed'⟩
      rw [List.append_assoc] at hanswers
      exact hanswers
    | @answered x g' number keyed answers =>
      refine ⟨x, g', 0, rfl, ?_, number, keyed⟩
      rw [List.range'_zero, List.map_nil, List.append_nil]
      exact answers

/-- A call is answered if nobody else takes a step, its names being numbered one after the other. -/
theorem onDisk_program (root : String) (m : Memory) (call : Call) {g : Registry}
    (hkeyed : View.Keyed g.job?) :
    ∃ x g' n, Staged.onDisk (call.program root) g m = ((x, g'), m) ∧
      Answers root m g.job? g'.job? call ((List.range' g.nextNumber n).map (nameOf call.lead)) x ∧
      g'.nextNumber = g.nextNumber + n ∧ View.Keyed g'.job? := by
  rw [Staged.onDisk_eq_atDisk (reads_program root call)]
  have hreads := (reads_program root call).atDisk m
  have hstart := Pending.start root m call hkeyed
  generalize hleft : ((call.program root).atDisk m, g) = left at hstart
  cases hstart with
  | kept pending =>
    rw [(Prod.mk.inj hleft).1] at hreads ⊢
    exact pending.onDisk hreads hkeyed
  | named pending =>
    exact absurd (congrArg Registry.nextNumber (Prod.mk.inj hleft).2)
      (Nat.ne_of_lt (Nat.lt_succ_self _))
  | @answered x g' number keyed answers =>
    rw [(Prod.mk.inj hleft).1]
    obtain rfl := (Prod.mk.inj hleft).2
    exact ⟨x, g, 0, rfl, answers, rfl, hkeyed⟩

end Alone

end Staging

end Harvest
