import Harvest.Proofs.Staging.Serving
import Mathlib.Data.List.Flatten
import Mathlib.Data.List.Nodup

/-!
# Calls that happen one after the other

`Becomes` tells what a call that is answered can make of a job: a new job is entered, a job that is
open grows by a whole submission at its end, and a job is closed. So a job only ever grows, and it
stays as it is once it is closed (`StagedJob.Grows`). A `History` is a sequence of calls, each of
which finds the jobs as the one in front of it left them.
-/

namespace Harvest

open Disk (Memory)

namespace Staging

variable {ι : Type} {root : String} {m : Memory} {v v' v'' : View}

/-- The job that a call was about; that of a new job is known by the answer. -/
def subject : Call × Answer → Option String
  | (.create _, .ok (.job info)) => some info.id
  | (.create _, _) => none
  | (.submit job, _) => some job
  | (.inspect job _, _) => some job
  | (.close job, _) => some job

theorem Answers.subject_eq {call : Call} {names : List String} {x : Answer}
    (h : Answers root m v v' call names x) : subject (call, x) = call.job? names := by
  cases call with
  | create r =>
    have hlength := h.length
    rw [h.answer]
    simp only [Call.serve, Call.takes] at hlength ⊢
    cases hdirectory : directoryOn root r.entity m with
    | error e =>
      rw [hdirectory] at hlength
      rw [List.length_eq_zero_iff.1 hlength]
      rfl
    | ok directory =>
      rw [hdirectory] at hlength
      obtain ⟨id, rfl⟩ := List.length_eq_one_iff.1 hlength
      rfl
  | _ => rfl

/-- What becomes of a job by a call that takes these names and is answered. -/
inductive Becomes (root : String) (m : Memory) (names : List String) (job : String) :
    Call → Answer → Option StagedJob → Option StagedJob → Prop
  | rejected (call : Call) (e : ExtractError) (o : Option StagedJob) :
      Becomes root m names job call (.error e) o o
  | other (call : Call) (x : Answer) (o : Option StagedJob) (h : subject (call, x) ≠ some job) :
      Becomes root m names job call x o o
  | inspected (inspection : Inspection) (x : Answer) (o : Option StagedJob) :
      Becomes root m names job (.inspect job inspection) x o o
  | created (r : JobRequest) (hnames : names.head? = some job) :
      Becomes root m names job (.create r) (.ok (.job (StagedJob.created r job).info)) none
        (some (.created r job))
  | closed (j : StagedJob) : Becomes root m names job (.close job) (.ok (.job j.closed.info))
      (some j) (some j.closed)
  /-- The batch that was submitted is the first one of those behind the old ones. -/
  | submitted (j : StagedJob) (files : List (String × String)) (hopen : j.info.state = .opened)
      (hfiles : filesOn root j.info.entity m = .ok files)
      (hnames : names.length = needed j.chunkSize.isSome files) :
      Becomes root m names job (.submit job) (.ok (.batch (primary job j.chunkSize.isSome names)))
        (some j)
        (some { j with batches := j.batches ++ submission job j.chunkSize.isSome files names })

/-- A call that is answered does nothing else to a job. -/
theorem Answers.becomes {call : Call} {names : List String} {x : Answer}
    (h : Answers root m v v' call names x)
    (hfresh : ∀ r, call = .create r → ∀ id ∈ names, v id = none) (job : String) :
    Becomes root m names job call x (v job) (v' job) := by
  rw [h.jobs]
  split
  case isFalse hjob => exact .other _ _ _ (h.subject_eq ▸ hjob)
  case isTrue hjob =>
    have hlength := h.length
    rw [h.answer]
    cases call with
    | create r =>
      obtain ⟨rest, rfl⟩ : ∃ rest, names = job :: rest := List.head?_eq_some_iff.1 hjob
      rw [hfresh r rfl job List.mem_cons_self]
      simp only [Call.serve, Call.found, Call.takes] at hlength ⊢
      cases hdirectory : directoryOn root r.entity m with
      | ok directory => exact .created r hjob
      | error e => exact .rejected ..
    | submit other =>
      obtain rfl : other = job := Option.some.inj hjob
      simp only [Call.serve, Call.found, Call.takes] at hlength ⊢
      cases hj : v other with
      | none => exact .rejected ..
      | some j =>
        rw [hj] at hlength
        dsimp only at hlength ⊢
        cases hfiles : filesOn root j.info.entity m with
        | error e => exact .rejected ..
        | ok files =>
          rw [hfiles] at hlength
          dsimp only
          by_cases hopen : j.info.state = .opened
          · rw [if_pos hopen]
            exact .submitted j files hopen hfiles hlength
          · rw [if_neg hopen]
            exact .rejected ..
    | inspect other inspection =>
      obtain rfl : other = job := Option.some.inj hjob
      simp only [Call.serve, Call.found]
      cases hj : v other <;> exact .inspected ..
    | close other =>
      obtain rfl : other = job := Option.some.inj hjob
      simp only [Call.serve, Call.found]
      cases hj : v other with
      | none => exact .rejected ..
      | some j => exact .closed j

/-- A job later on: batches are only added at the end, and once it is closed nothing changes. -/
structure StagedJob.Grows (j j' : StagedJob) : Prop where
  batches : j.batches <+: j'.batches
  size : j'.chunkSize = j.chunkSize
  info : j'.info = j.info ∨ j'.info = j.closed.info
  closed : j.info.state = .closed → j' = j

namespace StagedJob.Grows

variable {j j' j'' : StagedJob}

theorem refl (j : StagedJob) : j.Grows j := ⟨List.prefix_rfl, rfl, .inl rfl, fun _ => rfl⟩

theorem trans (h : j.Grows j') (h' : j'.Grows j'') : j.Grows j'' where
  batches := h.batches.trans h'.batches
  size := h'.size.trans h.size
  info := by
    rcases h'.info with hinfo | hinfo <;> rcases h.info with hinfo' | hinfo'
    · exact .inl (hinfo.trans hinfo')
    · exact .inr (hinfo.trans hinfo')
    all_goals exact .inr (by rw [hinfo, StagedJob.closed, hinfo', StagedJob.closed])
  closed := by
    intro hclosed
    obtain rfl := h.closed hclosed
    exact h'.closed hclosed

theorem entity (h : j.Grows j') : j'.info.entity = j.info.entity := by
  rcases h.info with hinfo | hinfo <;> rw [hinfo]
  rfl

end StagedJob.Grows

theorem StagedJob.grows_closed (j : StagedJob) : j.Grows j.closed where
  batches := List.prefix_rfl
  size := rfl
  info := .inr rfl
  closed := by
    intro hclosed
    rw [StagedJob.closed, ← hclosed]

theorem Becomes.grows {names : List String} {job : String} {call : Call} {x : Answer}
    {j : StagedJob} {o' : Option StagedJob} (h : Becomes root m names job call x (some j) o') :
    ∃ j', o' = some j' ∧ j.Grows j' := by
  cases h with
  | rejected | other | inspected => exact ⟨j, rfl, .refl j⟩
  | closed => exact ⟨_, rfl, j.grows_closed⟩
  | submitted _ files hopen =>
    refine ⟨_, rfl, List.prefix_append .., rfl, .inl rfl, fun hclosed => ?_⟩
    rw [hopen] at hclosed
    cases hclosed

/-- A call of a client that happened at once: the names that it took and the answer. -/
structure Event (ι : Type) where
  client : ι
  call : Call
  names : List String
  answer : Answer

/-- What the client knows of it. -/
def Event.entry (e : Event ι) : Call × Answer := (e.call, e.answer)

/-- The names that were taken. -/
def taken (h : List (Event ι)) : List String := h.flatMap Event.names

theorem taken_cons (e : Event ι) (h : List (Event ι)) : taken (e :: h) = e.names ++ taken h := rfl

theorem taken_append (h h' : List (Event ι)) : taken (h ++ h') = taken h ++ taken h' :=
  List.flatMap_append

/-- Each call finds the jobs as they were left by the one in front of it. -/
inductive History (root : String) (m : Memory) : View → List (Event ι) → View → Prop
  | nil (v : View) : History root m v [] v
  | cons {v v' v'' : View} {e : Event ι} {h : List (Event ι)}
      (first : Answers root m v v' e.call e.names e.answer) (rest : History root m v' h v'') :
      History root m v (e :: h) v''

namespace History

variable {h h' : List (Event ι)}

theorem append (hh : History root m v h v') (hh' : History root m v' h' v'') :
    History root m v (h ++ h') v'' := by
  induction hh with
  | nil v => exact hh'
  | cons first rest ih => exact .cons first (ih hh')

theorem exists_answers (hh : History root m v h v') {e : Event ι} (he : e ∈ h) :
    ∃ w w', Answers root m w w' e.call e.names e.answer := by
  induction hh with
  | nil v => cases he
  | cons first rest ih =>
    rcases List.mem_cons.1 he with rfl | hrest
    · exact ⟨_, _, first⟩
    · exact ih hrest

end History

/-- The names that are handed out with an answer: that of a new job, or of a batch that was
submitted. -/
def handedOut : Call × Answer → List String
  | (.create _, .ok (.job info)) => [info.id]
  | (.submit _, .ok (.batch info)) => [info.id]
  | _ => []

/-- What is handed out is among the names that were taken. -/
theorem Answers.handedOut_sublist {call : Call} {names : List String} {x : Answer}
    (h : Answers root m v v' call names x) : (handedOut (call, x)).Sublist names := by
  have hhead (hnames : names.length ≠ 0) : [names.headD ""].Sublist names := by
    cases names with
    | nil => exact absurd rfl hnames
    | cons id rest => exact List.singleton_sublist.2 List.mem_cons_self
  have hlength := h.length
  rw [h.answer]
  cases call with
  | create r =>
    simp only [Call.serve, Call.takes] at hlength ⊢
    cases hdirectory : directoryOn root r.entity m with
    | ok directory =>
      rw [hdirectory] at hlength
      exact hhead (by simp [hlength])
    | error e => exact List.nil_sublist _
  | submit job =>
    simp only [Call.serve, Call.takes] at hlength ⊢
    cases hjob : (Call.submit job).found v with
    | none => exact List.nil_sublist _
    | some j =>
      rw [hjob] at hlength
      dsimp only at hlength ⊢
      cases hfiles : filesOn root j.info.entity m with
      | error e => exact List.nil_sublist _
      | ok files =>
        rw [hfiles] at hlength
        dsimp only
        split
        · exact hhead (hlength ▸ needed_ne_zero _ _)
        · exact List.nil_sublist _
  | inspect job inspection => exact List.nil_sublist _
  | close job => exact List.nil_sublist _

/-- The names of the batches of a job. -/
def StagedJob.ids (j : StagedJob) : List String := j.batches.map (·.info.id)

/-- The batches of a submission have the names that were taken for it. -/
theorem map_id_submission {split : Bool} {files : List (String × String)} {names : List String}
    (h : names.length = needed split files) (job : String) :
    (submission job split files names).map (·.info.id) = names := by
  cases names with
  | nil => exact absurd h.symm (needed_ne_zero split files)
  | cons id rest =>
    have hrest : rest.length = if split then files.length else 0 := by
      cases split <;> simpa [needed] using h
    have hids : (List.zipWith (fun id (file : String × String) =>
        (⟨⟨id, job, .completed, none⟩, [file]⟩ : StagedBatch)) rest files).map (·.info.id) =
          rest := by
      rw [List.map_zipWith, ← List.map_uncurry_zip_eq_zipWith]
      refine (List.map_congr_left fun p _ => rfl).trans (List.map_fst_zip ?_)
      rw [hrest]
      split <;> omega
    exact congrArg (id :: ·) hids

/-- A job gets the names for its batches that a submission to it took, and no others. -/
theorem Becomes.ids {names : List String} {job : String} {call : Call} {x : Answer}
    {o : Option StagedJob} {j' : StagedJob} (h : Becomes root m names job call x o (some j')) :
    o = none ∧ job ∈ names ∧ j'.ids = [] ∨
      ∃ j, o = some j ∧ (j'.ids = j.ids ∨ call = .submit job ∧ j'.ids = j.ids ++ names) := by
  cases h with
  | rejected | other | inspected => exact .inr ⟨j', rfl, .inl rfl⟩
  | created r hnames => exact .inl ⟨rfl, List.mem_of_head? hnames, rfl⟩
  | closed j => exact .inr ⟨j, rfl, .inl rfl⟩
  | submitted j files hopen hfiles hnames =>
    refine .inr ⟨j, rfl, .inr ⟨rfl, ?_⟩⟩
    rw [StagedJob.ids, List.map_append, map_id_submission hnames]
    rfl

theorem Becomes.mem_ids {names : List String} {job : String} {call : Call} {x : Answer}
    {o : Option StagedJob} {j' : StagedJob} (h : Becomes root m names job call x o (some j'))
    {id : String} (hid : id ∈ j'.ids) :
    (∃ j, o = some j ∧ id ∈ j.ids) ∨ call = .submit job ∧ id ∈ names := by
  rcases h.ids with ⟨-, -, hids⟩ | ⟨j, hj, hids | ⟨hcall, hids⟩⟩ <;> rw [hids] at hid
  · cases hid
  · exact .inl ⟨j, hj, hid⟩
  · rcases List.mem_append.1 hid with hid | hid
    · exact .inl ⟨j, hj, hid⟩
    · exact .inr ⟨hcall, hid⟩

end Staging

end Harvest
