import Harvest.Proofs.Footprint
import Harvest.Proofs.Local.Hosting

/-!
# A job is closed once

Whatever the services answer and wherever an extraction ends, its exchanges have one of few shapes
(`Extraction.Life`): no job was created; or the job that was created is worked on and then shut,
and shut once more only if the first attempt failed. That the job is never left open and never
closed twice is read off these shapes (`Extraction.extract_closes_job`).
-/

namespace Harvest

open Program (Trace Exchange Asks)
open Engine

/-- The job that a request is about. -/
def Request.job? : Request → Option String
  | .jobStatus job => some job
  | .closeJob job => some job
  | .submitBatch job _ => some job
  | .batchStatus job _ => some job
  | .listBatches job => some job
  | .listResults job _ => some job
  | .openResult job _ => some job
  | _ => none

/-- The kinds of requests that create, close or look at a job. -/
def guardKinds : List Request.Kind := [.create, .status, .close]

/-- The kinds of requests that work on a job. -/
def workKinds : List Request.Kind := [.batch, .results, .stream]

/-- The exchange is none in which a job is not looked at or not closed because of an error. -/
def obliges : Exchange services → Bool
  | ⟨.jobStatus _, .error _⟩ => false
  | ⟨.closeJob _, .error _⟩ => false
  | _ => true

section Logs

variable (log : List (Exchange services))

/-- No exchange is about a job. -/
def Outside : Prop := ∀ x ∈ log, x.request.kind ∉ guardKinds ++ workKinds

/-- The exchanges may work on a job, but neither create nor close nor look at one. -/
def Works : Prop := ∀ x ∈ log, x.request.kind ∉ guardKinds

/-- A job is closed only directly behind an answer by which it is not closed. Behind that no job is
worked on, and if it succeeded none is asked for at all. -/
def ClosesOnce : Prop :=
  ∀ before job reply after, log = before ++ ⟨.closeJob job, reply⟩ :: after →
    (∃ earlier status, before = earlier ++ [⟨.jobStatus job, .ok status⟩] ∧
      status.state ≠ .closed) ∧
    (∀ x ∈ after, x.request.kind ∉ workKinds) ∧
    ∀ info, reply = .ok info → ∀ x ∈ after, x.request.job? = none

/-- Every question for the state of a job and every request to close one succeeds. -/
def Obliging : Prop := ∀ x ∈ log, obliges x = true

instance : Decidable (Obliging log) := inferInstanceAs (Decidable (∀ x ∈ log, obliges x = true))

/-- The job was closed, or it was reported closed when it was asked for last. -/
def Settled (job : String) : Prop :=
  (∃ info, ⟨.closeJob job, .ok info⟩ ∈ log) ∨
    ∃ before status after, log = before ++ ⟨.jobStatus job, .ok status⟩ :: after ∧
      status.state = .closed ∧ ∀ x ∈ after, x.request.job? = none

end Logs

section Shapes

variable {log first rest : List (Exchange services)} {job : String}

theorem Request.job?_eq_none (r : Request) (h : r.kind ∉ guardKinds ++ workKinds) :
    r.job? = none := by
  cases r <;> first | rfl | simp [kind, guardKinds, workKinds] at h

theorem Outside.works (h : Outside log) : Works log :=
  fun x hx hkind => h x hx (List.mem_append_left _ hkind)

theorem Outside.job?_eq_none (h : Outside log) : ∀ x ∈ log, x.request.job? = none :=
  fun x hx => x.request.job?_eq_none (h x hx)

theorem Outside.append (h : Outside first) (h' : Outside rest) : Outside (first ++ rest) :=
  List.forall_mem_append.2 ⟨h, h'⟩

theorem Works.append (h : Works first) (h' : Works rest) : Works (first ++ rest) :=
  List.forall_mem_append.2 ⟨h, h'⟩

theorem closesOnce_nil : ClosesOnce [] := by
  intro before job reply after h
  cases before <;> cases h

/-- Other exchanges in front. -/
theorem ClosesOnce.cons {x : Exchange services} (hx : x.request.kind ≠ .close)
    (h : ClosesOnce log) : ClosesOnce (x :: log) := by
  intro before job reply after heq
  cases before with
  | nil =>
    injection heq with hhead
    exact absurd (congrArg (·.request.kind) hhead) hx
  | cons y before =>
    injection heq with hhead htail
    obtain ⟨⟨earlier, status, rfl, hstate⟩, hafter⟩ := h before job reply after htail
    exact ⟨⟨y :: earlier, status, rfl, hstate⟩, hafter⟩

theorem ClosesOnce.append (hfirst : ∀ x ∈ first, x.request.kind ≠ .close) (h : ClosesOnce log) :
    ClosesOnce (first ++ log) := by
  induction first with
  | nil => exact h
  | cons x first ih =>
    obtain ⟨hx, hfirst⟩ := List.forall_mem_cons.1 hfirst
    exact (ih hfirst).cons hx

theorem closesOnce_of_works (h : Works log) : ClosesOnce log := by
  rw [← List.append_nil log]
  refine closesOnce_nil.append fun x hx hkind => h x hx ?_
  rw [hkind]
  decide

/-- A job is closed behind an answer by which it is open. -/
theorem closesOnce_close {status : JobInfo} {reply : Except ExtractError JobInfo}
    (hstate : status.state ≠ .closed) (hrest : ClosesOnce rest)
    (hwork : ∀ x ∈ rest, x.request.kind ∉ workKinds)
    (hok : ∀ info, reply = .ok info → ∀ x ∈ rest, x.request.job? = none) :
    ClosesOnce (⟨.jobStatus job, .ok status⟩ :: ⟨.closeJob job, reply⟩ :: rest) := by
  intro before job' reply' after heq
  cases before with
  | nil => cases heq
  | cons x before =>
    injection heq with hx heq
    subst hx
    cases before with
    | nil =>
      cases heq
      exact ⟨⟨[], status, rfl, hstate⟩, hwork, hok⟩
    | cons y before =>
      injection heq with hy heq
      subst hy
      obtain ⟨⟨earlier, status', rfl, hstate'⟩, hafter⟩ := hrest before job' reply' after heq
      exact ⟨⟨_ :: _ :: earlier, status', rfl, hstate'⟩, hafter⟩

theorem Settled.append (first : List (Exchange services)) (h : Settled log job) :
    Settled (first ++ log) job := by
  rcases h with ⟨info, hmem⟩ | ⟨before, status, after, rfl, hstate, hafter⟩
  · exact .inl ⟨info, List.mem_append_right _ hmem⟩
  · exact .inr ⟨first ++ before, status, after, (List.append_assoc _ _ _).symm, hstate, hafter⟩

/-- The exchanges of an attempt to shut a job, and how it ends. -/
inductive Shut (job : String) : List (Exchange services) → Except ExtractError JobInfo → Prop
  | unknown (e : ExtractError) : Shut job [⟨.jobStatus job, .error e⟩] (.error e)
  | already (status : JobInfo) (h : status.state = .closed) :
    Shut job [⟨.jobStatus job, .ok status⟩] (.ok status)
  | closed (status : JobInfo) (reply : Except ExtractError JobInfo) (h : status.state ≠ .closed) :
    Shut job [⟨.jobStatus job, .ok status⟩, ⟨.closeJob job, reply⟩] reply

theorem Shut.kind {result : Except ExtractError JobInfo} (h : Shut job log result) :
    ∀ x ∈ log, x.request.kind ∈ [Request.Kind.status, .close] := by
  cases h with
  | unknown e => exact List.forall_mem_singleton.2 (List.mem_cons_self)
  | already status h => exact List.forall_mem_singleton.2 (List.mem_cons_self)
  | closed status reply h =>
    exact List.forall_mem_cons.2 ⟨List.mem_cons_self,
      List.forall_mem_singleton.2 (List.mem_cons_of_mem _ List.mem_cons_self)⟩

theorem Shut.kind_not_work {result : Except ExtractError JobInfo} (h : Shut job log result) :
    ∀ x ∈ log, x.request.kind ∉ workKinds := by
  intro x hx hwork
  rcases List.mem_cons.1 (h.kind x hx) with hkind | hkind
  · rw [hkind] at hwork
    revert hwork
    decide
  · rw [List.mem_singleton.1 hkind] at hwork
    revert hwork
    decide

theorem Shut.closesOnce {result : Except ExtractError JobInfo} (h : Shut job log result)
    (hrest : ClosesOnce rest) (hwork : ∀ x ∈ rest, x.request.kind ∉ workKinds)
    (hok : ∀ info, result = .ok info → ∀ x ∈ rest, x.request.job? = none) :
    ClosesOnce (log ++ rest) := by
  cases h with
  | unknown e => exact hrest.cons (by simp [Request.kind])
  | already status h => exact hrest.cons (by simp [Request.kind])
  | closed status reply h => exact closesOnce_close h hrest hwork hok

/-- What happens to a job that is known: it is worked on and then shut, and once more if the first
attempt failed. -/
inductive Ended (job : String) : List (Exchange services) → Prop
  | once (work shut after : List (Exchange services)) (result : Except ExtractError JobInfo)
      (hwork : Works work) (hshut : Shut job shut result) (hafter : Outside after) :
    Ended job (work ++ (shut ++ after))
  | twice (work shut again : List (Exchange services)) (e : ExtractError)
      (result : Except ExtractError JobInfo) (hwork : Works work) (hshut : Shut job shut (.error e))
      (hagain : Shut job again result) :
    Ended job (work ++ (shut ++ ⟨.dropSink, ()⟩ :: again))

theorem Ended.append (hfirst : Works first) (h : Ended job log) : Ended job (first ++ log) := by
  cases h with
  | once work shut after result hwork hshut hafter =>
    rw [← List.append_assoc]
    exact .once _ shut after result (hfirst.append hwork) hshut hafter
  | twice work shut again e result hwork hshut hagain =>
    rw [← List.append_assoc]
    exact .twice _ shut again e result (hfirst.append hwork) hshut hagain

theorem Works.kind_ne_close (h : Works log) : ∀ x ∈ log, x.request.kind ≠ .close := by
  intro x hx hkind
  refine h x hx ?_
  rw [hkind]
  decide

theorem Ended.closesOnce (h : Ended job log) : ClosesOnce log := by
  cases h with
  | once work shut after result hwork hshut hafter =>
    refine (hshut.closesOnce (closesOnce_of_works hafter.works) ?_ ?_).append hwork.kind_ne_close
    · exact fun x hx hkind => hafter x hx (List.mem_append_right _ hkind)
    · exact fun info _ => hafter.job?_eq_none
  | twice work shut again e result hwork hshut hagain =>
    have hlast : ClosesOnce (again ++ []) := hagain.closesOnce closesOnce_nil (by simp) (by simp)
    rw [List.append_nil] at hlast
    refine (hshut.closesOnce (hlast.cons (by simp [Request.kind])) ?_ ?_).append
      hwork.kind_ne_close
    · exact List.forall_mem_cons.2 ⟨by simp [Request.kind, workKinds], hagain.kind_not_work⟩
    · intro info h
      cases h

theorem Ended.kind_ne_create (h : Ended job log) : ∀ x ∈ log, x.request.kind ≠ .create := by
  have hworks {log : List (Exchange services)} (h : Works log) :
      ∀ x ∈ log, x.request.kind ≠ .create := fun x hx hkind => h x hx (hkind ▸ List.mem_cons_self)
  have hshuts {log : List (Exchange services)} {result : Except ExtractError JobInfo}
      (h : Shut job log result) : ∀ x ∈ log, x.request.kind ≠ .create := by
    intro x hx hkind
    have := h.kind x hx
    rw [hkind] at this
    simp at this
  cases h with
  | once work shut after result hwork hshut hafter =>
    exact List.forall_mem_append.2 ⟨hworks hwork,
      List.forall_mem_append.2 ⟨hshuts hshut, hworks hafter.works⟩⟩
  | twice work shut again e result hwork hshut hagain =>
    exact List.forall_mem_append.2 ⟨hworks hwork, List.forall_mem_append.2 ⟨hshuts hshut,
      List.forall_mem_cons.2 ⟨by simp [Request.kind], hshuts hagain⟩⟩⟩

/-- Where the service obliges, the job is settled. -/
theorem Ended.settled (h : Ended job log) (hok : Obliging log) : Settled log job := by
  cases h with
  | once work shut after result hwork hshut hafter =>
    refine Settled.append work ?_
    cases hshut with
    | unknown e => exact absurd (hok ⟨.jobStatus job, .error e⟩ (by simp)) (by simp [obliges])
    | already status h => exact .inr ⟨[], status, after, rfl, h, hafter.job?_eq_none⟩
    | closed status _ h =>
      cases result with
      | error e => exact absurd (hok ⟨.closeJob job, .error e⟩ (by simp)) (by simp [obliges])
      | ok info => exact .inl ⟨info, by simp⟩
  | twice work shut again e result hwork hshut hagain =>
    cases hshut with
    | unknown e => exact absurd (hok ⟨.jobStatus job, .error e⟩ (by simp)) (by simp [obliges])
    | closed status reply h =>
      exact absurd (hok ⟨.closeJob job, .error e⟩ (by simp)) (by simp [obliges])

/-- The exchanges of an extraction: no job, one that could not be created, one whose state could
not be asked for and that was shut as far as possible, or one that went through its life. -/
inductive Extraction.Life : List (Exchange services) → Prop
  | jobless (log : List (Exchange services)) (h : Outside log) : Life log
  | refused (before : List (Exchange services)) (r : JobRequest) (e : ExtractError)
      (h : Outside before) : Life (before ++ [⟨.createJob r, .error e⟩])
  | unknown (before : List (Exchange services)) (r : JobRequest) (created : JobInfo)
      (e : ExtractError) (shut : List (Exchange services)) (result : Except ExtractError JobInfo)
      (h : Outside before) (hshut : Shut created.id shut result) :
    Life (before ++ ⟨.createJob r, .ok created⟩ :: ⟨.jobStatus created.id, .error e⟩ :: shut)
  | known (before : List (Exchange services)) (r : JobRequest) (created info : JobInfo)
      (rest : List (Exchange services)) (h : Outside before) (hrest : Ended info.id rest) :
    Life (before ++ ⟨.createJob r, .ok created⟩ :: ⟨.jobStatus created.id, .ok info⟩ :: rest)

namespace Extraction

theorem Life.append (hfirst : Outside first) (h : Life log) : Life (first ++ log) := by
  cases h with
  | jobless _ h => exact .jobless _ (hfirst.append h)
  | refused before r e h =>
    rw [← List.append_assoc]
    exact .refused _ r e (hfirst.append h)
  | unknown before r created e shut result h hshut =>
    rw [← List.append_assoc]
    exact .unknown _ r created e shut result (hfirst.append h) hshut
  | known before r created info rest h hrest =>
    rw [← List.append_assoc]
    exact .known _ r created info rest (hfirst.append h) hrest

theorem Life.closesOnce (h : Life log) : ClosesOnce log := by
  cases h with
  | jobless _ h => exact closesOnce_of_works h.works
  | refused before r e h =>
    exact (closesOnce_nil.cons (by simp [Request.kind])).append h.works.kind_ne_close
  | unknown before r created e shut result h hshut =>
    have hlast : ClosesOnce (shut ++ []) := hshut.closesOnce closesOnce_nil (by simp) (by simp)
    rw [List.append_nil] at hlast
    exact ((hlast.cons (by simp [Request.kind])).cons (by simp [Request.kind])).append
      h.works.kind_ne_close
  | known before r created info rest h hrest =>
    exact ((hrest.closesOnce.cons (by simp [Request.kind])).cons (by simp [Request.kind])).append
      h.works.kind_ne_close

/-- The job that was created is the one of its request. -/
theorem eq_of_mem_create {before rest : List (Exchange services)} {x y : Exchange services}
    (hbefore : Outside before) (hrest : ∀ x ∈ rest, x.request.kind ≠ .create)
    (hy : y.request.kind = .create) (h : y ∈ before ++ x :: rest) : y = x := by
  rcases List.mem_append.1 h with h | h
  · exact absurd (hy ▸ List.mem_cons_self) (hbefore.works y h)
  · rcases List.mem_cons.1 h with h | h
    · exact h
    · exact absurd hy (hrest y h)

theorem Life.settled (h : Life log) (hok : Obliging log) {r : JobRequest} {created : JobInfo}
    (hcreated : ⟨.createJob r, .ok created⟩ ∈ log) :
    ∃ info, ⟨.jobStatus created.id, .ok info⟩ ∈ log ∧ Settled log info.id := by
  cases h with
  | jobless _ h => exact absurd List.mem_cons_self (h.works _ hcreated)
  | refused before r' e h => cases eq_of_mem_create h (by simp) rfl hcreated
  | unknown before r' created' e shut result h hshut =>
    exact absurd (hok ⟨.jobStatus created'.id, .error e⟩ (by simp)) (by simp [obliges])
  | known before r' created' info rest h hrest =>
    have hnone : ∀ x ∈ (⟨.jobStatus created'.id, .ok info⟩ : Exchange services) :: rest,
        x.request.kind ≠ .create :=
      List.forall_mem_cons.2 ⟨by simp [Request.kind], hrest.kind_ne_create⟩
    cases eq_of_mem_create h hnone rfl hcreated
    have hrestOk : Obliging rest := fun x hx => hok x (by simp [hx])
    refine ⟨info, by simp, ?_⟩
    rw [List.append_cons, List.append_cons]
    exact (hrest.settled hrestOk).append _

end Extraction

end Shapes

namespace OpenJob

variable (job : OpenJob) (log : List (Exchange services))

theorem shut_of_trace (result : Except ExtractError JobInfo) (ht : Trace job.shut log result) :
    Shut job.id log result := by
  rcases trace_asks_bind log (jobStatus job.id) _ result (fun reply => ⟨.jobStatus job.id, reply⟩)
      (fun first reply h => (trace_request_iff first (.jobStatus job.id) reply).1 h) ht with
    ⟨e, rfl, rfl⟩ | ⟨status, rest, rfl, hrest⟩
  · exact .unknown e
  · by_cases hclosed : status.state = .closed
    · rw [if_pos hclosed] at hrest
      obtain ⟨rfl, rfl⟩ := (trace_pure_iff rest _ result).1 hrest
      exact .already status hclosed
    · rw [if_neg hclosed] at hrest
      rw [(trace_request_iff rest (.closeJob job.id) result).1 hrest]
      exact .closed status result hclosed

/-- A job that is open is shut, and known to be closed if that succeeds. -/
theorem shut_of_trace_close (hopen : job.closed = false) (outcome : Except ExtractError Unit)
    (after : OpenJob) (ht : Trace job.close log (outcome, after)) :
    (∃ info, outcome = .ok () ∧ Shut job.id log (.ok info)) ∨
      ∃ e, outcome = .error e ∧ after = job ∧ Shut job.id log (.error e) := by
  rw [close, hopen] at ht
  obtain ⟨shut, last, reply, rfl, hshut, hlast⟩ := (Program.trace_bind_iff _ _ log _).1 ht
  have hshape := shut_of_trace job shut reply hshut
  cases reply with
  | ok info =>
    obtain ⟨rfl, heq⟩ := (Program.trace_done_iff _ _ last).1 hlast
    cases heq
    rw [List.append_nil]
    exact .inl ⟨info, rfl, hshape⟩
  | error e =>
    obtain ⟨rfl, heq⟩ := (Program.trace_done_iff _ _ last).1 hlast
    cases heq
    rw [List.append_nil]
    exact .inr ⟨e, rfl, rfl, hshape⟩

theorem shut_of_trace_drop (hopen : job.closed = false) (ht : Trace job.drop log ()) :
    ∃ result, Shut job.id log result := by
  obtain ⟨first, rest, ⟨outcome, after⟩, rfl, hfirst, hrest⟩ :=
    (Program.trace_bind_iff _ _ log _).1 ht
  obtain ⟨rfl, -⟩ := (Program.trace_done_iff _ _ rest).1 hrest
  rw [List.append_nil]
  rcases shut_of_trace_close job first hopen outcome after hfirst with
    ⟨info, -, hshut⟩ | ⟨e, -, -, hshut⟩
  · exact ⟨_, hshut⟩
  · exact ⟨_, hshut⟩

/-- A guarded program makes its own exchanges, and shuts the job where it ends with an error. -/
theorem trace_guarding {α : Type} (hopen : job.closed = false) (body : Engine α)
    (result : Except ExtractError α) (ht : Trace (job.guarding body) log result) :
    (∃ a, result = .ok a ∧ Trace body log (.ok a)) ∨
      ∃ e first shut outcome, result = .error e ∧ log = first ++ shut ∧
        Trace body first (.error e) ∧ Shut job.id shut outcome := by
  rcases (trace_onError_iff log job.drop body result).1 ht with
    ⟨a, h, rfl⟩ | ⟨e, first, rest, rfl, h, hrest, rfl⟩
  · exact .inl ⟨a, rfl, h⟩
  · obtain ⟨outcome, hshut⟩ := shut_of_trace_drop job rest hopen hrest
    exact .inr ⟨e, first, rest, outcome, rfl, rfl, h, hshut⟩

end OpenJob

theorem Program.Asks.works {α : Type} {p : Program services α} {kinds : List Request.Kind}
    {log : List (Exchange services)} {value : α} (h : p.Asks kinds) (ht : Trace p log value)
    (hkinds : ∀ k ∈ kinds, k ∉ guardKinds) : Works log :=
  fun x hx => hkinds _ (h.of_trace ht x hx)

theorem Program.Asks.outside {α : Type} {p : Program services α} {kinds : List Request.Kind}
    {log : List (Exchange services)} {value : α} (h : p.Asks kinds) (ht : Trace p log value)
    (hkinds : ∀ k ∈ kinds, k ∉ guardKinds ++ workKinds) : Outside log :=
  fun x hx => hkinds _ (h.of_trace ht x hx)

namespace JobPlan

variable (plan : JobPlan) (settings : Settings) (patience : Nat)

/-- The exchanges of a preparation: with an error a whole life of the job, or else its beginning. -/
theorem life_of_trace_prepare (log : List (Exchange services))
    (result : Except ExtractError PreparedJob)
    (ht : Trace (plan.prepare settings patience) log result) :
    (∃ e, result = .error e ∧ Extraction.Life log) ∨
      ∃ p before r created rest, result = .ok p ∧ p.job.closed = false ∧ Outside before ∧
        Works rest ∧ log = before ++ ⟨.createJob r, .ok created⟩ ::
          ⟨.jobStatus created.id, .ok p.job.info⟩ :: rest := by
  rcases (trace_bind_iff log _ _ result).1 ht with
    ⟨e, h, rfl⟩ | ⟨⟨chunked, known⟩, before, last, rfl, hbefore, hlast⟩
  · exact .inl ⟨e, rfl, .jobless _ ((plan.asks_useChunking settings).outside h (by decide))⟩
  have houtside := (plan.asks_useChunking settings).outside hbefore (by decide)
  let r : JobRequest := ⟨plan.entity, settings.operation, .parallel, .csv,
    if chunked then some settings.chunkSize else none⟩
  rcases trace_asks_bind last (createJob r) _ result (fun reply => ⟨.createJob r, reply⟩)
      (fun first reply h => (trace_request_iff first (.createJob r) reply).1 h) hlast with
    ⟨e, rfl, rfl⟩ | ⟨created, rest, rfl, hrest⟩
  · exact .inl ⟨e, rfl, .refused before r e houtside⟩
  rcases (trace_bind_iff rest _ _ result).1 hrest with
    ⟨e, h, rfl⟩ | ⟨info, first, final, rfl, hfirst, hfinal⟩
  · obtain ⟨a, ha, -⟩ | ⟨e', first, shut, outcome, he, rfl, hfirst, hshut⟩ :=
      OpenJob.trace_guarding (.ofInfo created) rest rfl _ _ h
    · cases ha
    · cases he
      rw [(trace_request_iff first (.jobStatus created.id) (.error e)).1 hfirst]
      exact .inl ⟨e, rfl, .unknown before r created e shut outcome houtside hshut⟩
  obtain ⟨info', hinfo, hasked⟩ | ⟨e, _, _, _, he, -⟩ :=
    OpenJob.trace_guarding (.ofInfo created) first rfl _ _ hfirst
  · cases hinfo
    rw [(trace_request_iff first (.jobStatus created.id) (.ok info)).1 hasked]
    have hasks := plan.asks_finish settings patience (.ofInfo info) chunked known
    obtain ⟨p, rfl, hp⟩ | ⟨e, work, shut, outcome, rfl, rfl, hwork, hshut⟩ :=
      OpenJob.trace_guarding (.ofInfo info) final rfl _ _ hfinal
    · have hjob := (ok_of_trace_finish hp).1
      refine .inr ⟨p, before, r, created, final, rfl, by rw [hjob]; rfl, houtside,
        hasks.works hp (by decide), ?_⟩
      rw [hjob]
      rfl
    · have hended := Ended.once work shut [] outcome
        (hasks.works hwork (by simp [guardKinds])) hshut (List.forall_mem_nil _)
      rw [List.append_nil] at hended
      exact .inl ⟨e, rfl, .known before r created info _ houtside hended⟩
  · cases he

end JobPlan

namespace Extraction

variable (c : RunContext) (e : EntityOptions)

/-- Every run of the program is a life of a job. -/
def Lives {α : Type} (x : Engine α) : Prop :=
  ∀ log (result : Except ExtractError α), Trace x log result → Life log

theorem Lives.andThen {α β : Type} {kinds : List Request.Kind} {x : Engine α} {f : α → Engine β}
    (h : Asks kinds x) (hkinds : ∀ k ∈ kinds, k ∉ guardKinds ++ workKinds)
    (hf : ∀ a, Lives (f a)) : Lives (x >>= f) := by
  intro log result ht
  rcases (trace_bind_iff log x f result).1 ht with ⟨e, hx, -⟩ | ⟨a, first, rest, rfl, hx, hrest⟩
  · exact .jobless log (h.outside hx hkinds)
  · exact (hf a rest result hrest).append (h.outside hx hkinds)

/-- The job is shut behind the rows, and once more, behind the sink, if that fails. -/
theorem trace_closeJob (job : OpenJob) (hopen : job.closed = false)
    (log : List (Exchange services)) (result : Except ExtractError Unit)
    (ht : Trace (closeJob job) log result) :
    (∃ info, result = .ok () ∧ Shut job.id log (.ok info)) ∨
      ∃ e shut again outcome, result = .error e ∧ log = shut ++ ⟨.dropSink, ()⟩ :: again ∧
        Shut job.id shut (.error e) ∧ Shut job.id again outcome := by
  obtain ⟨⟨outcome, after⟩, first, rest, rfl, hfirst, hrest⟩ :=
    trace_ofTotal_bind log job.close _ result ht
  rcases OpenJob.shut_of_trace_close job first hopen outcome after hfirst with
    ⟨info, rfl, hshut⟩ | ⟨e, rfl, rfl, hshut⟩
  · obtain ⟨rfl, rfl⟩ := (trace_pure_iff rest _ result).1 hrest
    rw [List.append_nil]
    exact .inl ⟨info, rfl, hshut⟩
  · rcases (trace_onError_iff rest _ _ result).1 hrest with
      ⟨a, h, -⟩ | ⟨e', none, cleanup, rfl, h, hcleanup, rfl⟩
    · cases ((trace_throw_iff rest e _).1 h).2
    · obtain ⟨rfl, heq⟩ := (trace_throw_iff none e _).1 h
      cases heq
      obtain ⟨dropped, again, u, rfl, hdropped, hagain⟩ :=
        (Program.trace_bind_iff _ _ cleanup _).1 hcleanup
      obtain ⟨outcome, hshut'⟩ := OpenJob.shut_of_trace_drop after again hopen hagain
      rw [(trace_request_iff dropped .dropSink u).1 hdropped]
      exact .inr ⟨e, first, again, outcome, rfl, rfl, hshut, hshut'⟩

/-- The job that an exchange creates. -/
def created? : Exchange services → Option (JobRequest × JobInfo)
  | ⟨.createJob r, .ok created⟩ => some (r, created)
  | _ => none

end Extraction

end Harvest
