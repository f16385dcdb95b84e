import Harvest.Proofs.Footprint
import Harvest.Proofs.Job.Awaiting

/-!
# No batch is lost

Where the preparation of a job succeeds, the results it has are those of all batches of the job,
none of which was read before it was completed (`PreparedJob.Gathered`). The exchanges of the whole
preparation are followed part by part, and each part ends as `JobPlan.Course` says; the main
result, `JobPlan.prepare_gathers_all`, is read off the course of the whole.
-/

namespace Harvest

open Engine
open Program (Trace Exchange)

/-- The exchanges that list the results of batches, one after the other. -/
def listings (job : String) (ids : List String) (answers : List (List ResultReference)) :
    List (Exchange services) :=
  ids.zipWith (fun id answer => ⟨.listResults job id, .ok answer⟩) answers

/-- The results of completed batches are all listed, in the order of the batches. -/
theorem trace_collectResults (job : String) (bs : List BatchInfo)
    (hdone : ∀ b ∈ bs, b.state = .completed) (log : List (Exchange services))
    (result : Except ExtractError (List ResultReference))
    (ht : Trace (collectResults job bs) log result) :
    (∀ x ∈ log, ∃ id reply, x = ⟨.listResults job id, reply⟩) ∧
      ∀ references, result = .ok references → ∃ answers, answers.length = bs.length ∧
        log = listings job (bs.map BatchInfo.id) answers ∧ references = answers.flatten := by
  induction bs generalizing log result with
  | nil =>
    obtain ⟨rfl, rfl⟩ := (trace_pure_iff log _ result).1 ht
    refine ⟨by simp, fun references h => ⟨[], rfl, rfl, ?_⟩⟩
    cases h
    rfl
  | cons b bs ih =>
    obtain ⟨hb, hbs⟩ := List.forall_mem_cons.1 hdone
    rw [collectResults, if_pos hb] at ht
    rcases trace_asks_bind log (listResults job b.id) _ result
        (fun reply => ⟨.listResults job b.id, reply⟩)
        (fun first reply h => (trace_request_iff first (.listResults job b.id) reply).1 h) ht with
      ⟨e, rfl, rfl⟩ | ⟨answer, rest, rfl, hrest⟩
    · refine ⟨List.forall_mem_singleton.2 ⟨b.id, _, rfl⟩, fun references h => ?_⟩
      cases h
    · obtain ⟨reply, hreply, rfl⟩ := trace_bind_pure rest _ (answer ++ ·) result hrest
      obtain ⟨hlists, hok⟩ := ih hbs rest reply hreply
      refine ⟨List.forall_mem_cons.2 ⟨⟨b.id, _, rfl⟩, hlists⟩, fun references h => ?_⟩
      cases reply with
      | error e => cases h
      | ok others =>
        cases h
        obtain ⟨answers, hlength, rfl, rfl⟩ := hok others rfl
        exact ⟨answer :: answers, congrArg (· + 1) hlength, rfl, rfl⟩

/-- The results of a prepared job are those of the batch that was submitted, which was waited for
until it was completed, or those of all its children, which were. -/
inductive PreparedJob.Gathered (p : PreparedJob) (id : String) : List (Exchange services) → Prop
  | whole (polls : List (Exchange services)) (b : BatchInfo)
      (hpolls : Polled p.job.id id p.interval (JobPlan.ends p.chunked) polls (.ok b))
      (hb : b.state = .completed) :
    p.Gathered id (polls ++ [⟨.listResults p.job.id id, .ok p.references⟩])
  | split (polls : List (Exchange services)) (b : BatchInfo) (batches : List BatchInfo)
      (waits : List (Exchange services)) (bs : List BatchInfo)
      (answers : List (List ResultReference))
      (hpolls : Polled p.job.id id p.interval (JobPlan.ends p.chunked) polls (.ok b))
      (hchunked : p.chunked = true) (hb : b.state = .notProcessed) (hsome : batches.drop 1 ≠ [])
      (hwaits : Completed p.job.id p.interval (batches.drop 1) waits bs)
      (hlength : answers.length = (batches.drop 1).length)
      (hreferences : p.references = answers.flatten) :
    p.Gathered id (polls ++ ⟨.listBatches p.job.id, .ok batches⟩ ::
      (waits ++ listings p.job.id ((batches.drop 1).map BatchInfo.id) answers))

namespace JobPlan

theorem Awaited.state {job id : String} {interval : Nat} {chunked : Bool}
    {log : List (Exchange services)} {bs : List BatchInfo}
    (h : Awaited job id interval chunked log bs) : ∀ b ∈ bs, b.state = .completed := by
  cases h with
  | whole polls b hpolls hb => exact List.forall_mem_singleton.2 hb
  | split polls rest b bs hpolls hchunked hb hrest =>
    obtain ⟨batches, waits, -, -, hdone⟩ := hrest
    exact hdone.state

/-- The batches waited for and then the results of all of them make up a prepared job. -/
theorem Awaited.gathered {job : OpenJob} {id : String} {interval : Nat} {chunked : Bool}
    {log : List (Exchange services)} {bs : List BatchInfo}
    (h : Awaited job.id id interval chunked log bs) (hids : CarriesIds log)
    (answers : List (List ResultReference)) (hlength : answers.length = bs.length) :
    (PreparedJob.mk job answers.flatten chunked interval).Gathered id
      (log ++ listings job.id (bs.map BatchInfo.id) answers) := by
  cases h with
  | whole _ b hpolls hb =>
    obtain ⟨answer, rfl⟩ := List.length_eq_one_iff.1 hlength
    have hid := hpolls.id_eq hids
    rw [List.map_singleton, hid]
    have hone : [answer].flatten = answer := by simp
    rw [hone]
    exact .whole log b hpolls hb
  | split polls rest b _ hpolls hchunked hb hrest =>
    obtain ⟨batches, waits, rfl, hsome, hdone⟩ := hrest
    have hmap := hdone.map_id fun job id b hb => hids job id b (by simp [hb])
    have hsame : bs.length = (batches.drop 1).length := by
      rw [← List.length_map BatchInfo.id, hmap, List.length_map]
    rw [hmap, List.append_assoc, List.cons_append]
    exact .split polls b batches waits bs answers hpolls hchunked hb hsome hdone
      (hlength.trans hsame) rfl

section Traces

variable (plan : JobPlan)

theorem trace_gather (job : OpenJob) (id : String) (interval : Nat) (chunked : Bool)
    (patience : Nat) (log : List (Exchange services)) (result : Except ExtractError PreparedJob)
    (ht : Trace (plan.gather job chunked interval patience id) log result)
    (hids : CarriesIds log) :
    plan.Course (fun log p => p.job = job ∧ p.chunked = chunked ∧ p.Gathered id log) log
      result := by
  rcases Polling.trace_batchStatus_bind job.id id _ log result ht with
    ⟨e, rfl, rfl⟩ | ⟨primary, rest, rfl, hrest⟩
  · exact .of_calm (List.forall_mem_singleton.2 (calm_asked_error job.id id e)) e _
  · obtain rfl : primary.id = id := hids job.id id primary List.mem_cons_self
    rcases (trace_bind_iff rest _ _ result).1 hrest with
      ⟨e, h, rfl⟩ | ⟨bs, waits, last, rfl, hwaits, hlast⟩
    · exact (trace_await primary rest _ h hids).error _
    · have hwhole : CarriesIds ((asked job.id primary.id (.ok primary) :: waits) ++ last) := hids
      obtain ⟨hharmless, hawaited⟩ := (trace_await primary waits _ hwaits hwhole.left).of_ok
      obtain ⟨reply, hreply, rfl⟩ := trace_bind_pure last _
        (fun references => (⟨job, references, chunked, interval⟩ : PreparedJob)) result hlast
      obtain ⟨hlists, hok⟩ := trace_collectResults job.id bs hawaited.state last reply hreply
      have hall : ∀ x ∈ asked job.id primary.id (.ok primary) :: waits ++ last,
          ∀ e', ¬ plan.Alarm x e' := by
        refine List.forall_mem_append.2 ⟨hharmless, fun x hx e' halarm => ?_⟩
        obtain ⟨id, reply, rfl⟩ := hlists x hx
        cases halarm
      cases reply with
      | error e => exact .broken _ e hall
      | ok references =>
        obtain ⟨answers, hlength, rfl, rfl⟩ := hok references rfl
        exact .good _ _ hall ⟨rfl, rfl, hawaited.gathered hwhole.left answers hlength⟩

/-- Records are counted only. -/
def Counts (log : List (Exchange services)) : Prop :=
  ∀ x ∈ log, ∃ reply, x = ⟨.recordCount plan.countQuery, reply⟩

theorem Counts.calm {plan : JobPlan} {log : List (Exchange services)} (h : plan.Counts log) :
    ∀ x ∈ log, Calm x := by
  intro x hx
  obtain ⟨reply, rfl⟩ := h x hx
  trivial

theorem trace_expectedCount (known : Option Nat) (log : List (Exchange services))
    (result : Except ExtractError Nat) (ht : Trace (plan.expectedCount known) log result) :
    plan.Counts log := by
  cases known with
  | some n =>
    obtain ⟨rfl, -⟩ := (trace_pure_iff log n result).1 ht
    exact fun x hx => absurd hx (by simp)
  | none =>
    have hlog := (trace_request_iff log (.recordCount plan.countQuery) result).1 ht
    rw [hlog]
    exact List.forall_mem_singleton.2 ⟨result, rfl⟩

theorem trace_rows (settings : Settings) (chunked : Bool) (known : Option Nat)
    (log : List (Exchange services)) (result : Except ExtractError Nat)
    (ht : Trace (plan.rows settings chunked known) log result) : plan.Counts log := by
  cases chunked with
  | true =>
    obtain ⟨rfl, -⟩ := (trace_pure_iff log _ result).1 ht
    exact fun x hx => absurd hx (by simp)
  | false => exact trace_expectedCount plan known log result ht

theorem trace_useChunking (settings : Settings) (log : List (Exchange services))
    (result : Except ExtractError (Bool × Option Nat))
    (ht : Trace (plan.useChunking settings) log result) : plan.Counts log := by
  have hnone : plan.Counts [] := fun x hx => absurd hx (by simp)
  rw [useChunking] at ht
  split at ht
  · obtain ⟨rfl, -⟩ := (trace_pure_iff log _ result).1 ht
    exact hnone
  · split at ht
    · obtain ⟨rfl, -⟩ := (trace_pure_iff log _ result).1 ht
      exact hnone
    · obtain ⟨reply, hreply, -⟩ := trace_bind_pure log _ _ result ht
      exact trace_expectedCount plan plan.expected log reply hreply

theorem trace_finish (settings : Settings) (patience : Nat) (job : OpenJob) (chunked : Bool)
    (known : Option Nat) (log : List (Exchange services))
    (result : Except ExtractError PreparedJob)
    (ht : Trace (plan.finish settings patience job chunked known) log result)
    (hids : CarriesIds log) :
    plan.Course (fun log p => p.job = job ∧ p.chunked = chunked ∧
      ∃ submitted counts rest,
        log = ⟨.submitBatch job.id plan.query, .ok submitted⟩ :: (counts ++ rest) ∧
          plan.Counts counts ∧ p.Gathered submitted.id rest) log result := by
  rw [finish_eq] at ht
  rcases trace_asks_bind log (submitBatch job.id plan.query) _ result
      (fun reply => ⟨.submitBatch job.id plan.query, reply⟩)
      (fun first reply h =>
        (trace_request_iff first (.submitBatch job.id plan.query) reply).1 h) ht with
    ⟨e, rfl, rfl⟩ | ⟨submitted, rest, rfl, hrest⟩
  · have hcalm : Calm ⟨.submitBatch job.id plan.query, .error e⟩ := trivial
    exact .of_calm (List.forall_mem_singleton.2 hcalm) e _
  · have hsubmit : ∀ x ∈ [(⟨.submitBatch job.id plan.query, .ok submitted⟩ : Exchange services)],
        Calm x := List.forall_mem_singleton.2 trivial
    have hcounts := trace_rows plan settings chunked known
    rcases (trace_bind_iff rest _ _ result).1 hrest with
      ⟨e, h, rfl⟩ | ⟨rows, counts, last, rfl, hcounted, hlast⟩
    · exact .of_calm (List.forall_mem_append.2 ⟨hsubmit, (hcounts rest _ h).calm⟩) e _
    · have hgather := trace_gather plan job submitted.id (pollInterval rows) chunked patience last
        result hlast fun job id b hb => hids job id b (by simp [hb])
      have hfirst := List.forall_mem_append.2 ⟨hsubmit, (hcounts counts _ hcounted).calm⟩
      exact hgather.after ([_] ++ counts) hfirst fun p hp =>
        ⟨hp.1, hp.2.1, submitted, counts, last, rfl, hcounts counts _ hcounted, hp.2.2⟩

end Traces

end JobPlan

namespace OpenJob

theorem trace_shut (job : OpenJob) (log : List (Exchange services))
    (result : Except ExtractError JobInfo) (ht : Trace job.shut log result) :
    ∀ x ∈ log, CleansUp x := by
  rcases trace_asks_bind log (jobStatus job.id) _ result (fun reply => ⟨.jobStatus job.id, reply⟩)
      (fun first reply h => (trace_request_iff first (.jobStatus job.id) reply).1 h) ht with
    ⟨e, rfl, rfl⟩ | ⟨status, rest, rfl, hrest⟩
  · exact List.forall_mem_singleton.2 trivial
  · by_cases hclosed : status.state = .closed
    · rw [if_pos hclosed] at hrest
      obtain ⟨rfl, -⟩ := (trace_pure_iff rest _ result).1 hrest
      exact List.forall_mem_singleton.2 trivial
    · rw [if_neg hclosed] at hrest
      have hlog := (trace_request_iff rest (.closeJob job.id) result).1 hrest
      rw [hlog]
      exact List.forall_mem_cons.2 ⟨trivial, List.forall_mem_singleton.2 trivial⟩

theorem trace_drop (job : OpenJob) (log : List (Exchange services))
    (ht : Trace job.drop log ()) : ∀ x ∈ log, CleansUp x := by
  obtain ⟨first, rest, u, rfl, hfirst, hrest⟩ := (Program.trace_bind_iff _ _ log _).1 ht
  obtain ⟨rfl, -⟩ := (Program.trace_done_iff _ _ rest).1 hrest
  rw [List.append_nil]
  rw [close] at hfirst
  split at hfirst
  · obtain ⟨rfl, -⟩ := (Program.trace_done_iff _ _ first).1 hfirst
    exact fun x hx => absurd hx (by simp)
  · obtain ⟨shut, last, reply, rfl, hshut, hlast⟩ := (Program.trace_bind_iff _ _ first _).1 hfirst
    have hnone : last = [] := by
      cases reply with
      | ok info => exact ((Program.trace_done_iff _ _ last).1 hlast).1
      | error e => exact ((Program.trace_done_iff _ _ last).1 hlast).1
    rw [hnone, List.append_nil]
    exact trace_shut job shut reply hshut

end OpenJob

namespace JobPlan

variable {plan : JobPlan} {α : Type}

/-- A course stays one where the job is closed behind an error. -/
theorem course_guarding (job : OpenJob) (body : Engine α)
    (Good : List (Exchange services) → α → Prop) (log : List (Exchange services))
    (result : Except ExtractError α) (ht : Trace (job.guarding body) log result)
    (hbody : ∀ first reply, first <+: log → Trace body first reply →
      plan.Course Good first reply) :
    plan.Course Good log result := by
  rcases (trace_onError_iff log job.drop body result).1 ht with
    ⟨a, h, rfl⟩ | ⟨e, first, rest, rfl, h, hrest, rfl⟩
  · exact hbody log _ (List.prefix_refl log) h
  · have hcourse := hbody first _ (List.prefix_append first rest) h
    exact hcourse.cleaned rest (job.trace_drop rest hrest)

theorem trace_guarding_jobStatus (job : OpenJob) (log : List (Exchange services))
    (result : Except ExtractError JobInfo)
    (ht : Trace (job.guarding (jobStatus job.id)) log result) :
    (∀ x ∈ log, Calm x) ∧ ∀ info, result = .ok info → log = [⟨.jobStatus job.id, .ok info⟩] := by
  rcases (trace_onError_iff log job.drop _ result).1 ht with
    ⟨info, h, rfl⟩ | ⟨e, first, rest, rfl, h, hrest, rfl⟩
  · have hlog := (trace_request_iff log (.jobStatus job.id) (.ok info)).1 h
    refine ⟨hlog ▸ List.forall_mem_singleton.2 trivial, fun info' hinfo => ?_⟩
    cases hinfo
    exact hlog
  · have hfirst := (trace_request_iff first (.jobStatus job.id) (.error e)).1 h
    have hcalm : ∀ x ∈ first, Calm x := hfirst ▸ List.forall_mem_singleton.2 trivial
    refine ⟨List.forall_mem_append.2 ⟨hcalm, fun x hx => (job.trace_drop rest hrest x hx).calm⟩,
      fun info hinfo => ?_⟩
    cases hinfo

/-- What the service is asked to create; it may split the query if the job is chunked. -/
def request (plan : JobPlan) (settings : Settings) (chunked : Bool) : JobRequest :=
  ⟨plan.entity, settings.operation, .parallel, .csv,
    if chunked then some settings.chunkSize else none⟩

/-- The exchanges of a job that was prepared: counts, the job, its query, counts, and then the
batches. -/
def Ran (plan : JobPlan) (settings : Settings) (log : List (Exchange services))
    (p : PreparedJob) : Prop :=
  ∃ counts created submitted counts' rest,
    log = counts ++ ⟨.createJob (plan.request settings p.chunked), .ok created⟩ ::
      ⟨.jobStatus created.id, .ok p.job.info⟩ ::
      ⟨.submitBatch p.job.id plan.query, .ok submitted⟩ :: (counts' ++ rest) ∧
    plan.Counts counts ∧ plan.Counts counts' ∧ p.Gathered submitted.id rest

theorem trace_prepare (plan : JobPlan) (settings : Settings) (patience : Nat)
    (log : List (Exchange services)) (result : Except ExtractError PreparedJob)
    (ht : Trace (plan.prepare settings patience) log result) (hids : CarriesIds log) :
    plan.Course (plan.Ran settings) log result := by
  rcases (trace_bind_iff log _ _ result).1 ht with
    ⟨e, h, rfl⟩ | ⟨⟨chunked, known⟩, counts, last, rfl, hcounted, hlast⟩
  · exact .of_calm (trace_useChunking plan settings log _ h).calm e _
  · have hcounts := trace_useChunking plan settings counts _ hcounted
    rcases trace_asks_bind last (createJob (plan.request settings chunked)) _ result
        (fun reply => ⟨.createJob (plan.request settings chunked), reply⟩)
        (fun first reply h =>
          (trace_request_iff first (.createJob (plan.request settings chunked)) reply).1 h)
        hlast with
      ⟨e, rfl, rfl⟩ | ⟨created, rest, rfl, hrest⟩
    · have hcreate : ∀ x ∈ [(⟨.createJob (plan.request settings chunked), .error e⟩ :
          Exchange services)], Calm x := List.forall_mem_singleton.2 trivial
      exact .of_calm (List.forall_mem_append.2 ⟨hcounts.calm, hcreate⟩) e _
    · have hcreate : ∀ x ∈ [(⟨.createJob (plan.request settings chunked), .ok created⟩ :
          Exchange services)], Calm x := List.forall_mem_singleton.2 trivial
      have hbefore := List.forall_mem_append.2 ⟨hcounts.calm, hcreate⟩
      rw [List.append_cons]
      rcases (trace_bind_iff rest _ _ result).1 hrest with
        ⟨e, h, rfl⟩ | ⟨info, first, final, rfl, hfirst, hfinal⟩
      · have hstatus := (trace_guarding_jobStatus _ rest _ h).1
        exact .of_calm (List.forall_mem_append.2 ⟨hbefore, hstatus⟩) e _
      · obtain ⟨hstatus, hinfo⟩ := trace_guarding_jobStatus _ first _ hfirst
        obtain rfl := hinfo info rfl
        have hcourse := course_guarding _ _ _ final result hfinal
          fun first reply hpart h => trace_finish plan settings patience _ chunked known first
            reply h fun job id b hb => hids job id b (by simp [hpart.subset hb])
        rw [← List.append_assoc]
        refine hcourse.after _ (List.forall_mem_append.2 ⟨hbefore, hstatus⟩) ?_
        rintro p ⟨hjob, rfl, submitted, counts', rest, rfl, hcounts', hgathered⟩
        refine ⟨counts, created, submitted, counts', rest, ?_, hcounts, hcounts', hgathered⟩
        rw [hjob]
        simp [OpenJob.ofInfo, OpenJob.id]

/-- A job that is prepared has the results of all its batches: of the one that was submitted, or
of all its children, each of which was waited for until it was completed. A batch that failed is
named in the error, and neither is another batch asked for then nor are results listed at all. A
split job without child batches is an error. -/
theorem prepare_gathers_all (plan : JobPlan) (settings : Settings) (patience : Nat)
    (log : List (Exchange services)) (result : Except ExtractError PreparedJob)
    (ht : Trace (plan.prepare settings patience) log result) (hids : CarriesIds log) :
    (∀ p, result = .ok p → plan.Ran settings log p) ∧
    (∀ job id b, ⟨.batchStatus job id, .ok b⟩ ∈ log → b.state = .failed →
      result = .error (.jobFailure plan.entity b.job id
        (b.stateMessage.getD "no message from server")) ∧
      (∃ before after, log = before ++ ⟨.batchStatus job id, .ok b⟩ :: after ∧
        ∀ job' id' reply, ⟨.batchStatus job' id', reply⟩ ∉ after) ∧
      ∀ job' id' reply, ⟨.listResults job' id', reply⟩ ∉ log) ∧
    ∀ job batches, ⟨.listBatches job, .ok batches⟩ ∈ log → batches.drop 1 = [] →
      result = .error (.jobFailure plan.entity job ((batches.head?.map BatchInfo.id).getD "")
        "chunked job produced no child batches") := by
  have hcourse := trace_prepare plan settings patience log result ht hids
  refine ⟨?_, ?_, ?_⟩
  · rintro p rfl
    exact hcourse.of_ok.2
  · intro job id b hmem hb
    obtain ⟨hresult, before, after, hlog, hbefore, hafter⟩ :=
      hcourse.of_alarm hmem (.failed job id b hb)
    refine ⟨hresult, ⟨before, after, hlog, fun job' id' reply h => hafter _ h⟩, ?_⟩
    intro job' id' reply hlist
    rw [hlog] at hlist
    rcases List.mem_append.1 hlist with h | h
    · exact hbefore _ h
    · rcases List.mem_cons.1 h with h | h
      · cases h
      · exact hafter _ h
  · intro job batches hmem hnone
    exact (hcourse.of_alarm hmem (.childless job batches hnone)).1

def accounts : JobPlan := ⟨"Account", "SELECT Id FROM Account", "SELECT COUNT() FROM Account", none⟩

/-- The settings under which every query may be split. -/
def splitting : Settings := { chunkingEnabled := true, skipCountCheck := true }

def accountJob : JobInfo := ⟨"750", "Account", .query, .opened⟩

/-- A job that is split into one child, which ends in the given state. -/
def splitLog (child : BatchState) (last : List (Exchange services)) : List (Exchange services) :=
  [⟨.createJob (accounts.request splitting true), .ok accountJob⟩,
    ⟨.jobStatus "750", .ok accountJob⟩,
    ⟨.submitBatch "750" "SELECT Id FROM Account", .ok ⟨"b0", "750", .queued, none⟩⟩,
    asked "750" "b0" (.ok ⟨"b0", "750", .notProcessed, none⟩),
    ⟨.listBatches "750",
      .ok [⟨"b0", "750", .notProcessed, none⟩, ⟨"b1", "750", .queued, none⟩]⟩,
    asked "750" "b1" (.ok ⟨"b1", "750", child, none⟩)] ++ last

theorem carriesIds_splitLog (child : BatchState) (last : List (Exchange services))
    (hlast : ∀ job id b, asked job id (.ok b) ∉ last) : CarriesIds (splitLog child last) := by
  intro job id b hb
  simp only [splitLog, List.cons_append, List.nil_append, List.mem_cons] at hb
  rcases hb with hb | hb | hb | hb | hb | hb | hb
  · cases hb
  · cases hb
  · cases hb
  · cases hb
    rfl
  · cases hb
  · cases hb
    rfl
  · exact absurd hb (hlast job id b)

/-- The results of a child that is completed are those of the job; where the child failed, the
job is closed and no results are listed. -/
theorem prepare_gathers_child :
    (Trace (accounts.prepare splitting 1)
        (splitLog .completed [⟨.listResults "750" "b1", .ok [⟨"b1", "r1"⟩]⟩])
        (.ok ⟨.ofInfo accountJob, [⟨"b1", "r1"⟩], true, pollInterval 200000⟩) ∧
      accounts.Ran splitting
        (splitLog .completed [⟨.listResults "750" "b1", .ok [⟨"b1", "r1"⟩]⟩])
        ⟨.ofInfo accountJob, [⟨"b1", "r1"⟩], true, pollInterval 200000⟩) ∧
    Trace (accounts.prepare splitting 1)
        (splitLog .failed [⟨.jobStatus "750", .ok accountJob⟩, ⟨.closeJob "750", .ok accountJob⟩])
        (.error (.jobFailure "Account" "750" "b1" "no message from server")) ∧
      ∀ job id reply, ⟨.listResults job id, reply⟩ ∉ splitLog .failed
        [⟨.jobStatus "750", .ok accountJob⟩, ⟨.closeJob "750", .ok accountJob⟩] := by
  have hdone : Trace (accounts.prepare splitting 1)
      (splitLog .completed [⟨.listResults "750" "b1", .ok [⟨"b1", "r1"⟩]⟩])
      (.ok ⟨.ofInfo accountJob, [⟨"b1", "r1"⟩], true, pollInterval 200000⟩) := by
    unfold splitLog
    repeat' first | exact .done _ | refine .ask _ _ _ _ _ ?_
  have hfailed : Trace (accounts.prepare splitting 1)
      (splitLog .failed [⟨.jobStatus "750", .ok accountJob⟩, ⟨.closeJob "750", .ok accountJob⟩])
      (.error (.jobFailure "Account" "750" "b1" "no message from server")) := by
    unfold splitLog
    repeat' first | exact .done _ | refine .ask _ _ _ _ _ ?_
  refine ⟨⟨hdone, ?_⟩, hfailed, ?_⟩
  · refine (prepare_gathers_all accounts splitting 1 _ _ hdone (carriesIds_splitLog _ _ ?_)).1 _ rfl
    intro job id b hb
    cases List.mem_singleton.1 hb
  · have hids := carriesIds_splitLog .failed
      [⟨.jobStatus "750", .ok accountJob⟩, ⟨.closeJob "750", .ok accountJob⟩] (by
        intro job id b hb
        rcases List.mem_cons.1 hb with hb | hb
        · cases hb
        · cases List.mem_singleton.1 hb)
    exact ((prepare_gathers_all accounts splitting 1 _ _ hfailed hids).2.1 "750" "b1"
      ⟨"b1", "750", .failed, none⟩ (by simp [splitLog, asked]) rfl).2.2

end JobPlan

end Harvest
