import Harvest.Job.Prepare
import Harvest.Proofs.Job.Polling

/-!
# How the waiting for a job ends

The preparation of a job ends at once where an exchange is an alarm (`JobPlan.Alarm`): a batch is
told to have failed, or a split job to have no child batches. `JobPlan.Course` is what then holds
of the exchanges and the outcome; it is kept when a calm part comes first (`Course.after`), so the
waiting is shown to have it step by step (`JobPlan.Turn.course`).
-/

namespace Harvest

open Engine
open Program (Trace Exchange)

/-- An exchange that ends the preparation of a job with an error: a batch is told to have
failed, or a split job to have no child batches. -/
inductive JobPlan.Alarm (plan : JobPlan) : Exchange services → ExtractError → Prop
  | failed (job id : String) (b : BatchInfo) (h : b.state = .failed) :
    plan.Alarm (asked job id (.ok b))
      (.jobFailure plan.entity b.job id (b.stateMessage.getD "no message from server"))
  | childless (job : String) (batches : List BatchInfo) (h : batches.drop 1 = []) :
    plan.Alarm ⟨.listBatches job, .ok batches⟩
      (.jobFailure plan.entity job ((batches.head?.map BatchInfo.id).getD "")
        "chunked job produced no child batches")

/-- An exchange with which an open job is closed. -/
def CleansUp (x : Exchange services) : Prop :=
  match x with
  | ⟨.jobStatus _, _⟩ => True
  | ⟨.closeJob _, _⟩ => True
  | _ => False

/-- How a part of the preparation ends: with an error but no alarm; with an alarm, behind which
the job is closed at most; or without an alarm and well. -/
inductive JobPlan.Course (plan : JobPlan) {α : Type}
    (Good : List (Exchange services) → α → Prop) :
    List (Exchange services) → Except ExtractError α → Prop
  | broken (log : List (Exchange services)) (e : ExtractError)
      (h : ∀ x ∈ log, ∀ e', ¬ plan.Alarm x e') :
    plan.Course Good log (.error e)
  | alarmed (before : List (Exchange services)) (x : Exchange services)
      (cleanup : List (Exchange services)) (e : ExtractError) (hbefore : ∀ y ∈ before, Calm y)
      (hx : plan.Alarm x e) (hcleanup : ∀ y ∈ cleanup, CleansUp y) :
    plan.Course Good (before ++ x :: cleanup) (.error e)
  | good (log : List (Exchange services)) (a : α) (h : ∀ x ∈ log, ∀ e', ¬ plan.Alarm x e')
      (hgood : Good log a) :
    plan.Course Good log (.ok a)

theorem Calm.harmless {x : Exchange services} (h : Calm x) (plan : JobPlan) (e : ExtractError) :
    ¬ plan.Alarm x e := by
  intro halarm
  cases halarm with
  | failed job id b hb => exact h b rfl hb
  | childless job batches hnone => exact h batches rfl hnone

theorem CleansUp.calm {x : Exchange services} (h : CleansUp x) : Calm x := by
  obtain ⟨request, reply⟩ := x
  cases request <;> first | exact trivial | exact h.elim

namespace JobPlan

variable {plan : JobPlan} {α β : Type}

theorem Course.of_calm {log : List (Exchange services)} (h : ∀ x ∈ log, Calm x)
    (e : ExtractError) (Good : List (Exchange services) → α → Prop) :
    plan.Course Good log (.error e) :=
  .broken log e fun x hx e' => (h x hx).harmless plan e'

theorem Course.after {Good : List (Exchange services) → α → Prop}
    {Good' : List (Exchange services) → α → Prop} {log : List (Exchange services)}
    {result : Except ExtractError α} (h : plan.Course Good log result)
    (first : List (Exchange services)) (hfirst : ∀ x ∈ first, Calm x)
    (hgood : ∀ a, Good log a → Good' (first ++ log) a) :
    plan.Course Good' (first ++ log) result := by
  have hharmless : ∀ x ∈ first, ∀ e', ¬ plan.Alarm x e' :=
    fun x hx e' => (hfirst x hx).harmless plan e'
  cases h with
  | broken log e h => exact .broken _ e (List.forall_mem_append.2 ⟨hharmless, h⟩)
  | alarmed before x cleanup e hbefore hx hcleanup =>
    rw [← List.append_assoc]
    exact .alarmed _ x cleanup e (List.forall_mem_append.2 ⟨hfirst, hbefore⟩) hx hcleanup
  | good log a h ha =>
    exact .good _ a (List.forall_mem_append.2 ⟨hharmless, h⟩) (hgood a ha)

theorem Course.error {Good : List (Exchange services) → α → Prop}
    {log : List (Exchange services)} {e : ExtractError}
    (h : plan.Course Good log (.error e)) (Good' : List (Exchange services) → β → Prop) :
    plan.Course Good' log (.error e) := by
  cases h with
  | broken _ _ h => exact .broken log e h
  | alarmed before x cleanup _ hbefore hx hcleanup =>
    exact .alarmed before x cleanup e hbefore hx hcleanup

theorem Course.of_ok {Good : List (Exchange services) → α → Prop}
    {log : List (Exchange services)} {a : α} (h : plan.Course Good log (.ok a)) :
    (∀ x ∈ log, ∀ e', ¬ plan.Alarm x e') ∧ Good log a := by
  generalize hresult : (Except.ok a : Except ExtractError α) = result at h
  cases h with
  | broken _ e _ => cases hresult
  | alarmed before x cleanup e _ _ _ => cases hresult
  | good _ a' hharmless hgood =>
    cases hresult
    exact ⟨hharmless, hgood⟩

theorem Course.cleaned {Good : List (Exchange services) → α → Prop}
    {log : List (Exchange services)} {e : ExtractError}
    (h : plan.Course Good log (.error e)) (rest : List (Exchange services))
    (hrest : ∀ x ∈ rest, CleansUp x) : plan.Course Good (log ++ rest) (.error e) := by
  cases h with
  | broken _ _ h =>
    refine .broken _ e (List.forall_mem_append.2 ⟨h, fun x hx e' => ?_⟩)
    exact (hrest x hx).calm.harmless plan e'
  | alarmed before x cleanup _ hbefore hx hcleanup =>
    rw [List.append_assoc, List.cons_append]
    exact .alarmed before x _ e hbefore hx (List.forall_mem_append.2 ⟨hcleanup, hrest⟩)

theorem Alarm.unique {x : Exchange services} {e e' : ExtractError} (h : plan.Alarm x e)
    (h' : plan.Alarm x e') : e' = e := by
  cases h with
  | failed job id b hb =>
    cases h'
    rfl
  | childless job batches hnone =>
    cases h'
    rfl

/-- An alarm is the outcome, and behind it the job is closed at most. -/
theorem Course.of_alarm {Good : List (Exchange services) → α → Prop}
    {log : List (Exchange services)} {result : Except ExtractError α}
    (h : plan.Course Good log result) {x : Exchange services} {e : ExtractError} (hx : x ∈ log)
    (halarm : plan.Alarm x e) :
    result = .error e ∧ ∃ before after, log = before ++ x :: after ∧ (∀ y ∈ before, Calm y) ∧
      ∀ y ∈ after, CleansUp y := by
  cases h with
  | broken _ _ h => exact absurd halarm (h x hx e)
  | good _ _ h => exact absurd halarm (h x hx e)
  | alarmed before y cleanup e' hbefore hy hcleanup =>
    rcases List.mem_append.1 hx with hmem | hmem
    · exact absurd halarm ((hbefore x hmem).harmless plan e)
    · rcases List.mem_cons.1 hmem with rfl | hmem
      · rw [halarm.unique hy]
        exact ⟨rfl, before, cleanup, rfl, hbefore, hcleanup⟩
      · exact absurd halarm ((hcleanup x hmem).calm.harmless plan e)

/-- A state at which the waiting for the batch that was submitted ends. -/
def ends (chunked : Bool) (s : BatchState) : Bool :=
  s.isTerminal || (decide (s = .notProcessed) && chunked)

/-- The child batches of a split job are listed, and all of them are waited for. -/
def Split (job : String) (interval : Nat) (log : List (Exchange services))
    (bs : List BatchInfo) : Prop :=
  ∃ batches waits, log = ⟨.listBatches job, .ok batches⟩ :: waits ∧ batches.drop 1 ≠ [] ∧
    Completed job interval (batches.drop 1) waits bs

/-- The batch that was submitted is completed, or it was split and its children are. -/
inductive Awaited (job id : String) (interval : Nat) (chunked : Bool) :
    List (Exchange services) → List BatchInfo → Prop
  | whole (polls : List (Exchange services)) (b : BatchInfo)
      (hpolls : Polled job id interval (ends chunked) polls (.ok b)) (hb : b.state = .completed) :
    Awaited job id interval chunked polls [b]
  | split (polls rest : List (Exchange services)) (b : BatchInfo) (bs : List BatchInfo)
      (hpolls : Polled job id interval (ends chunked) polls (.ok b)) (hchunked : chunked = true)
      (hb : b.state = .notProcessed) (hrest : Split job interval rest bs) :
    Awaited job id interval chunked (polls ++ rest) bs

section Traces

variable (plan : JobPlan) (job : String) (interval : Nat)

/-- What becomes of the answers for the children of a split job: the last one decides. -/
def lastSettled (batches answers : List BatchInfo) : Engine (List BatchInfo) :=
  match answers.getLast? with
  | some last => do
    ofExcept (last.ensureNotFailed plan.entity)
    pure answers
  | none =>
    throw (.jobFailure plan.entity job ((batches.head?.map BatchInfo.id).getD "")
      "chunked job produced no child batches")

theorem trace_lastSettled {batches answers : List BatchInfo} (log : List (Exchange services))
    (result : Except ExtractError (List BatchInfo))
    (ht : Trace (plan.lastSettled job batches answers) log result) :
    answers = [] ∧ log = [] ∧ (∃ e, result = .error e) ∨
      (∃ b, answers.getLast? = some b ∧ b.state = .failed ∧ log = [] ∧
        result = .error (b.failure plan.entity)) ∨
      ∃ b, answers.getLast? = some b ∧ b.state ≠ .failed ∧ log = [] ∧ result = .ok answers := by
  rw [lastSettled] at ht
  cases hlast : answers.getLast? with
  | none =>
    rw [hlast] at ht
    obtain ⟨hlog, hresult⟩ := (trace_throw_iff log _ result).1 ht
    exact .inl ⟨List.getLast?_eq_none_iff.1 hlast, hlog, _, hresult⟩
  | some b =>
    rw [hlast] at ht
    by_cases hfailed : b.state = .failed
    · simp only [BatchInfo.ensureNotFailed, if_pos hfailed] at ht
      exact .inr (.inl ⟨b, rfl, hfailed, (trace_throw_iff log _ result).1 ht⟩)
    · simp only [BatchInfo.ensureNotFailed, if_neg hfailed] at ht
      exact .inr (.inr ⟨b, rfl, hfailed, (trace_pure_iff log answers result).1 ht⟩)

theorem trace_awaitChunks (patience : Nat) (log : List (Exchange services))
    (result : Except ExtractError (List BatchInfo))
    (ht : Trace (plan.awaitChunks job interval patience) log result) (hids : CarriesIds log) :
    plan.Course (Split job interval) log result := by
  rcases trace_asks_bind log (listBatches job) _ result (fun reply => ⟨.listBatches job, reply⟩)
      (fun first reply h => (trace_request_iff first (.listBatches job) reply).1 h) ht with
    ⟨e, rfl, rfl⟩ | ⟨batches, rest, rfl, hrest⟩
  · have hcalm : Calm ⟨.listBatches job, .error e⟩ := by
      intro batches h
      cases h
    exact .of_calm (List.forall_mem_singleton.2 hcalm) e _
  · by_cases hnone : batches.drop 1 = []
    · rw [Polling.waitForChildren, hnone] at hrest
      obtain ⟨rfl, rfl⟩ := (trace_throw_iff rest _ result).1 hrest
      exact .alarmed [] _ [] _ (by simp) (.childless job batches hnone) (by simp)
    · have hcalm : Calm ⟨.listBatches job, .ok batches⟩ := by
        intro batches' h
        cases h
        exact hnone
      have hfirst : ∀ x ∈ [(⟨.listBatches job, .ok batches⟩ : Exchange services)], Calm x :=
        List.forall_mem_singleton.2 hcalm
      have hchildren : plan.Course (Completed job interval (batches.drop 1)) rest result := by
        rcases (trace_bind_iff rest _ _ result).1 hrest with
          ⟨e, h, rfl⟩ | ⟨bs, waits, last, rfl, hwaits, hlast⟩
        · cases Polling.trace_waitEach job interval patience _ rest _ h with
          | broken _ _ hcalm => exact .of_calm hcalm e _
        · have hsettled := plan.trace_lastSettled job last result hlast
          cases Polling.trace_waitEach job interval patience _ waits _ hwaits with
          | failed before id b _ hbefore hb hlastb =>
            rcases hsettled with ⟨rfl, -, -⟩ | ⟨b', hb', -, rfl, rfl⟩ | ⟨b', hb', hunfailed, -, -⟩
            · cases hlastb
            · obtain rfl : b = b' := Option.some.inj (hlastb.symm.trans hb')
              obtain rfl : b.id = id := hids job id b (by simp)
              rw [List.append_nil]
              exact .alarmed before _ [] _ hbefore (.failed job b.id b hb) (by simp)
            · obtain rfl : b = b' := Option.some.inj (hlastb.symm.trans hb')
              exact absurd hb hunfailed
          | completed _ _ hcalm h =>
            rcases hsettled with ⟨rfl, -, -⟩ | ⟨b, hb, hfailed, -, -⟩ | ⟨b, -, -, rfl, rfl⟩
            · have hmap := h.map_id fun job id b hb => hids job id b (by simp [hb])
              exact absurd (List.map_eq_nil_iff.1 hmap.symm) hnone
            · rw [h.state b (List.mem_of_getLast? hb)] at hfailed
              cases hfailed
            · rw [List.append_nil]
              exact .good waits bs (fun x hx e' => (hcalm x hx).harmless plan e') h
      exact hchildren.after [_] hfirst fun bs hbs => ⟨batches, rest, rfl, hnone, hbs⟩

section Await

variable (chunked : Bool) (allPatience patience : Nat) (batch : BatchInfo)

theorem await_of_completed (h : batch.state = .completed) :
    plan.await job chunked interval allPatience patience batch = pure [batch] := by
  cases patience <;> simp [await, h]

theorem await_of_failed (h : batch.state = .failed) :
    plan.await job chunked interval allPatience patience batch =
      throw (batch.failure plan.entity) := by
  cases patience <;> simp [await, h]

theorem await_of_split (h : batch.state = .notProcessed) (hchunked : chunked = true) :
    plan.await job chunked interval allPatience patience batch =
      plan.awaitChunks job interval allPatience := by
  cases patience <;> simp [await, h, hchunked]

theorem await_of_pending_zero (h : ends chunked batch.state = false) :
    plan.await job chunked interval allPatience 0 batch = throw (.unsettled job batch.id) := by
  cases hstate : batch.state <;> simp_all [await, ends, BatchState.isTerminal]

theorem await_of_pending_succ (h : ends chunked batch.state = false) :
    plan.await job chunked interval allPatience (patience + 1) batch = (do
      sleep interval
      let refreshed ← batchStatus job batch.id
      plan.await job chunked interval allPatience patience refreshed) := by
  cases hstate : batch.state <;> simp_all [await, ends, BatchState.isTerminal]

/-- What is done about a batch for which no more is asked. -/
theorem trace_await_of_ends (hends : ends chunked batch.state = true)
    (log : List (Exchange services)) (result : Except ExtractError (List BatchInfo))
    (ht : Trace (plan.await job chunked interval allPatience patience batch) log result) :
    batch.state = .completed ∧ log = [] ∧ result = .ok [batch] ∨
      batch.state = .failed ∧ log = [] ∧ result = .error (batch.failure plan.entity) ∨
      batch.state = .notProcessed ∧ chunked = true ∧
        Trace (plan.awaitChunks job interval allPatience) log result := by
  by_cases hdone : batch.state = .completed
  · rw [await_of_completed plan job interval chunked allPatience patience batch hdone] at ht
    exact .inl ⟨hdone, (trace_pure_iff log _ result).1 ht⟩
  · by_cases hfailed : batch.state = .failed
    · rw [await_of_failed plan job interval chunked allPatience patience batch hfailed] at ht
      exact .inr (.inl ⟨hfailed, (trace_throw_iff log _ result).1 ht⟩)
    · obtain ⟨hsplit, hchunked⟩ : batch.state = .notProcessed ∧ chunked = true := by
        simpa [ends, BatchState.isTerminal_iff, hfailed, hdone] using hends
      rw [await_of_split plan job interval chunked allPatience patience batch hsplit hchunked] at ht
      exact .inr (.inr ⟨hsplit, hchunked, ht⟩)

/-- How the waiting for the batch that was submitted goes: it breaks off, or the batch is told to be
in a state at which no more is asked for it. -/
inductive Turn (id : String) :
    List (Exchange services) → Except ExtractError (List BatchInfo) → Prop
  | broken (polls : List (Exchange services)) (e : ExtractError)
      (h : Polling.Round job interval patience (ends chunked) id polls (.error e)) :
    Turn id polls (.error e)
  | reached (polls rest : List (Exchange services)) (b : BatchInfo) (left : Nat)
      (result : Except ExtractError (List BatchInfo))
      (h : Polling.Round job interval patience (ends chunked) id polls (.ok b))
      (hrest : Trace (plan.await job chunked interval allPatience left b) rest result) :
    Turn id (polls ++ rest) result

variable {plan job interval chunked allPatience patience}

theorem Turn.waited {id : String} {log : List (Exchange services)}
    {result : Except ExtractError (List BatchInfo)}
    (h : plan.Turn job interval chunked allPatience patience id log result) (b : BatchInfo)
    (hb : ends chunked b.state = false) :
    plan.Turn job interval chunked allPatience (patience + 1) id
      (asked job id (.ok b) :: ⟨.sleep interval, ()⟩ :: log) result := by
  cases h with
  | broken _ e h => exact .broken _ e (h.waited b hb)
  | reached polls rest b' left _ h hrest =>
    exact .reached _ rest b' left result (h.waited b hb) hrest

theorem turn_of_trace_await (log : List (Exchange services))
    (result : Except ExtractError (List BatchInfo))
    (ht : Trace (plan.await job chunked interval allPatience patience batch) log result)
    (hids : CarriesIds log) :
    plan.Turn job interval chunked allPatience patience batch.id
      (asked job batch.id (.ok batch) :: log) result := by
  -- As long as the batch is at work, it is asked for again under the name it is told under.
  induction patience generalizing batch log with
  | zero =>
    by_cases hends : ends chunked batch.state = true
    · exact .reached [_] log batch 0 result (.settled_at_once batch hends) ht
    · replace hends := Bool.eq_false_iff.2 hends
      rw [await_of_pending_zero plan job interval chunked allPatience batch hends] at ht
      obtain ⟨rfl, rfl⟩ := (trace_throw_iff log _ result).1 ht
      exact .broken _ _ (.exhausted_at_once batch hends)
  | succ patience ih =>
    by_cases hends : ends chunked batch.state = true
    · exact .reached [_] log batch (patience + 1) result (.settled_at_once batch hends) ht
    · replace hends := Bool.eq_false_iff.2 hends
      rw [await_of_pending_succ plan job interval chunked allPatience patience batch hends] at ht
      obtain ⟨rest, rfl, hrest⟩ := trace_sleep_bind log interval _ result ht
      refine Turn.waited ?_ batch hends
      rcases Polling.trace_batchStatus_bind job batch.id _ rest result hrest with
        ⟨e, rfl, rfl⟩ | ⟨b, last, rfl, hlast⟩
      · exact .broken _ e (.refused_at_once e)
      · have hid : b.id = batch.id := hids job batch.id b (by simp)
        have hturn := ih b last hlast fun job id b hb => hids job id b (by simp [hb])
        rwa [hid] at hturn

theorem Turn.course {id : String} {log : List (Exchange services)}
    {result : Except ExtractError (List BatchInfo)}
    (h : plan.Turn job interval chunked allPatience patience id log result)
    (hids : CarriesIds log) : plan.Course (Awaited job id interval chunked) log result := by
  cases h with
  | broken _ e h =>
    rcases h.polled.calm_or_failed rfl with ⟨hcalm, -⟩ | ⟨_, _, _, _, _, hok⟩
    · exact .of_calm hcalm e _
    · cases hok
  | reached polls rest b left _ h hrest =>
    have hpolled := h.polled
    obtain rfl : b.id = id := hpolled.id_eq hids.left
    rcases hpolled.calm_or_failed rfl with
      ⟨hcalm, hunfailed⟩ | ⟨before, _, rfl, hbefore, hfailed, hok⟩
    · rcases trace_await_of_ends plan job interval chunked allPatience left b
          (hpolled.ends_state) rest result hrest with
        ⟨hdone, rfl, rfl⟩ | ⟨hfailed, -, -⟩ | ⟨hsplit, hchunked, hchunks⟩
      · rw [List.append_nil]
        exact .good polls [b] (fun x hx e' => (hcalm x hx).harmless plan e')
          (.whole polls b hpolled hdone)
      · exact absurd hfailed (hunfailed b rfl)
      · have hcourse := trace_awaitChunks plan job interval allPatience rest result hchunks
          hids.right
        exact hcourse.after polls hcalm fun bs hbs =>
          .split polls rest b bs hpolled hchunked hsplit hbs
    · cases hok
      rw [await_of_failed plan job interval chunked allPatience left b hfailed] at hrest
      obtain ⟨rfl, rfl⟩ := (trace_throw_iff rest _ result).1 hrest
      rw [List.append_nil]
      exact .alarmed before _ [] _ hbefore (.failed job b.id b hfailed) (by simp)

theorem trace_await (log : List (Exchange services))
    (result : Except ExtractError (List BatchInfo))
    (ht : Trace (plan.await job chunked interval allPatience patience batch) log result)
    (hids : CarriesIds (asked job batch.id (.ok batch) :: log)) :
    plan.Course (Awaited job batch.id interval chunked) (asked job batch.id (.ok batch) :: log)
      result := by
  have hturn := turn_of_trace_await batch log result ht
    fun job id b hb => hids job id b (List.mem_cons_of_mem _ hb)
  exact hturn.course hids

end Await

end Traces

end JobPlan

end Harvest
