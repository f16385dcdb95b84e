import Harvest.Job.Polling
import Harvest.Proofs.Engine

/-!
# What waiting for batches exchanges

A batch is asked for until one of the states is told at which its waiting ends (`Polled`). The
children of a split batch are waited for in order, each until it is completed (`Completed`); a
child that failed is the last thing that is asked for (`Polling.trace_waitEach`).

Exchanges are `Calm` that neither tell of a failure nor list results.
-/

namespace Harvest

open Engine
open Program (Trace Exchange)

/-- The exchange that asks for the state of a batch. -/
def asked (job id : String) (reply : Except ExtractError BatchInfo) : Exchange services :=
  ⟨.batchStatus job id, reply⟩

namespace Polling

/-- Answers by which a batch is still at work, with a sleep behind each of them. -/
def waits (job : String) (interval : Nat) (id : String) (bs : List BatchInfo) :
    List (Exchange services) :=
  bs.flatMap fun b => [asked job id (.ok b), ⟨.sleep interval, ()⟩]

/-- The questions for one batch, up to a state that is final, to an answer that is refused, or to
the end of the patience. -/
inductive Round (job : String) (interval patience : Nat) (final : BatchState → Bool) (id : String) :
    List (Exchange services) → Except ExtractError BatchInfo → Prop
  | settled (bs : List BatchInfo) (b : BatchInfo) (hbs : ∀ b ∈ bs, final b.state = false)
      (hb : final b.state = true) :
    Round job interval patience final id (waits job interval id bs ++ [asked job id (.ok b)])
      (.ok b)
  | refused (bs : List BatchInfo) (e : ExtractError) (hbs : ∀ b ∈ bs, final b.state = false) :
    Round job interval patience final id (waits job interval id bs ++ [asked job id (.error e)])
      (.error e)
  | exhausted (bs : List BatchInfo) (b : BatchInfo) (hbs : ∀ b ∈ bs, final b.state = false)
      (hb : final b.state = false) (hlength : bs.length = patience) :
    Round job interval patience final id (waits job interval id bs ++ [asked job id (.ok b)])
      (.error (.unsettled job id))

end Polling

/-- A batch is asked for, with a sleep between two questions, until it is told to be in a state
that ends the waiting. The waiting may break off with an error. -/
def Polled (job id : String) (interval : Nat) (ends : BatchState → Bool)
    (log : List (Exchange services)) (result : Except ExtractError BatchInfo) : Prop :=
  ∃ patience, Polling.Round job interval patience ends id log result

/-- The batches are asked for in order, each until it is told to be completed. -/
inductive Completed (job : String) (interval : Nat) :
    List BatchInfo → List (Exchange services) → List BatchInfo → Prop
  | nil : Completed job interval [] [] []
  | cons (batch : BatchInfo) (batches : List BatchInfo) (first rest : List (Exchange services))
      (b : BatchInfo) (bs : List BatchInfo)
      (hfirst : Polled job batch.id interval BatchState.isTerminal first (.ok b))
      (hb : b.state = .completed) (hrest : Completed job interval batches rest bs) :
    Completed job interval (batch :: batches) (first ++ rest) (b :: bs)

/-- No batch is told to have failed, no job to have no child batches, and no results are
listed. -/
def Calm (x : Exchange services) : Prop :=
  match x with
  | ⟨.batchStatus _ _, reply⟩ => ∀ b, reply = .ok b → b.state ≠ .failed
  | ⟨.listBatches _, reply⟩ => ∀ batches, reply = .ok batches → batches.drop 1 ≠ []
  | ⟨.listResults _ _, _⟩ => False
  | _ => True

/-- What is told of a batch is told under the id that was asked for. -/
def CarriesIds (log : List (Exchange services)) : Prop :=
  ∀ job id b, asked job id (.ok b) ∈ log → b.id = id

theorem CarriesIds.left {first rest : List (Exchange services)}
    (h : CarriesIds (first ++ rest)) : CarriesIds first :=
  fun job id b hb => h job id b (List.mem_append_left _ hb)

theorem CarriesIds.right {first rest : List (Exchange services)}
    (h : CarriesIds (first ++ rest)) : CarriesIds rest :=
  fun job id b hb => h job id b (List.mem_append_right _ hb)

theorem calm_asked (job id : String) (b : BatchInfo) (h : b.state ≠ .failed) :
    Calm (asked job id (.ok b)) := by
  intro b' hb'
  cases hb'
  exact h

theorem calm_asked_error (job id : String) (e : ExtractError) :
    Calm (asked job id (.error e)) := by
  intro b hb
  cases hb

theorem calm_waits (job id : String) (interval : Nat) {bs : List BatchInfo}
    (h : ∀ b ∈ bs, b.state ≠ .failed) : ∀ x ∈ Polling.waits job interval id bs, Calm x := by
  intro x hx
  obtain ⟨b, hb, hx⟩ := List.mem_flatMap.1 hx
  have hcalm : ∀ x ∈ [asked job id (.ok b), ⟨.sleep interval, ()⟩], Calm x :=
    List.forall_mem_cons.2 ⟨calm_asked job id b (h b hb), List.forall_mem_singleton.2 trivial⟩
  exact hcalm x hx

namespace Polled

variable {job id : String} {interval : Nat} {ends : BatchState → Bool}
  {log : List (Exchange services)} {result : Except ExtractError BatchInfo} {b : BatchInfo}

theorem ends_state (h : Polled job id interval ends log (.ok b)) : ends b.state = true := by
  obtain ⟨_, hround⟩ := h
  cases hround with
  | settled bs _ hbs hb => exact hb

theorem id_eq (h : Polled job id interval ends log (.ok b)) (hids : CarriesIds log) :
    b.id = id := by
  obtain ⟨_, hround⟩ := h
  cases hround with
  | settled bs _ hbs hb => exact hids job id b (List.mem_append_right _ (List.mem_singleton_self _))

/-- Where a failure ends the waiting, nothing is asked for behind it. -/
theorem calm_or_failed (h : Polled job id interval ends log result)
    (hends : ends .failed = true) :
    ((∀ x ∈ log, Calm x) ∧ ∀ b, result = .ok b → b.state ≠ .failed) ∨
      ∃ before b, log = before ++ [asked job id (.ok b)] ∧ (∀ x ∈ before, Calm x) ∧
        b.state = .failed ∧ result = .ok b := by
  have hwaits (b : BatchInfo) (hb : ends b.state = false) : b.state ≠ .failed := by
    intro hfailed
    rw [hfailed, hends] at hb
    cases hb
  have hcalm {bs : List BatchInfo} (hbs : ∀ b ∈ bs, ends b.state = false) :=
    calm_waits job id interval fun b hb => hwaits b (hbs b hb)
  obtain ⟨_, hround⟩ := h
  cases hround with
  | settled bs b hbs hb =>
    by_cases hfailed : b.state = .failed
    · exact .inr ⟨_, b, rfl, hcalm hbs, hfailed, rfl⟩
    · refine .inl ⟨List.forall_mem_append.2 ⟨hcalm hbs,
        List.forall_mem_singleton.2 (calm_asked job id b hfailed)⟩, ?_⟩
      rintro _ ⟨⟩
      exact hfailed
  | refused bs e hbs =>
    exact .inl ⟨List.forall_mem_append.2 ⟨hcalm hbs,
      List.forall_mem_singleton.2 (calm_asked_error job id e)⟩, nofun⟩
  | exhausted bs b hbs hb _ =>
    exact .inl ⟨List.forall_mem_append.2 ⟨hcalm hbs,
      List.forall_mem_singleton.2 (calm_asked job id b (hwaits b hb))⟩, nofun⟩

end Polled

namespace Completed

variable {job : String} {interval : Nat} {batches bs : List BatchInfo}
  {log : List (Exchange services)}

theorem state (h : Completed job interval batches log bs) :
    ∀ b ∈ bs, b.state = .completed := by
  induction h with
  | nil => simp
  | cons batch batches first rest b bs hfirst hb hrest ih => exact List.forall_mem_cons.2 ⟨hb, ih⟩

theorem map_id (h : Completed job interval batches log bs) (hids : CarriesIds log) :
    bs.map BatchInfo.id = batches.map BatchInfo.id := by
  induction h with
  | nil => rfl
  | cons batch batches first rest b bs hfirst hb hrest ih =>
    rw [List.map_cons, List.map_cons, hfirst.id_eq hids.left, ih hids.right]

end Completed

/-- How waiting for children ends: it breaks off with an error, or a child that failed is the
last to be asked for, or all of them are completed. -/
inductive Waited (job : String) (interval : Nat) :
    List BatchInfo → List (Exchange services) → Except ExtractError (List BatchInfo) → Prop
  | broken (children : List BatchInfo) (log : List (Exchange services)) (e : ExtractError)
      (hcalm : ∀ x ∈ log, Calm x) :
    Waited job interval children log (.error e)
  | failed (children : List BatchInfo) (before : List (Exchange services)) (id : String)
      (b : BatchInfo) (bs : List BatchInfo) (hcalm : ∀ x ∈ before, Calm x)
      (hb : b.state = .failed) (hlast : bs.getLast? = some b) :
    Waited job interval children (before ++ [asked job id (.ok b)]) (.ok bs)
  | completed (children : List BatchInfo) (log : List (Exchange services)) (bs : List BatchInfo)
      (hcalm : ∀ x ∈ log, Calm x) (h : Completed job interval children log bs) :
    Waited job interval children log (.ok bs)

/-- A child that is completed comes before the others. -/
theorem Waited.cons {job : String} {interval : Nat} {children : List BatchInfo}
    {rest : List (Exchange services)} {result : Except ExtractError (List BatchInfo)}
    (h : Waited job interval children rest result) (child : BatchInfo)
    (first : List (Exchange services)) (b : BatchInfo)
    (hpolled : Polled job child.id interval BatchState.isTerminal first (.ok b))
    (hb : b.state = .completed) (hfirst : ∀ x ∈ first, Calm x) :
    Waited job interval (child :: children) (first ++ rest) (result.map (b :: ·)) := by
  cases h with
  | broken log e hcalm => exact .broken _ _ e (List.forall_mem_append.2 ⟨hfirst, hcalm⟩)
  | failed before id b' bs hcalm hb' hlast =>
    have hlast' : (b :: bs).getLast? = some b' := by
      rw [List.getLast?_cons, hlast]
      rfl
    rw [← List.append_assoc]
    exact .failed _ (first ++ before) id b' (b :: bs)
      (List.forall_mem_append.2 ⟨hfirst, hcalm⟩) hb' hlast'
  | completed log bs hcalm hdone =>
    exact .completed _ _ (b :: bs) (List.forall_mem_append.2 ⟨hfirst, hcalm⟩)
      (.cons child children first rest b bs hpolled hb hdone)

namespace Polling

variable (job : String) (interval : Nat)

theorem trace_batchStatus_bind {α : Type} (id : String) (f : BatchInfo → Engine α)
    (log : List (Exchange services)) (result : Except ExtractError α)
    (ht : Trace (batchStatus job id >>= f : Engine α) log result) :
    (∃ e, log = [asked job id (.error e)] ∧ result = .error e) ∨
      ∃ b rest, log = asked job id (.ok b) :: rest ∧ Trace (f b) rest result :=
  trace_asks_bind log _ f result (asked job id)
    (fun first reply h => (trace_request_iff first (.batchStatus job id) reply).1 h) ht

theorem settle_of_isTerminal (id : String) (patience : Nat) (batch : BatchInfo)
    (h : batch.state.isTerminal = true) : settle job interval id patience batch = pure batch := by
  cases patience <;> rw [settle, if_pos h]

section Rounds

variable {job : String} {interval patience : Nat} {final : BatchState → Bool} {id : String}
  {log : List (Exchange services)} {result : Except ExtractError BatchInfo}

theorem Round.polled (h : Round job interval patience final id log result) :
    Polled job id interval final log result :=
  ⟨patience, h⟩

/-- One more answer by which the batch is at work comes first. -/
theorem Round.waited (h : Round job interval patience final id log result) (b : BatchInfo)
    (hb : final b.state = false) :
    Round job interval (patience + 1) final id
      (asked job id (.ok b) :: ⟨.sleep interval, ()⟩ :: log) result := by
  cases h with
  | settled bs b' hbs hb' => exact .settled (b :: bs) b' (List.forall_mem_cons.2 ⟨hb, hbs⟩) hb'
  | refused bs e hbs => exact .refused (b :: bs) e (List.forall_mem_cons.2 ⟨hb, hbs⟩)
  | exhausted bs b' hbs hb' hlength =>
    exact .exhausted (b :: bs) b' (List.forall_mem_cons.2 ⟨hb, hbs⟩) hb' (congrArg (· + 1) hlength)

theorem Round.settled_at_once (b : BatchInfo) (hb : final b.state = true) :
    Round job interval patience final id [asked job id (.ok b)] (.ok b) :=
  .settled [] b (List.forall_mem_nil _) hb

theorem Round.refused_at_once (e : ExtractError) :
    Round job interval patience final id [asked job id (.error e)] (.error e) :=
  .refused [] e (List.forall_mem_nil _)

theorem Round.exhausted_at_once (b : BatchInfo) (hb : final b.state = false) :
    Round job interval 0 final id [asked job id (.ok b)] (.error (.unsettled job id)) :=
  .exhausted [] b (List.forall_mem_nil _) hb rfl

end Rounds

theorem round_of_trace_settle (id : String) (patience : Nat) (batch : BatchInfo)
    (log : List (Exchange services)) (result : Except ExtractError BatchInfo)
    (ht : Trace (settle job interval id patience batch) log result) :
    Round job interval patience BatchState.isTerminal id (asked job id (.ok batch) :: log)
      result := by
  -- A batch that is still at work is the only case that goes on.
  induction patience generalizing batch log with
  | zero =>
    rw [settle] at ht
    split at ht
    · rename_i hends
      obtain ⟨rfl, rfl⟩ := (trace_pure_iff log batch result).1 ht
      exact .settled_at_once batch hends
    · rename_i hends
      obtain ⟨rfl, rfl⟩ := (trace_throw_iff log _ result).1 ht
      exact .exhausted_at_once batch (Bool.eq_false_iff.2 hends)
  | succ patience ih =>
    by_cases hends : batch.state.isTerminal = true
    · rw [settle_of_isTerminal job interval id _ batch hends] at ht
      obtain ⟨rfl, rfl⟩ := (trace_pure_iff log batch result).1 ht
      exact .settled_at_once batch hends
    · rw [settle, if_neg hends] at ht
      obtain ⟨rest, rfl, hrest⟩ := trace_sleep_bind log interval _ result ht
      refine Round.waited ?_ batch (Bool.eq_false_iff.2 hends)
      rcases trace_batchStatus_bind job id _ rest result hrest with
        ⟨e, rfl, rfl⟩ | ⟨b, last, rfl, hlast⟩
      · exact .refused_at_once e
      · exact ih b last hlast

theorem round_of_trace_untilTerminal (id : String) (patience : Nat)
    (log : List (Exchange services)) (result : Except ExtractError BatchInfo)
    (ht : Trace (untilTerminal job id interval patience) log result) :
    Round job interval patience BatchState.isTerminal id log result := by
  rcases trace_batchStatus_bind job id _ log result ht with
    ⟨e, rfl, rfl⟩ | ⟨b, rest, rfl, hrest⟩
  · exact .refused_at_once e
  · exact round_of_trace_settle job interval id patience b rest result hrest

theorem trace_untilTerminal (id : String) (patience : Nat) (log : List (Exchange services))
    (result : Except ExtractError BatchInfo)
    (ht : Trace (untilTerminal job id interval patience) log result) :
    Polled job id interval BatchState.isTerminal log result :=
  (round_of_trace_untilTerminal job interval id patience log result ht).polled

/-- Every child is waited for, but none behind one that failed. -/
theorem trace_waitEach (patience : Nat) (children : List BatchInfo)
    (log : List (Exchange services)) (result : Except ExtractError (List BatchInfo))
    (ht : Trace (waitEach job interval patience children) log result) :
    Waited job interval children log result := by
  induction children generalizing log result with
  | nil =>
    obtain ⟨rfl, rfl⟩ := (trace_pure_iff log _ result).1 ht
    exact .completed [] [] [] (by simp) .nil
  | cons child children ih =>
    rcases (trace_bind_iff log _ _ result).1 ht with
      ⟨e, h, rfl⟩ | ⟨b, first, rest, rfl, hfirst, hrest⟩
    · have hpolled := trace_untilTerminal job interval child.id patience log _ h
      rcases hpolled.calm_or_failed rfl with ⟨hcalm, -⟩ | ⟨before, b, -, -, -, hb⟩
      · exact .broken _ log e hcalm
      · cases hb
    · have hpolled := trace_untilTerminal job interval child.id patience first _ hfirst
      rcases hpolled.calm_or_failed rfl with ⟨hcalm, hstate⟩ | ⟨before, b', rfl, hcalm, hb', heq⟩
      · have hnot := hstate b rfl
        have hdone : b.state = .completed :=
          ((BatchState.isTerminal_iff b.state).1 (hpolled.ends_state)).resolve_right hnot
        simp only [if_neg hnot] at hrest
        obtain ⟨reply, hreply, rfl⟩ := trace_bind_pure rest _ (b :: ·) result hrest
        exact (ih rest reply hreply).cons child first b hpolled hdone hcalm
      · cases heq
        simp only [if_pos hb'] at hrest
        obtain ⟨rfl, rfl⟩ := (trace_pure_iff rest _ result).1 hrest
        rw [List.append_nil]
        exact .failed _ before child.id b [b] hcalm hb' rfl

end Polling

end Harvest
