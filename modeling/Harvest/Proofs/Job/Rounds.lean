import Harvest.Proofs.Job.Splitting

/-!
# The rounds of a job

While the batches of a job are waited for, each of them is asked for in a round of its own, and
nothing else takes time. `Rota.Rounds` is the shape that the exchanges of a whole preparation have:
rounds for different batches behind each other, in the order of the batches, with quiet exchanges
between them (`JobPlan.rounds_of_trace_gather`).
-/

namespace Harvest

open Engine
open Program (Trace Exchange)
open Polling (Round waits)

/-- What is to be waited for: the batch of a job that was submitted, and the batches that it was
split into, if it was. -/
structure Rota where
  job : String
  primary : String
  children : List String
  chunked : Bool
  interval : Nat
  patience : Nat

namespace Rota

variable (r : Rota)

/-- A state behind which a batch is not asked for any more. A batch that is not processed is done
with only if it is the one that may have been split. -/
def isFinal (id : String) : BatchState → Bool
  | .completed => true
  | .failed => true
  | .notProcessed => r.chunked && decide (id = r.primary)
  | _ => false

theorem isFinal_primary : r.isFinal r.primary = JobPlan.ends r.chunked := by
  funext s
  cases s <;> simp [isFinal, JobPlan.ends, BatchState.isTerminal]

theorem isFinal_of_ne {id : String} (h : id ≠ r.primary) :
    r.isFinal id = BatchState.isTerminal := by
  funext s
  cases s <;> simp [isFinal, BatchState.isTerminal, h]

/-- What comes behind the last answer for a batch: nothing is asked for or waited for where the
batch failed, or where it was not split; the batches it was split into are listed at once. -/
structure Behind (id : String) (s : BatchState) (rest : List (Exchange services)) : Prop where
  quiet : s = .failed ∨ id = r.primary ∧ s = .completed → ∀ x ∈ rest, Quiet x
  listed : id = r.primary → s = .notProcessed → ∃ reply last,
    rest = ⟨.listBatches r.job, reply⟩ :: last ∧
      ∀ batches, reply = .ok batches → r.children = (batches.drop 1).map BatchInfo.id

/-- The batches are asked for in rounds. Of the batches that may be asked for some may be left, and
the rounds may have stopped with an error. -/
inductive Rounds : List String → List (Exchange services) → Option ExtractError → List String → Prop
  | nil (ids : List String) : Rounds ids [] none ids
  | quiet (ids : List String) (x : Exchange services) (log : List (Exchange services))
      (stop : Option ExtractError) (left : List String) (hx : Quiet x)
      (h : Rounds ids log stop left) :
    Rounds ids (x :: log) stop left
  | settled (id : String) (ids : List String) (polls : List (Exchange services)) (b : BatchInfo)
      (rest : List (Exchange services)) (stop : Option ExtractError) (left : List String)
      (hround : Round r.job r.interval r.patience (r.isFinal id) id polls (.ok b))
      (hfresh : id ∉ ids) (hbehind : r.Behind id b.state rest) (hrest : Rounds ids rest stop left) :
    Rounds (id :: ids) (polls ++ rest) stop left
  | broken (id : String) (ids : List String) (polls : List (Exchange services)) (e : ExtractError)
      (rest : List (Exchange services))
      (hround : Round r.job r.interval r.patience (r.isFinal id) id polls (.error e))
      (hrest : ∀ x ∈ rest, Quiet x) :
    Rounds (id :: ids) (polls ++ rest) (some e) ids

variable {r} {ids left : List String} {log rest : List (Exchange services)}
  {stop : Option ExtractError}

theorem Behind.append {id : String} {s : BatchState} (h : r.Behind id s log)
    (hrest : ∀ x ∈ rest, Quiet x) : r.Behind id s (log ++ rest) where
  quiet hs := List.forall_mem_append.2 ⟨h.quiet hs, hrest⟩
  listed hid hs := by
    obtain ⟨reply, last, rfl, hchildren⟩ := h.listed hid hs
    exact ⟨reply, last ++ rest, rfl, hchildren⟩

namespace Rounds

theorem of_quiet (ids : List String) (h : ∀ x ∈ log, Quiet x) : r.Rounds ids log none ids := by
  induction log with
  | nil => exact .nil ids
  | cons x log ih =>
    obtain ⟨hx, hlog⟩ := List.forall_mem_cons.1 h
    exact .quiet ids x log none ids hx (ih hlog)

theorem append (h : r.Rounds ids log stop left) (hrest : ∀ x ∈ rest, Quiet x) :
    r.Rounds ids (log ++ rest) stop left := by
  induction h with
  | nil ids => exact of_quiet ids hrest
  | quiet ids x log stop left hx h ih => exact .quiet ids x _ stop left hx ih
  | settled id ids polls b log stop left hround hfresh hbehind h ih =>
    rw [List.append_assoc]
    exact .settled id ids polls b _ stop left hround hfresh (hbehind.append hrest) ih
  | broken id ids polls e log hround hlog =>
    rw [List.append_assoc]
    exact .broken id ids polls e _ hround (List.forall_mem_append.2 ⟨hlog, hrest⟩)

theorem after (h : r.Rounds ids log stop left) {first : List (Exchange services)}
    (hfirst : ∀ x ∈ first, Quiet x) : r.Rounds ids (first ++ log) stop left := by
  induction first with
  | nil => exact h
  | cons x first ih =>
    obtain ⟨hx, hfirst⟩ := List.forall_mem_cons.1 hfirst
    exact .quiet ids x _ stop left hx (ih hfirst)

end Rounds

/-- How a program that asks for batches in rounds ends: with the error that stopped the rounds, or
well, if no batch is left. -/
def Ends {α : Type} (stop : Option ExtractError) (left : List String)
    (result : Except ExtractError α) : Prop :=
  (∀ e, stop = some e → result = .error e) ∧ ∀ a, result = .ok a → left = []

theorem Ends.error {α β : Type} {e : ExtractError}
    (h : Ends stop left (.error e : Except ExtractError α)) :
    Ends stop left (.error e : Except ExtractError β) := by
  refine ⟨fun e' he' => ?_, nofun⟩
  cases h.1 e' he'
  rfl

/-- Rounds behind which a program ends well were not stopped. -/
theorem Ends.ok {α : Type} {a : α} (h : Ends stop left (.ok a : Except ExtractError α)) :
    stop = none ∧ left = [] := by
  refine ⟨?_, h.2 a rfl⟩
  cases stop with
  | none => rfl
  | some e => cases h.1 e rfl

/-- The children are asked for one after the other, up to the first that failed. -/
theorem rounds_of_trace_waitEach (children : List BatchInfo)
    (hids : (r.primary :: children.map BatchInfo.id).Nodup) (log : List (Exchange services))
    (result : Except ExtractError (List BatchInfo))
    (ht : Trace (Polling.waitEach r.job r.interval r.patience children) log result) :
    ∃ stop left, r.Rounds (children.map BatchInfo.id) log stop left ∧
      (∀ e, stop = some e → result = .error e) ∧
      ∀ bs, result = .ok bs → left = [] ∨ ∃ b, bs.getLast? = some b ∧ b.state = .failed := by
  induction children generalizing log result with
  | nil =>
    obtain ⟨rfl, rfl⟩ := (trace_pure_iff log _ result).1 ht
    exact ⟨none, [], .nil [], nofun, fun _ _ => .inl rfl⟩
  | cons child children ih =>
    rw [List.map_cons, List.nodup_cons, List.nodup_cons, List.mem_cons, not_or] at hids
    obtain ⟨⟨hne, hprimary⟩, hfresh, hnodup⟩ := hids
    have hchild : r.isFinal child.id = BatchState.isTerminal :=
      r.isFinal_of_ne (Ne.symm hne)
    have hround (log : List (Exchange services)) (reply : Except ExtractError BatchInfo)
        (h : Trace (Polling.untilTerminal r.job child.id r.interval r.patience) log reply) :
        Round r.job r.interval r.patience (r.isFinal child.id) child.id log reply := by
      rw [hchild]
      exact Polling.round_of_trace_untilTerminal r.job r.interval child.id r.patience log reply h
    rcases (trace_bind_iff log _ _ result).1 ht with
      ⟨e, h, rfl⟩ | ⟨b, first, rest, rfl, hfirst, hrest⟩
    · refine ⟨some e, children.map BatchInfo.id, ?_, ?_, nofun⟩
      · rw [← List.append_nil log]
        exact .broken child.id _ log e [] (hround log _ h) (List.forall_mem_nil _)
      · rintro _ ⟨⟩
        rfl
    · by_cases hfailed : b.state = .failed
      · rw [if_pos hfailed] at hrest
        obtain ⟨rfl, rfl⟩ := (trace_pure_iff rest _ result).1 hrest
        refine ⟨none, children.map BatchInfo.id, ?_, nofun, ?_⟩
        · exact .settled child.id _ first b [] none _ (hround first _ hfirst) hfresh
            ⟨fun _ => List.forall_mem_nil _, fun hid => absurd hid (Ne.symm hne)⟩ (.nil _)
        · rintro _ ⟨⟩
          exact .inr ⟨b, rfl, hfailed⟩
      · rw [if_neg hfailed] at hrest
        obtain ⟨reply, hreply, rfl⟩ := trace_bind_pure rest _ (b :: ·) result hrest
        obtain ⟨stop, left, hrounds, hstop, hleft⟩ :=
          ih (List.nodup_cons.2 ⟨hprimary, hnodup⟩) rest reply hreply
        refine ⟨stop, left, ?_, fun e he => ?_, fun bs hbs => ?_⟩
        · refine .settled child.id _ first b rest stop left (hround first _ hfirst) hfresh
            ⟨?_, fun hid => absurd hid (Ne.symm hne)⟩ hrounds
          rintro (h | ⟨hid, -⟩)
          · exact absurd h hfailed
          · exact absurd hid (Ne.symm hne)
        · rw [hstop e he]
          rfl
        · cases reply with
          | error e => cases hbs
          | ok others =>
            cases hbs
            rcases hleft others rfl with h | ⟨b', hlast, hb'⟩
            · exact .inl h
            · refine .inr ⟨b', ?_, hb'⟩
              rw [List.getLast?_cons, hlast]
              rfl

end Rota

namespace JobPlan

variable (plan : JobPlan) (job : String) (interval patience : Nat) (chunked : Bool)

/-- The children are waited for in rounds, and nothing is asked behind the last one. -/
theorem rounds_of_trace_children (r : Rota) (batches : List BatchInfo)
    (hchildren : r.children = (batches.drop 1).map BatchInfo.id)
    (hnodup : (r.primary :: r.children).Nodup) (log : List (Exchange services))
    (result : Except ExtractError (List BatchInfo))
    (ht : Trace (do
      let answers ← Polling.waitForChildren r.job r.interval r.patience batches
      plan.lastSettled r.job batches answers : Engine (List BatchInfo)) log result) :
    ∃ stop left, r.Rounds r.children log stop left ∧ Rota.Ends stop left result := by
  rw [hchildren] at hnodup ⊢
  rcases (trace_bind_iff log _ _ result).1 ht with
    ⟨e, h, rfl⟩ | ⟨answers, waited, last, rfl, hwaited, hlast⟩
  · obtain ⟨stop, left, hrounds, hstop, -⟩ :=
      Rota.rounds_of_trace_waitEach (r := r) (batches.drop 1) hnodup log _ h
    refine ⟨stop, left, hrounds, fun e' he' => ?_, nofun⟩
    cases hstop e' he'
    rfl
  · obtain ⟨stop, left, hrounds, hstop, hleft⟩ :=
      Rota.rounds_of_trace_waitEach (r := r) (batches.drop 1) hnodup waited _ hwaited
    obtain rfl : stop = none := by
      cases stop with
      | none => rfl
      | some e => cases hstop e rfl
    rcases plan.trace_lastSettled r.job last result hlast with
      ⟨-, rfl, ⟨e, rfl⟩⟩ | ⟨b, -, -, rfl, rfl⟩ | ⟨b, hb, hunfailed, rfl, -⟩
    · exact ⟨none, left, by rwa [List.append_nil], nofun, nofun⟩
    · exact ⟨none, left, by rwa [List.append_nil], nofun, nofun⟩
    · refine ⟨none, left, by rwa [List.append_nil], nofun, fun _ _ => ?_⟩
      rcases hleft answers rfl with h | ⟨b', hb', hfailed⟩
      · exact h
      · obtain rfl : b' = b := Option.some.inj (hb'.symm.trans hb)
        exact absurd hfailed hunfailed

theorem rounds_of_trace_awaitChunks (primary : String) (log : List (Exchange services))
    (result : Except ExtractError (List BatchInfo))
    (ht : Trace (plan.awaitChunks job interval patience) log result)
    (hids : ∀ batches, ⟨.listBatches job, .ok batches⟩ ∈ log →
      (primary :: (batches.drop 1).map BatchInfo.id).Nodup) :
    ∃ children reply rest stop left, log = ⟨.listBatches job, reply⟩ :: rest ∧
      (∀ batches, reply = .ok batches → children = (batches.drop 1).map BatchInfo.id) ∧
      (children ≠ [] → ∃ batches, reply = .ok batches) ∧ (primary :: children).Nodup ∧
      (Rota.mk job primary children chunked interval patience).Rounds children rest stop left ∧
      Rota.Ends stop left result := by
  rcases trace_asks_bind log (listBatches job) _ result (fun reply => ⟨.listBatches job, reply⟩)
      (fun first reply h => (trace_request_iff first (.listBatches job) reply).1 h) ht with
    ⟨e, rfl, rfl⟩ | ⟨batches, rest, rfl, hrest⟩
  · exact ⟨[], _, [], none, [], rfl, nofun, fun h => absurd rfl h, by simp,
      .nil [], nofun, nofun⟩
  · have hnodup := hids batches List.mem_cons_self
    obtain ⟨stop, left, hrounds, hends⟩ := plan.rounds_of_trace_children
      ⟨job, primary, (batches.drop 1).map BatchInfo.id, chunked, interval, patience⟩ batches rfl
      hnodup rest result hrest
    refine ⟨_, _, rest, stop, left, rfl, ?_, fun _ => ⟨batches, rfl⟩, hnodup, hrounds, hends⟩
    rintro _ ⟨⟩
    rfl

variable {plan job interval patience chunked}

/-- The rounds of a job: the one for the batch that was submitted, and then those for its
children. -/
theorem Turn.rounds {primary : String} {log : List (Exchange services)}
    {result : Except ExtractError (List BatchInfo)}
    (h : plan.Turn job interval chunked patience patience primary log result)
    (hids : ∀ batches, ⟨.listBatches job, .ok batches⟩ ∈ log →
      (primary :: (batches.drop 1).map BatchInfo.id).Nodup) :
    ∃ children stop left, (primary :: children).Nodup ∧
      (children = [] ∨ ∃ batches, ⟨.listBatches job, .ok batches⟩ ∈ log ∧
        children = (batches.drop 1).map BatchInfo.id) ∧
      (Rota.mk job primary children chunked interval patience).Rounds (primary :: children) log stop
        left ∧
      Rota.Ends stop left result := by
  have hone : [primary].Nodup := by simp
  have hfinal (children : List String) :
      (Rota.mk job primary children chunked interval patience).isFinal primary = ends chunked :=
    Rota.isFinal_primary _
  cases h with
  | broken _ e h =>
    refine ⟨[], some e, [], hone, .inl rfl, ?_, ?_, nofun⟩
    · rw [← List.append_nil log]
      exact .broken primary [] log e [] (by rwa [hfinal]) (List.forall_mem_nil _)
    · rintro _ ⟨⟩
      rfl
  | reached polls rest b _ _ h hrest =>
    have hquiet (hsplit : b.state ≠ .notProcessed) (hnil : rest = []) :
        (Rota.mk job primary [] chunked interval patience).Rounds [primary] (polls ++ rest) none
          [] := by
      rw [hnil]
      exact .settled primary [] polls b [] none [] (by rwa [hfinal]) List.not_mem_nil
        ⟨fun _ => List.forall_mem_nil _, fun _ h => absurd h hsplit⟩ (.nil [])
    rcases trace_await_of_ends plan job interval chunked patience _ b (h.polled.ends_state)
        rest result hrest with
      ⟨hdone, hnil, -⟩ | ⟨hfailed, hnil, -⟩ | ⟨hsplit, -, hchunks⟩
    · exact ⟨[], none, [], hone, .inl rfl, hquiet (by simp [hdone]) hnil, nofun, fun _ _ => rfl⟩
    · exact ⟨[], none, [], hone, .inl rfl, hquiet (by simp [hfailed]) hnil, nofun, fun _ _ => rfl⟩
    · obtain ⟨children, reply, waited, stop, left, rfl, hchildren, hsome, hnodup, hrounds, hends⟩ :=
        plan.rounds_of_trace_awaitChunks job interval patience chunked primary rest result hchunks
          fun batches hmem => hids batches (List.mem_append_right _ hmem)
      refine ⟨children, stop, left, hnodup, ?_, ?_, hends⟩
      · by_cases hnone : children = []
        · exact .inl hnone
        · obtain ⟨batches, rfl⟩ := hsome hnone
          exact .inr ⟨batches, by simp, hchildren batches rfl⟩
      · refine .settled primary children polls b _ stop left (by rwa [hfinal])
          (List.nodup_cons.1 hnodup).1 ⟨?_, fun _ _ => ⟨reply, waited, rfl, hchildren⟩⟩
          (.quiet children _ waited stop left trivial hrounds)
        simp [hsplit]

theorem rounds_of_trace_gather {job : OpenJob} {primary : String} {log : List (Exchange services)}
    {result : Except ExtractError PreparedJob}
    (ht : Trace (plan.gather job chunked interval patience primary) log result)
    (hids : CarriesIds log) (hlists : ∀ batches, ⟨.listBatches job.id, .ok batches⟩ ∈ log →
      (primary :: (batches.drop 1).map BatchInfo.id).Nodup) :
    ∃ children stop left, (primary :: children).Nodup ∧
      (children = [] ∨ ∃ batches, ⟨.listBatches job.id, .ok batches⟩ ∈ log ∧
        children = (batches.drop 1).map BatchInfo.id) ∧
      (Rota.mk job.id primary children chunked interval patience).Rounds (primary :: children) log
        stop left ∧
      Rota.Ends stop left result := by
  rcases Polling.trace_batchStatus_bind job.id primary _ log result ht with
    ⟨e, rfl, rfl⟩ | ⟨batch, rest, rfl, hrest⟩
  · refine ⟨[], some e, [], by simp, .inl rfl, ?_, ?_, nofun⟩
    · exact .broken primary [] [asked job.id primary (.error e)] e [] (.refused_at_once e)
        (List.forall_mem_nil _)
    · rintro _ ⟨⟩
      rfl
  · obtain rfl : batch.id = primary := hids job.id primary batch List.mem_cons_self
    rcases (trace_bind_iff rest _ _ result).1 hrest with
      ⟨e, h, rfl⟩ | ⟨bs, waited, last, rfl, hwaited, hlast⟩
    · obtain ⟨children, stop, left, hnodup, hsome, hrounds, hends⟩ :=
        (turn_of_trace_await batch rest _ h fun job id b hb => hids job id b (by simp [hb])).rounds
          hlists
      exact ⟨children, stop, left, hnodup, hsome, hrounds, hends.error⟩
    · rw [← List.cons_append] at hlists ⊢
      obtain ⟨children, stop, left, hnodup, hsome, hrounds, hends⟩ :=
        (turn_of_trace_await batch waited _ hwaited
          fun job id b hb => hids job id b (by simp [hb])).rounds
          fun batches hmem => hlists batches (List.mem_append_left _ hmem)
      obtain ⟨rfl, rfl⟩ := hends.ok
      obtain ⟨reply, hcollected, -⟩ := trace_bind_pure last _ _ result hlast
      have hkinds := (asks_collectResults job.id bs).of_trace hcollected
      have hlisted : children = [] ∨ ∃ batches,
          ⟨.listBatches job.id, .ok batches⟩ ∈ asked job.id batch.id (.ok batch) :: waited ++ last ∧
            children = (batches.drop 1).map BatchInfo.id :=
        hsome.imp_right fun ⟨batches, hmem, heq⟩ => ⟨batches, List.mem_append_left _ hmem, heq⟩
      refine ⟨children, none, [], hnodup, hlisted, hrounds.append fun x hx => ?_, nofun,
        fun _ _ => rfl⟩
      exact quiet_of_kind (hkinds x hx) (by decide) (by decide)

end JobPlan

end Harvest
