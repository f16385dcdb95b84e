import Harvest.Proofs.Batcher
import Mathlib.Data.List.Basic

/-!
# A failed stream stays failed

A reader may be asked for rows and a batcher over it for batches, and the budget of reconnects may
be renewed, in any order (`Batcher.calls`). The reader keeps the first error that comes of this
(`ResultReader.Latches`), and from then on every row and every batch is refused with the text of
that error, without a request to the services (`Batcher.stays_failed`).
-/

namespace Harvest

open Program (Trace Exchange)

namespace Program

variable {S : Service} {α β : Type} {P : α → Prop} {Q : β → Prop}

/-- Whatever the replies are, the program is done with a value of which `P` holds. -/
def Ends (P : α → Prop) : Program S α → Prop
  | .done value => P value
  | .ask _ next => ∀ reply, (next reply).Ends P

theorem Ends.bind {p : Program S α} {f : α → Program S β} (h : p.Ends P)
    (hf : ∀ a, P a → (f a).Ends Q) : (p.bind f).Ends Q := by
  induction p with
  | done value => exact hf value h
  | ask r next ih => exact fun reply => ih reply (h reply)

/-- A program of which nothing is known may come first. -/
theorem ends_bind {p : Program S α} {f : α → Program S β} (hf : ∀ a, (f a).Ends Q) :
    (p.bind f).Ends Q := by
  induction p with
  | done value => exact hf value
  | ask r next ih => exact ih

theorem Ends.of_trace {p : Program S α} (h : p.Ends P) {log : List (Exchange S)} {value : α}
    (ht : Trace p log value) : P value := by
  induction ht with
  | done value => exact h
  | ask r next reply log value _ ih => exact ih (h reply)

end Program

namespace ResultReader

/-- The reader failed with an error of this text, and no result is being read. -/
def FailedWith (r : ResultReader) (reason : String) : Prop :=
  r.failure = some reason ∧ r.cursor = none

/-- Behind a value the reader did not fail, and behind an error it failed with that one. -/
def Latches {α : Type} (context : StreamContext) (o : Except ExtractError α × ResultReader) :
    Prop :=
  o.2.context = context ∧
    match o.1 with
    | .ok _ => o.2.failure = none
    | .error e => o.2.FailedWith e.message

theorem FailedWith.renewBudget {r : ResultReader} {reason : String} (h : r.FailedWith reason) :
    r.renewBudget = r := by
  rcases r with ⟨context, pending, cursor, header, rowsRead, failure⟩
  obtain rfl : cursor = none := h.2
  rfl

theorem fetchPending_latches (r : ResultReader) (pending : List ResultReference)
    (h : r.failure = none) : (fetchPending r pending).Ends (Latches r.context) := by
  induction pending generalizing r with
  | nil => exact ⟨rfl, h⟩
  | cons reference pending ih =>
    rintro (e | page)
    · exact ⟨rfl, rfl, rfl⟩
    · refine Program.ends_bind ?_
      rintro (e | ⟨_ | record, c⟩)
      · exact ⟨rfl, rfl, rfl⟩
      · exact ih (r.leave c) h
      · exact ⟨rfl, h⟩

theorem next_latches (r : ResultReader) (h : r.failure = none) :
    r.next.Ends (Latches r.context) := by
  rw [next, h]
  cases r.cursor with
  | none => exact fetchPending_latches r r.pending h
  | some c =>
    refine Program.ends_bind ?_
    rintro (e | ⟨_ | record, after⟩)
    · exact ⟨rfl, rfl, rfl⟩
    · exact fetchPending_latches (r.leave after) r.pending h
    · exact ⟨rfl, h⟩

end ResultReader

namespace Batcher

open ResultReader (FailedWith Latches)

theorem takeRows_latches (n : Nat) (taken : List Record) (reader : ResultReader)
    (h : reader.failure = none) : (takeRows n taken reader).Ends (Latches reader.context) := by
  induction n generalizing taken reader with
  | zero => exact ⟨rfl, h⟩
  | succ n ih =>
    refine (reader.next_latches h).bind ?_
    rintro ⟨e | (record | _), reader'⟩ hlatches
    · exact hlatches
    · obtain ⟨hcontext, hrunning⟩ := hlatches
      exact hcontext ▸ ih (record :: taken) reader' hrunning
    · exact hlatches

/-- What the reader of a batcher may be asked for. -/
inductive Call
  | fetch
  | pull
  /-- The budget of reconnects is renewed. -/
  | renew
  deriving DecidableEq, Repr

/-- The reply to a call. -/
inductive Reply
  | fetched (f : Fetch)
  | pulled (p : Pull)
  | renewed
  deriving DecidableEq, Repr

/-- Makes a call. -/
def call (b : Batcher) : Call → Program services (Except ExtractError Reply × Batcher)
  | .fetch =>
    b.reader.next.bind fun (x, reader) => .done (x.map .fetched, { b with reader := reader })
  | .pull => b.next.bind fun (x, b) => .done (x.map .pulled, b)
  | .renew => .done (.ok .renewed, { b with reader := b.reader.renewBudget })

/-- Makes calls one after the other, whatever the replies are. -/
def calls (b : Batcher) : List Call → Program services (List (Except ExtractError Reply) × Batcher)
  | [] => .done ([], b)
  | c :: rest =>
    (b.call c).bind fun (reply, b) =>
      (b.calls rest).bind fun (replies, b) => .done (reply :: replies, b)

/-- The reply to a call behind an error of this text. -/
def refusal (context : StreamContext) (reason : String) : Call → Except ExtractError Reply
  | .fetch => .error (.streamAborted context.entity context.job reason)
  | .pull => .error (.streamAborted context.entity context.job reason)
  | .renew => .ok .renewed

section Calling

variable (b : Batcher)

theorem next_latches (h : b.reader.failure = none) :
    b.next.Ends fun o => Latches b.reader.context (o.1, o.2.reader) ∧
      o.2.batchSize = b.batchSize := by
  refine (takeRows_latches b.batchSize [] b.reader.renewBudget h).bind ?_
  rintro ⟨e | records, reader⟩ hlatches
  · exact ⟨hlatches, rfl⟩
  · exact ⟨by rwa [reader_settle], batchSize_settle _ _⟩

theorem call_latches (h : b.reader.failure = none) (c : Call) :
    (b.call c).Ends fun o => Latches b.reader.context (o.1, o.2.reader) ∧
      o.2.batchSize = b.batchSize := by
  cases c with
  | fetch =>
    refine (b.reader.next_latches h).bind ?_
    rintro ⟨e | fetch, reader⟩ hlatches <;> exact ⟨hlatches, rfl⟩
  | pull =>
    refine (b.next_latches h).bind ?_
    rintro ⟨e | pull, b'⟩ hlatches <;> exact hlatches
  | renew => exact ⟨⟨rfl, h⟩, rfl⟩

variable {b} {reason : String} (hsize : 0 < b.batchSize) (hfailed : b.reader.FailedWith reason)
include hsize hfailed

/-- Behind an error a call is refused, and nothing changes. -/
theorem call_of_failed (c : Call) :
    b.call c = .done (refusal b.reader.context reason c, b) := by
  have hnext := b.reader.next_of_failure reason hfailed.1
  cases c with
  | fetch =>
    rw [call, hnext]
    rfl
  | pull =>
    obtain ⟨n, hn⟩ := Nat.exists_eq_succ_of_ne_zero (Nat.ne_of_gt hsize)
    have hrows : takeRows b.batchSize [] b.reader.renewBudget =
        .done (.error (.streamAborted b.reader.context.entity b.reader.context.job reason),
          b.reader) := by
      rw [hn, takeRows, hfailed.renewBudget, hnext]
      rfl
    rw [call, next, hrows]
    rfl
  | renew =>
    rw [call, hfailed.renewBudget]
    rfl

theorem calls_of_failed (cs : List Call) :
    b.calls cs = .done (cs.map (refusal b.reader.context reason), b) := by
  induction cs with
  | nil => rfl
  | cons c cs ih =>
    rw [calls, call_of_failed hsize hfailed c, Program.done_bind]
    dsimp only
    rw [ih]
    rfl

end Calling

/-- The first error of a sequence of calls is the one that the reader failed with. -/
theorem calls_latches (cs : List Call) (b : Batcher) (hsize : 0 < b.batchSize)
    (h : b.reader.failure = none) :
    (b.calls cs).Ends fun o => ∀ replies e, o.1 = replies ++ [.error e] →
      (∀ e', .error e' ∉ replies) → o.2.reader.FailedWith e.message ∧
        o.2.reader.context = b.reader.context ∧ 0 < o.2.batchSize := by
  induction cs generalizing b with
  | nil =>
    intro replies e heq
    simp at heq
  | cons c cs ih =>
    refine (b.call_latches h c).bind ?_
    rintro ⟨e₀ | reply, b'⟩ ⟨⟨hcontext, hlatched⟩, hsame⟩
    · -- the other calls are refused, so this error is the only one without another before it
      dsimp only
      rw [calls_of_failed (hsame ▸ hsize) hlatched cs, Program.done_bind]
      intro replies e heq hfirst
      cases replies with
      | nil =>
        obtain ⟨rfl, -⟩ := List.cons_eq_cons.1 heq |>.imp_left Except.error.inj
        exact ⟨hlatched, hcontext, hsame ▸ hsize⟩
      | cons first replies =>
        obtain ⟨rfl, -⟩ := List.cons_eq_cons.1 heq
        exact absurd List.mem_cons_self (hfirst e₀)
    · refine (ih b' (hsame ▸ hsize) hlatched).bind ?_
      rintro ⟨others, after⟩ hothers replies e heq hfirst
      cases replies with
      | nil =>
        obtain ⟨hreply, -⟩ := List.cons_eq_cons.1 heq
        cases hreply
      | cons first replies =>
        obtain ⟨-, hrest⟩ := List.cons_eq_cons.1 heq
        rw [← hcontext]
        exact hothers replies e hrest fun e' hmem => hfirst e' (List.mem_cons_of_mem _ hmem)

/-- Once a call was answered with an error, all rows and batches that are asked for later are
refused with the text of that first error, no request is made to the services any more, and the
batcher and its reader stay as they are, so that no row is counted either. -/
theorem stays_failed (context : StreamContext) (references : List ResultReference)
    (settings : Settings) (schema : Option (List String)) (cs : List Call)
    (log : List (Exchange services)) (replies : List (Except ExtractError Reply))
    (e : ExtractError) (after : Batcher) (hfirst : ∀ e', .error e' ∉ replies)
    (ht : Trace ((start (.start context references) settings schema).calls cs) log
      (replies ++ [.error e], after)) (later : List Call) :
    after.calls later = .done (later.map (refusal context e.message), after) := by
  have hsize : 0 < max settings.batchSize 1 := Nat.le_max_right _ 1
  obtain ⟨hfailed, hcontext, hsize'⟩ :=
    (calls_latches cs (start (.start context references) settings schema) hsize rfl).of_trace ht
      replies e rfl hfirst
  have hcalls := calls_of_failed hsize' hfailed later
  rwa [hcontext] at hcalls

/-- A pull that has fetched a row when the next result cannot be opened: the row is lost, and
neither it nor anything else is given out later. -/
theorem stays_failed_behind_row :
    ∃ log after, Trace ((start (.start ⟨"Account", "750", 1⟩ [⟨"b", "r"⟩, ⟨"b", "x"⟩])
          { batchSize := 2 } none).calls [.pull, .pull]) log
        ([.ok (.pulled (.batch ⟨[.ofFields ["Id", "isdeleted"] ["1"],
            .ofFields ["Id", "isdeleted"] ["2"]], 2⟩))] ++
          [.error (.remote (.unknownResult "b" "x" "750"))], after) ∧
      after.reader.rowsRead = 3 ∧ after.totalRows = 2 ∧
      after.calls [.fetch, .renew, .pull] = .done ([
        .error (.streamAborted "Account" "750"
          "Remote call failed: unknown result b/x in job 750"), .ok .renewed,
        .error (.streamAborted "Account" "750"
          "Remote call failed: unknown result b/x in job 750")], after) := by
  let program := (start (.start ⟨"Account", "750", 1⟩ [⟨"b", "r"⟩, ⟨"b", "x"⟩])
    { batchSize := 2 } none).calls [.pull, .pull]
  have ht := Program.trace_play (Local.respond ⟨"/", "/", false⟩) program threeResults
  have hplayed : (Program.play (Local.respond ⟨"/", "/", false⟩) program threeResults).2.1.1 =
        [.ok (.pulled (.batch ⟨[.ofFields ["Id", "isdeleted"] ["1"],
            .ofFields ["Id", "isdeleted"] ["2"]], 2⟩))] ++
          [.error (.remote (.unknownResult "b" "x" "750"))] ∧
      (Program.play (Local.respond ⟨"/", "/", false⟩) program threeResults).2.1.2.reader.rowsRead =
        3 ∧
      (Program.play (Local.respond ⟨"/", "/", false⟩) program threeResults).2.1.2.totalRows =
        2 := by
    decide +kernel
  generalize Program.play (Local.respond ⟨"/", "/", false⟩) program threeResults = played
    at ht hplayed
  obtain ⟨log, ⟨replies, after⟩, host⟩ := played
  obtain ⟨rfl, hrows, htotal⟩ := hplayed
  exact ⟨log, after, ht, hrows, htotal,
    stays_failed _ _ _ _ _ _ _ _ _ (by simp) ht [.fetch, .renew, .pull]⟩

end Batcher

end Harvest
