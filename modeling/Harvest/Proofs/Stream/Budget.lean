import Harvest.Proofs.Stream.Failure
import Harvest.Proofs.Stream.Course

/-!
# The budget of reconnects

Whatever pages are served, each fetch of a cursor and of a reader and each call of a batcher has an
account in marks (`Cursor.StandsAt.chronicle_next`, `ResultReader.At.accounts_next`,
`Batcher.leads_of_trace_call`). So for calls in any order `Batcher.calls_within_budget` says how
often a result is opened at most, and which calls fail with a broken stream.
-/

namespace Harvest

open Program (Trace Exchange)

namespace Cursor

variable {context : StreamContext} {s : Standing} (pending : List ResultReference)

/-- The rows of an outcome. -/
def Outcome.rows (o : Outcome) : Except ExtractError (List Record) := o.map fun got => got.1.toList

/-- Where the reader is behind an outcome. -/
def LeadsTo (limit : Nat) (pending : List ResultReference) : Outcome → Position → Prop
  | .ok (some _, after), p =>
    ∃ s, p = ⟨pending, some s⟩ ∧ after.StandsAt s ∧ s.reconnects ≤ limit
  | .ok (none, _), p => p = ⟨pending, none⟩
  | .error _, p => p = .closed

/-- A fetch has an account: pages that are opened again, and then one mark more. `told` is what is
known of the fault if that mark is that the budget is spent. -/
def Fetches (context : StreamContext) (pending : List ResultReference) (s : Standing)
    (log : List (Exchange services)) (outcome : Outcome) (told : List Page → String → Prop) :
    Prop :=
  ∃ pages mark p', Account context ⟨pending, some s⟩ log (reopenings s.reference pages ++ [mark]) p'
      outcome.rows ∧
    LeadsTo context.retryLimit pending outcome p' ∧ mark.resumes = false ∧
    ∀ reference fault, mark = .spent reference fault → told pages fault

/-- What a fetch does at last holds behind a page that is opened again, too. -/
theorem Fetches.reopened {s' : Standing} {page : Page} {log : List (Exchange services)}
    {outcome : Outcome} {told told' : List Page → String → Prop}
    (hmove : Moves context.retryLimit ⟨pending, some s⟩ (.reopened s.reference (.ok page))
      ⟨pending, some s'⟩)
    (hsame : s'.reference = s.reference)
    (htold : ∀ pages fault, told' pages fault → told (page :: pages) fault)
    (h : Fetches context pending s' log outcome told') :
    Fetches context pending s (⟨.openResult context.job s.reference, .ok page⟩ :: log) outcome
      told := by
  obtain ⟨pages, mark, p', haccount, hleads, hstops, htells⟩ := h
  rw [hsame] at haccount
  exact ⟨page :: pages, mark, p', .cons hmove (by simp) rfl rfl haccount, hleads, hstops,
    fun reference fault hmark => htold pages fault (htells reference fault hmark)⟩

theorem fetches_of_settles (outcome : Outcome) (h : Settles s outcome)
    (hle : s.reconnects ≤ context.retryLimit) (told : List Page → String → Prop) :
    Fetches context pending s [] outcome told := by
  rcases outcome with e | ⟨_ | r, after⟩
  · exact ⟨[], _, _, .error (.rejected pending s e h.1 h.2) (by simp) rfl, rfl, rfl, nofun⟩
  · exact ⟨[], _, _, .quiet (.exhausted pending s h) (by simp) rfl rfl, rfl, rfl, nofun⟩
  · obtain ⟨fields, header, hrow, rfl, hafter⟩ := h
    exact ⟨[], _, _, .row (.delivered pending s fields hrow) ⟨header, rfl⟩, ⟨_, rfl, hafter, hle⟩,
      rfl, nofun⟩

/-- A recovery opens the result again as long as its page breaks and the budget has room. -/
theorem Knows.fetches_recover (budget : Nat) (fault : String) {c : Cursor} (h : c.Knows s)
    (hbreaks : s.Breaks) (hle : s.reconnects ≤ context.retryLimit)
    (hbudget : budget = context.retryLimit - s.reconnects) {log : List (Exchange services)}
    {outcome : Outcome} (ht : Trace (recover context budget fault c) log outcome) :
    Fetches context pending s log outcome fun pages told =>
      told = toldBehind s.rows fault pages := by
  -- The recovery goes on with the fault that is told behind the page opened last.
  induction budget generalizing fault c s log with
  | zero =>
    obtain ⟨rfl, rfl⟩ := (Program.trace_done_iff _ outcome log).1 ht
    have hspent : s.reconnects = context.retryLimit := by omega
    rw [h.reference, h.reconnects, hspent]
    refine ⟨[], _, _, .error (.spent pending s fault hbreaks hspent) (by simp) rfl, rfl, rfl, ?_⟩
    rintro _ _ ⟨⟩
    rfl
  | succ budget ih =>
    have hroom : s.reconnects < context.retryLimit := by omega
    obtain ⟨reply, rest, rfl, hrest⟩ := (Program.trace_ask_iff _ _ log outcome).1 ht
    rw [h.reference]
    cases reply with
    | error e =>
      obtain ⟨rfl, rfl⟩ := (Program.trace_done_iff _ outcome rest).1 hrest
      exact ⟨[], _, _, .error (.lost pending s e hbreaks hroom) (by simp) rfl, rfl, rfl, nofun⟩
    | ok page =>
      have hmove := Moves.reopened pending s page hbreaks hroom
      have hknows :
          c.countReconnect.Knows { s with page := page, reconnects := s.reconnects + 1 } :=
        ⟨h.reference, congrArg (· + 1) h.reconnects, h.delivered, h.lastRow, h.header⟩
      have hfits := hknows.takeUp_fits context fault
      simp only at hrest
      cases htake : takeUp context c.countReconnect fault page with
      | settled settled =>
        rw [htake] at hrest hfits
        obtain ⟨rfl, rfl⟩ := (Program.trace_done_iff settled outcome rest).1 hrest
        exact (fetches_of_settles pending _ hfits hroom _).reopened pending hmove rfl
          fun pages told htold => htold
      | again newFault after =>
        rw [htake] at hrest hfits
        obtain ⟨hagain, rfl, hafter⟩ := hfits
        exact (ih _ hafter hagain hroom (by dsimp only; omega) hrest).reopened pending hmove rfl
          fun pages told htold => htold

theorem StandsAt.chronicle_next {c : Cursor} (h : c.StandsAt s)
    (hle : s.reconnects ≤ context.retryLimit) {log : List (Exchange services)} {outcome : Outcome}
    (ht : Trace (c.next context) log outcome) :
    ∃ marks p', Chronicle context ⟨pending, some s⟩ log marks p' outcome.rows ∧
      LeadsTo context.retryLimit pending outcome p' := by
  have hfetches : Fetches context pending s log outcome s.Tells := by
    have hfits := h.read_fits
    rw [next] at ht
    cases hread : c.read with
    | record r after =>
      rw [hread] at ht hfits
      obtain ⟨rfl, rfl⟩ := (Program.trace_done_iff _ outcome log).1 ht
      exact fetches_of_settles pending (.ok (some r, after)) hfits hle _
    | exhausted after =>
      rw [hread] at ht hfits
      obtain ⟨rfl, rfl⟩ := (Program.trace_done_iff _ outcome log).1 ht
      exact fetches_of_settles pending (.ok (none, after)) hfits hle _
    | broken fault after =>
      rw [hread] at ht hfits
      obtain ⟨hbreaks, hfault, hafter⟩ := hfits
      obtain ⟨pages, mark, p', haccount, hleads, hstops, htells⟩ :=
        hafter.fetches_recover pending _ fault hbreaks hle (by rw [hafter.reconnects]) ht
      exact ⟨pages, mark, p', haccount, hleads, hstops, fun reference told hmark =>
        ⟨fault, hfault, h.takenUp, htells reference told hmark⟩⟩
    | invalid fault =>
      rw [hread] at ht hfits
      obtain ⟨rfl, rfl⟩ := (Program.trace_done_iff _ outcome log).1 ht
      exact fetches_of_settles pending (.error _)
        ⟨hfits, by simp [ExtractError.Transient]⟩ hle _
  obtain ⟨pages, mark, p', haccount, hleads, hstops, htells⟩ := hfetches
  exact ⟨_, p', ⟨haccount, .fetched pending s pages mark p' p' [] haccount.walk hstops htells
    (.nil p')⟩, hleads⟩

end Cursor

/-- The rows of a fetch. -/
def Fetch.rows : Fetch → List Record
  | .row r => [r]
  | .finished => []

namespace ResultReader

/-- Where a reader is. -/
inductive At (context : StreamContext) (r : ResultReader) : Position → Prop
  | failed (reason : String) (hcontext : r.context = context)
      (hfailure : r.failure = some reason) : At context r .closed
  | between (hcontext : r.context = context) (hfailure : r.failure = none)
      (hcursor : r.cursor = none) : At context r ⟨r.pending, none⟩
  | reading (c : Cursor) (s : Standing) (hcontext : r.context = context)
      (hfailure : r.failure = none) (hcursor : r.cursor = some c) (hstands : c.StandsAt s)
      (hle : s.reconnects ≤ context.retryLimit) : At context r ⟨r.pending, some s⟩

theorem At.renew {context : StreamContext} {r : ResultReader} {p : Position} (h : r.At context p) :
    r.renewBudget.At context p.renew := by
  cases h with
  | failed reason hcontext hfailure => exact .failed reason hcontext hfailure
  | between hcontext hfailure hcursor =>
    exact .between (r := r.renewBudget) hcontext hfailure (by rw [renewBudget, hcursor]; rfl)
  | reading c s hcontext hfailure hcursor hstands hle =>
    exact .reading (r := r.renewBudget) _ _ hcontext hfailure (by rw [renewBudget, hcursor]; rfl)
      hstands.renew (Nat.zero_le _)

/-- A fetch has an account, and it gives a row unless nothing is read any more. -/
def Accounts (context : StreamContext) (p : Position) (log : List (Exchange services))
    (o : Outcome) : Prop :=
  ∃ marks p', Chronicle context p log marks p' (o.1.map Fetch.rows) ∧ o.2.At context p' ∧
    ((marks.filterMap Mark.row?).length = 1 ∨ p' = .closed)

section Fetching

variable {context : StreamContext} {r : ResultReader} {log : List (Exchange services)}
  {o : Outcome}

/-- What a reader does behind a fetch from the result being read. -/
theorem accounts_behind (pending : List ResultReference) {c : Cursor} {s : Standing}
    (hcontext : r.context = context) (hfailure : r.failure = none) (hc : c.StandsAt s)
    (hle : s.reconnects ≤ context.retryLimit)
    (hrest : ∀ after log o, Trace (fetchPending (r.leave after) pending) log o →
      Accounts context ⟨pending, none⟩ log o)
    (ht : Trace ((Cursor.next r.context c).bind fun
      | .error e => .done ({ r with pending := pending }.fail e)
      | .ok (some record, c) => .done ({ r with pending := pending }.deliver record c)
      | .ok (none, c) => fetchPending (r.leave c) pending) log o) :
    Accounts context ⟨pending, some s⟩ log o := by
  obtain ⟨first, last, outcome, rfl, hfirst, hlast⟩ := (Program.trace_bind_iff _ _ log o).1 ht
  rw [hcontext] at hfirst
  obtain ⟨marks, p', haccount, hleads⟩ := hc.chronicle_next pending hle hfirst
  rcases outcome with e | ⟨_ | record, after⟩
  · obtain ⟨rfl, rfl⟩ := (Program.trace_done_iff _ o last).1 hlast
    obtain rfl : p' = .closed := hleads
    rw [List.append_nil]
    exact ⟨marks, .closed, haccount, .failed _ hcontext rfl, .inr rfl⟩
  · obtain rfl : p' = ⟨pending, none⟩ := hleads
    obtain ⟨others, p'', hothers, hat, hstops⟩ := hrest after last o hlast
    have hboth := haccount.append hothers
    have hnil : (marks.filterMap Mark.row?).length = 0 := haccount.length_rows
    refine ⟨marks ++ others, p'', ?_, hat, ?_⟩
    · cases houtcome : o.1 with
      | error e => rwa [houtcome] at hboth
      | ok fetch => rwa [houtcome] at hboth
    · rwa [List.filterMap_append, List.length_append, hnil, Nat.zero_add]
  · obtain ⟨rfl, rfl⟩ := (Program.trace_done_iff _ o last).1 hlast
    obtain ⟨s', rfl, hafter, hle'⟩ := hleads
    rw [List.append_nil]
    exact ⟨marks, _, haccount, .reading after s' hcontext hfailure rfl hafter hle',
      .inl haccount.length_rows⟩

/-- Between two results a reader opens those behind, until one of them has a row. -/
theorem accounts_fetchPending (pending : List ResultReference) (hcontext : r.context = context)
    (hfailure : r.failure = none) (hcursor : r.cursor = none)
    (ht : Trace (fetchPending r pending) log o) : Accounts context ⟨pending, none⟩ log o := by
  induction pending generalizing r log o with
  | nil =>
    obtain ⟨rfl, rfl⟩ := (Program.trace_done_iff _ o log).1 ht
    exact ⟨[], .closed, .nil context _,
      .between (r := { r with pending := [] }) hcontext hfailure hcursor, .inr rfl⟩
  | cons reference pending ih =>
    obtain ⟨reply, tail, rfl, htail⟩ := (Program.trace_ask_iff _ _ log o).1 ht
    rw [hcontext]
    cases reply with
    | error e =>
      obtain ⟨rfl, rfl⟩ := (Program.trace_done_iff _ o tail).1 htail
      exact ⟨_, .closed, .refused reference pending e, .failed _ hcontext rfl, .inr rfl⟩
    | ok page =>
      obtain ⟨marks, p', haccount, hat, hstops⟩ := accounts_behind pending hcontext hfailure
        (Cursor.standsAt_start reference page) (Nat.zero_le _)
        (fun after log o ht => ih (r := r.leave after) hcontext hfailure rfl ht) htail
      exact ⟨_, p', haccount.opened, hat, hstops⟩

theorem At.accounts_next {p : Position} (h : r.At context p) (ht : Trace r.next log o) :
    Accounts context p log o := by
  cases h with
  | failed reason hcontext hfailure =>
    rw [next_of_failure r reason hfailure] at ht
    obtain ⟨rfl, rfl⟩ := (Program.trace_done_iff _ o log).1 ht
    have htells : Tells context []
        (.error (.streamAborted r.context.entity r.context.job reason)) :=
      .aborted _ (by simp) (by simp [ExtractError.Transient])
    exact ⟨[], .closed, ⟨⟨.nil _, rfl, by simp, htells, fun _ _ => rfl⟩, .nil _⟩,
      .failed reason hcontext hfailure, .inr rfl⟩
  | between hcontext hfailure hcursor =>
    rw [next, hfailure] at ht
    simp only [hcursor] at ht
    exact accounts_fetchPending r.pending hcontext hfailure hcursor ht
  | reading c s hcontext hfailure hcursor hstands hle =>
    rw [next, hfailure] at ht
    simp only [hcursor] at ht
    exact accounts_behind r.pending hcontext hfailure hstands hle
      (fun after log o ht =>
        accounts_fetchPending (r := r.leave after) r.pending hcontext hfailure rfl ht) ht

end Fetching

end ResultReader

/-- The rows of a pull. -/
def Pull.rows : Pull → List Record
  | .batch b => b.records
  | _ => []

namespace Batcher

/-- The marks that a call begins with. -/
def Call.renewal : Call → List Mark
  | .fetch => []
  | .pull => [.renewed]
  | .renew => [.renewed]

/-- How many rows a call asks for. -/
def Call.wanted (batchSize : Nat) : Call → Nat
  | .fetch => 1
  | .pull => batchSize
  | .renew => 0

/-- The rows of a reply. -/
def Reply.rows : Reply → List Record
  | .fetched fetch => fetch.rows
  | .pulled pull => pull.rows
  | .renewed => []

/-- A call, its reply, and what happened meanwhile. -/
structure Turn where
  call : Call
  reply : Except ExtractError Reply
  marks : List Mark

/-- The marks lead from one position to another. They begin with a renewal where the call is one,
and they go on until the rows are there that the call asks for, or until nothing is read any more.
The reply is what they tell. -/
structure Turn.Leads (context : StreamContext) (batchSize : Nat) (p : Position) (turn : Turn)
    (p' : Position) : Prop where
  walk : Walk context.retryLimit p turn.marks p'
  renewal : ∃ rest, turn.marks = turn.call.renewal ++ rest ∧ Mark.renewed ∉ rest
  enough : (turn.marks.filterMap Mark.row?).length = turn.call.wanted batchSize ∨ p' = .closed
  tells : Tells context turn.marks (turn.reply.map Reply.rows)

/-- Turns that follow each other. -/
inductive Turns (context : StreamContext) (batchSize : Nat) : Position → List Turn → Position → Prop
  | nil (p : Position) : Turns context batchSize p [] p
  | cons (p p' p'' : Position) (turn : Turn) (turns : List Turn)
      (hturn : turn.Leads context batchSize p p') (h : Turns context batchSize p' turns p'') :
    Turns context batchSize p (turn :: turns) p''

section Calling

variable {context : StreamContext} {p : Position} {log : List (Exchange services)}

theorem account_takeRows (n : Nat) (taken : List Record) {reader reader' : ResultReader}
    {o : Except ExtractError (List Record)} (h : reader.At context p)
    (ht : Trace (takeRows n taken reader) log (o, reader')) :
    ∃ marks p' rows, Chronicle context p log marks p' rows ∧ o = rows.map (taken.reverse ++ ·) ∧
      reader'.At context p' ∧ ((marks.filterMap Mark.row?).length = n ∨ p' = .closed) := by
  induction n generalizing taken reader p log with
  | zero =>
    obtain ⟨rfl, heq⟩ := (Program.trace_done_iff _ _ log).1 ht
    cases heq
    exact ⟨[], p, _, .nil context p, by simp [Except.map], h, .inl rfl⟩
  | succ n ih =>
    obtain ⟨first, rest, ⟨outcome, after⟩, rfl, hfirst, hrest⟩ :=
      (Program.trace_bind_iff _ _ log _).1 ht
    obtain ⟨marks, p', haccount, hat, hstops⟩ := h.accounts_next hfirst
    rcases outcome with e | (record | _)
    · obtain ⟨rfl, heq⟩ := (Program.trace_done_iff _ _ rest).1 hrest
      cases heq
      rw [List.append_nil]
      exact ⟨marks, p', _, haccount, rfl, hat, .inr (haccount.shut e rfl)⟩
    · obtain ⟨others, p'', rows, hothers, rfl, hat', hstops'⟩ := ih (record :: taken) hat hrest
      refine ⟨marks ++ others, p'', _, haccount.append hothers, ?_, hat', hstops'.imp_left ?_⟩
      · cases rows <;> simp [Except.map, Fetch.rows]
      · intro hlength
        have hone : (marks.filterMap Mark.row?).length = 1 := haccount.length_rows
        rw [List.filterMap_append, List.length_append, hone, hlength, Nat.add_comm]
    · obtain ⟨rfl, heq⟩ := (Program.trace_done_iff _ _ rest).1 hrest
      cases heq
      rw [List.append_nil]
      refine ⟨marks, p', _, haccount, by simp [Except.map, Fetch.rows], hat, hstops.imp_left ?_⟩
      intro hone
      have hnone : (marks.filterMap Mark.row?).length = 0 := haccount.length_rows
      omega

theorem rows_settle (b : Batcher) (records : List Record) :
    (b.settle records).1.rows = records := by
  cases records with
  | nil =>
    rw [settle_nil]
    split <;> rfl
  | cons record records => rfl

/-- Behind a renewal an account is that of a pull. -/
theorem leads_of_chronicle (call : Call) (reply : Except ExtractError Reply) {marks : List Mark}
    {p' : Position} {o : Except ExtractError (List Record)} (hcall : call.renewal = [.renewed])
    (h : Chronicle context p.renew log marks p' o) (hreply : reply.map Reply.rows = o) (n : Nat)
    (henough : (marks.filterMap Mark.row?).length = call.wanted n ∨ p' = .closed) :
    Turn.Leads context n p ⟨call, reply, .renewed :: marks⟩ p' ∧
      Course context.retryLimit p (.renewed :: marks) p' ∧
      log = (Mark.renewed :: marks).filterMap (Mark.exchange? context.job) := by
  refine ⟨⟨.cons _ _ _ _ _ (.renewed p) h.walk, ⟨marks, by rw [hcall]; rfl, h.kept⟩, henough, ?_⟩,
    .begun _ _ p' _ marks (.renewed p) (.inl rfl) h.course, h.exchanges⟩
  have hbegun : Tells context [.renewed] (.ok []) :=
    .rows [] (by simp [Mark.error?, Mark.refusal?]) .nil
  have htells := hbegun.append h.tells
  rw [hreply]
  cases o <;> exact htells

theorem leads_of_trace_call {b b' : Batcher} {c : Call} {reply : Except ExtractError Reply}
    (h : b.reader.At context p) (ht : Trace (b.call c) log (reply, b')) :
    ∃ marks p', Turn.Leads context b.batchSize p ⟨c, reply, marks⟩ p' ∧
      Course context.retryLimit p marks p' ∧
      log = marks.filterMap (Mark.exchange? context.job) ∧ b'.reader.At context p' ∧
      b'.batchSize = b.batchSize := by
  cases c with
  | fetch =>
    obtain ⟨first, rest, ⟨outcome, reader⟩, rfl, hfirst, hrest⟩ :=
      (Program.trace_bind_iff _ _ log _).1 ht
    obtain ⟨rfl, heq⟩ := (Program.trace_done_iff _ _ rest).1 hrest
    cases heq
    obtain ⟨marks, p', haccount, hat, hstops⟩ := h.accounts_next hfirst
    rw [List.append_nil]
    refine ⟨marks, p', ⟨haccount.walk, ⟨marks, rfl, haccount.kept⟩, hstops, ?_⟩,
      haccount.course, haccount.exchanges, hat, rfl⟩
    have htells := haccount.tells
    cases outcome <;> exact htells
  | pull =>
    obtain ⟨first, rest, ⟨outcome, b''⟩, rfl, hfirst, hrest⟩ :=
      (Program.trace_bind_iff _ _ log _).1 ht
    obtain ⟨rfl, heq⟩ := (Program.trace_done_iff _ _ rest).1 hrest
    cases heq
    obtain ⟨taking, settling, ⟨rows, reader⟩, rfl, htaking, hsettling⟩ :=
      (Program.trace_bind_iff _ _ first _).1 hfirst
    obtain ⟨marks, p', rows', haccount, hrows, hat, hstops⟩ :=
      account_takeRows b.batchSize [] h.renew htaking
    obtain rfl : rows = rows' := by rw [hrows]; cases rows' <;> rfl
    cases rows with
    | error e =>
      obtain ⟨rfl, heq⟩ := (Program.trace_done_iff _ _ settling).1 hsettling
      cases heq
      obtain ⟨hleads, hcourse, hlog⟩ :=
        leads_of_chronicle .pull (.error e) rfl haccount rfl b.batchSize hstops
      rw [List.append_nil, List.append_nil]
      exact ⟨_, p', hleads, hcourse, hlog, hat, rfl⟩
    | ok records =>
      obtain ⟨rfl, heq⟩ := (Program.trace_done_iff _ _ settling).1 hsettling
      cases heq
      obtain ⟨hleads, hcourse, hlog⟩ := leads_of_chronicle .pull (.ok (.pulled _)) rfl haccount
        (congrArg Except.ok (rows_settle { b with reader := reader } records)) b.batchSize hstops
      rw [List.append_nil, List.append_nil]
      exact ⟨_, p', hleads, hcourse, hlog, by rwa [reader_settle], batchSize_settle _ _⟩
  | renew =>
    obtain ⟨rfl, heq⟩ := (Program.trace_done_iff _ _ log).1 ht
    cases heq
    obtain ⟨hleads, hcourse, hlog⟩ := leads_of_chronicle .renew (.ok .renewed) rfl
      (Chronicle.nil context p.renew) rfl b.batchSize (.inl rfl)
    exact ⟨_, _, hleads, hcourse, hlog, h.renew, rfl⟩

theorem course_of_trace_calls (cs : List Call) {b b' : Batcher}
    {replies : List (Except ExtractError Reply)} (h : b.reader.At context p)
    (ht : Trace (b.calls cs) log (replies, b')) :
    ∃ turns p', Turns context b.batchSize p turns p' ∧
      Course context.retryLimit p (turns.flatMap Turn.marks) p' ∧ turns.map Turn.call = cs ∧
      turns.map Turn.reply = replies ∧
      log = (turns.flatMap Turn.marks).filterMap (Mark.exchange? context.job) := by
  induction cs generalizing b p log replies with
  | nil =>
    obtain ⟨rfl, heq⟩ := (Program.trace_done_iff _ _ log).1 ht
    cases heq
    exact ⟨[], p, .nil p, .nil p, rfl, rfl, rfl⟩
  | cons c cs ih =>
    obtain ⟨first, rest, ⟨reply, after⟩, rfl, hfirst, hrest⟩ :=
      (Program.trace_bind_iff _ _ log _).1 ht
    obtain ⟨others, last, ⟨replies', b''⟩, rfl, hothers, hlast⟩ :=
      (Program.trace_bind_iff _ _ rest _).1 hrest
    obtain ⟨rfl, heq⟩ := (Program.trace_done_iff _ _ last).1 hlast
    cases heq
    obtain ⟨marks, p', hturn, hcourse, rfl, hat, hsize⟩ := leads_of_trace_call h hfirst
    obtain ⟨turns, p'', hturns, hcourses, rfl, rfl, rfl⟩ := ih hat hothers
    refine ⟨⟨c, reply, marks⟩ :: turns, p'', .cons p p' p'' _ turns hturn (hsize ▸ hturns),
      hcourse.append hcourses, rfl, rfl, ?_⟩
    simp [List.filterMap_append]

theorem turns_of_trace_calls (cs : List Call) {b b' : Batcher}
    {replies : List (Except ExtractError Reply)} (h : b.reader.At context p)
    (ht : Trace (b.calls cs) log (replies, b')) :
    ∃ turns p', Turns context b.batchSize p turns p' ∧ turns.map Turn.call = cs ∧
      turns.map Turn.reply = replies ∧
      log = (turns.flatMap Turn.marks).filterMap (Mark.exchange? context.job) := by
  obtain ⟨turns, p', hturns, -, hcalls⟩ := course_of_trace_calls cs h ht
  exact ⟨turns, p', hturns, hcalls⟩

end Calling

section Budget

variable {context : StreamContext} {batchSize : Nat} {p p' : Position}

theorem Turns.walk {turns : List Turn} (h : Turns context batchSize p turns p') :
    Walk context.retryLimit p (turns.flatMap Turn.marks) p' := by
  induction h with
  | nil p => exact .nil p
  | cons p q q' turn turns hturn h ih => exact hturn.walk.append ih

theorem Turns.leads_of_mem {turns : List Turn} (h : Turns context batchSize p turns p')
    (hp : p.Within context.retryLimit) {turn : Turn} (hmem : turn ∈ turns) :
    ∃ q q', q.Within context.retryLimit ∧ turn.Leads context batchSize q q' := by
  induction h with
  | nil p => cases hmem
  | cons p q q' first turns hturn h ih =>
    rcases List.mem_cons.1 hmem with rfl | hmem
    · exact ⟨p, q, hp, hturn⟩
    · exact ih (hturn.walk.within hp) hmem

/-- The budget is renewed at the beginning of a call, if at all. -/
theorem Turn.Leads.renewed_not_mem_tail {turn : Turn} (h : turn.Leads context batchSize p p') :
    Mark.renewed ∉ turn.marks.tail := by
  obtain ⟨rest, hmarks, hkept⟩ := h.renewal
  rw [hmarks]
  cases turn.call with
  | fetch => exact fun hmem => hkept (List.mem_of_mem_tail hmem)
  | pull => exact hkept
  | renew => exact hkept

/-- During a call each result is opened at most once more than the limit grants. -/
theorem Turn.Leads.countP_opens_le {turn : Turn} (h : turn.Leads context batchSize p p')
    (hp : p.Within context.retryLimit) {stretch : List Mark} (hstretch : stretch <:+: turn.marks)
    (hfirst : ∀ mark ∈ stretch.tail, mark.first? = none) :
    stretch.countP Mark.opens ≤ context.retryLimit + 1 := by
  cases stretch with
  | nil => exact Nat.zero_le _
  | cons mark stretch =>
    obtain ⟨before, behind, hmarks⟩ := hstretch
    have htail : stretch <:+: turn.marks := ⟨before ++ [mark], behind, by rw [← hmarks]; simp⟩
    have hgrants : ∀ mark ∈ stretch, ¬ mark.Grants := by
      rintro other hmem (rfl | hopened)
      · refine h.renewed_not_mem_tail ?_
        rw [← hmarks]
        cases before <;> simp [hmem]
      · rw [hfirst other hmem] at hopened
        cases hopened
    have hcount := h.walk.countP_reopens_le hp htail hgrants
    have hsame : stretch.countP Mark.opens = stretch.countP Mark.reopens := by
      refine List.countP_congr fun other hmem => ?_
      rw [Mark.opens, hfirst other hmem]
      rfl
    rw [List.countP_cons, hsame]
    split <;> omega

/-- A mark that means an error is the last one of its call, which is answered with that error. -/
theorem Turn.Leads.of_error {turn : Turn} (h : turn.Leads context batchSize p p') {mark : Mark}
    (hmem : mark ∈ turn.marks) {e : ExtractError} (he : mark.error? context = some e) :
    turn.marks.getLast? = some mark ∧ turn.reply = .error e := by
  have hnoisy : mark.error? context ≠ none := by simp [he]
  have htells := h.tells
  generalize ho : turn.reply.map Reply.rows = o at htells
  cases htells with
  | rows records hquiet hrows => exact absurd (hquiet mark hmem) hnoisy
  | aborted e' hquiet hother => exact absurd (hquiet mark hmem) hnoisy
  | failed before last e' hmarks hquiet hlast =>
    rw [hmarks, List.mem_append, List.mem_singleton] at hmem
    rcases hmem with hmem | rfl
    · exact absurd (hquiet mark hmem) hnoisy
    · obtain rfl : e = e' := Option.some.inj (he.symm.trans hlast)
      refine ⟨by rw [hmarks, List.getLast?_concat], ?_⟩
      cases hreply : turn.reply <;> rw [hreply] at ho <;> cases ho
      rfl

/-- An open that is refused ends the call with its error. -/
theorem Turn.Leads.of_refusal {turn : Turn} (h : turn.Leads context batchSize p p') {mark : Mark}
    (hmem : mark ∈ turn.marks) {e : ExtractError} (he : mark.refusal? = some e) :
    turn.marks.getLast? = some mark ∧ turn.reply = .error e := by
  refine h.of_error hmem ?_
  cases mark <;> first | exact he | cases he

/-- A call fails with a broken stream just where its last mark is that the budget is spent. -/
theorem Turn.Leads.transient_iff {turn : Turn} (h : turn.Leads context batchSize p p')
    (hgranted : ∀ mark ∈ turn.marks, mark.refusal? = none) (entity job : String)
    (reference : ResultReference) (attempts : Nat) (fault : String) :
    turn.reply = .error (.transientStream entity job reference attempts fault) ↔
      (entity = context.entity ∧ job = context.job ∧ attempts = context.retryLimit) ∧
        turn.marks.getLast? = some (.spent reference fault) := by
  constructor
  · intro hreply
    have htells := h.tells
    rw [hreply] at htells
    generalize ho : Except.map Reply.rows (.error _) = o at htells
    cases htells with
    | rows => cases ho
    | aborted e hquiet hother =>
      cases ho
      exact absurd ⟨_, _, _, _, _, rfl⟩ hother
    | failed before last e hmarks hquiet hlast =>
      cases ho
      have hwalk := h.walk
      rw [hmarks] at hwalk hgranted ⊢
      have hlast' := hgranted last (by simp)
      obtain ⟨q, -, hend⟩ := hwalk.split
      cases hend with
      | cons _ _ _ _ _ hmove _ =>
        cases hmove with
        | spent pending s fault' hbreaks hspent =>
          cases hlast
          exact ⟨⟨rfl, rfl, rfl⟩, List.getLast?_concat ..⟩
        | rejected pending s e hunbroken hother =>
          cases hlast
          exact absurd ⟨_, _, _, _, _, rfl⟩ hother
        | _ => cases hlast'.symm.trans hlast
  · rintro ⟨⟨rfl, rfl, rfl⟩, hlast⟩
    exact (h.of_error (List.mem_of_getLast? hlast) rfl).2

end Budget

/-- What the turns keep to, with the limit `context.retryLimit`. -/
structure WithinBudget (context : StreamContext) (references : List ResultReference)
    (turns : List Turn) : Prop where
  /-- Results are opened for the first time in their order. -/
  order : (turns.flatMap Turn.marks).filterMap Mark.first? <+: references
  /-- Between two renewals each result is opened again at most as often as the limit says. -/
  reopened : ∀ stretch, stretch <:+: turns.flatMap Turn.marks → (∀ mark ∈ stretch, ¬ mark.Grants) →
    stretch.countP Mark.reopens ≤ context.retryLimit
  /-- A read or a replay that meets a break is followed by another open if fewer reconnects were
  made than the limit says since the result was opened first and since the last renewal; otherwise
  the budget is spent. -/
  broken : ∀ before mark rest, turns.flatMap Turn.marks = before ++ mark :: rest →
    mark ≠ .renewed → ∃ p, Walk context.retryLimit ⟨references, none⟩ before p ∧
      (p.Broken ↔ mark.reopens ∨ mark.spends) ∧
      (mark.reopens → reconnectsMade before < context.retryLimit) ∧
      (mark.spends → reconnectsMade before = context.retryLimit)
  /-- During one call each result is opened at most once more than the limit says. -/
  opened : ∀ turn ∈ turns, ∀ stretch, stretch <:+: turn.marks →
    (∀ mark ∈ stretch.tail, mark.first? = none) →
    stretch.countP Mark.opens ≤ context.retryLimit + 1
  /-- An open that is refused ends its call with that error. -/
  refused : ∀ turn ∈ turns, ∀ mark ∈ turn.marks, ∀ e, mark.refusal? = some e →
    turn.marks.getLast? = some mark ∧ turn.reply = .error e
  /-- Otherwise a call fails with a broken stream just where the budget is spent. -/
  transient : ∀ turn ∈ turns, (∀ mark ∈ turn.marks, mark.refusal? = none) →
    ∀ entity job reference attempts fault,
      turn.reply = .error (.transientStream entity job reference attempts fault) ↔
        (entity = context.entity ∧ job = context.job ∧ attempts = context.retryLimit) ∧
          turn.marks.getLast? = some (.spent reference fault)

/-- Whatever is called in whatever order, and whatever pages are served. -/
theorem calls_within_budget (context : StreamContext) (references : List ResultReference)
    (settings : Settings) (schema : Option (List String)) (cs : List Call)
    (log : List (Exchange services)) (replies : List (Except ExtractError Reply)) (after : Batcher)
    (ht : Trace ((start (.start context references) settings schema).calls cs) log
      (replies, after)) :
    ∃ turns last, Turns context (max settings.batchSize 1) ⟨references, none⟩ turns last ∧
      turns.map Turn.call = cs ∧ turns.map Turn.reply = replies ∧
      log = (turns.flatMap Turn.marks).filterMap (Mark.exchange? context.job) ∧
      WithinBudget context references turns := by
  have hat : (ResultReader.start context references).At context ⟨references, none⟩ :=
    .between rfl rfl rfl
  have hidle : Position.Within context.retryLimit ⟨references, none⟩ := by rintro s ⟨⟩
  obtain ⟨turns, last, hturns, hcalls, hreplies, hlog⟩ :=
    turns_of_trace_calls (b := start (.start context references) settings schema) cs hat ht
  refine ⟨turns, last, hturns, hcalls, hreplies, hlog, hturns.walk.firsts_isPrefix,
    fun stretch => hturns.walk.countP_reopens_le hidle, ?_, fun turn hmem stretch => ?_,
    fun turn hmem mark hmark e he => ?_, fun turn hmem hgranted => ?_⟩
  · intro before mark rest hmarks hmark
    obtain ⟨p, hbefore, hrest⟩ := (hmarks ▸ hturns.walk).split
    have hmade := hbefore.foldl_tally 0 (by rintro s ⟨⟩)
    cases hrest with
    | cons _ _ _ _ _ hmove _ =>
      exact ⟨p, hbefore, hmove.broken_iff hmark, hmove.reconnects _ hmade⟩
  · obtain ⟨q, q', hq, hleads⟩ := hturns.leads_of_mem hidle hmem
    exact hleads.countP_opens_le hq
  · obtain ⟨q, q', -, hleads⟩ := hturns.leads_of_mem hidle hmem
    exact hleads.of_refusal hmark he
  · obtain ⟨q, q', -, hleads⟩ := hturns.leads_of_mem hidle hmem
    exact hleads.transient_iff hgranted

/-- Serves the pages given, one after the other. -/
def servePages (r : Request) (pages : List Page) : r.Reply × List Page :=
  match r, pages with
  | .openResult _ _, page :: pages => (.ok page, pages)
  | r, pages => ((Local.respond ⟨"/", "/", false⟩ r threeResults).1, pages)

/-- A result whose stream is dropped behind the first row, and twice behind the second one. -/
def droppedPages : List Page :=
  [.cut "A\n1\n2\n3\n" 4 "dropped", .cut "A\n1\n2\n3\n" 6 "dropped",
    .cut "A\n1\n2\n3\n" 6 "dropped"]

def droppedCalls : Program services (List (Except ExtractError Reply) × Batcher) :=
  (start (.start ⟨"Account", "750", 1⟩ [⟨"b", "r"⟩]) { batchSize := 1 } none).calls
    [.fetch, .pull, .pull]

/-- One reconnect is granted. The first pull needs it, the second one has it again although the
result is the same, and then the budget is spent. -/
theorem calls_within_budget_spent :
    ∃ log replies after, Trace ((start (.start ⟨"Account", "750", 1⟩ [⟨"b", "r"⟩])
        { batchSize := 1 } none).calls [.fetch, .pull, .pull]) log (replies, after) ∧
      log.length = 3 ∧
      replies = [.ok (.fetched (.row (.ofFields ["A"] ["1"]))),
        .ok (.pulled (.batch ⟨[.ofFields ["A"] ["2"]], 1⟩)),
        .error (.transientStream "Account" "750" ⟨"b", "r"⟩ 1 "dropped")] ∧
      ∃ turns last, Turns ⟨"Account", "750", 1⟩ 1 ⟨[⟨"b", "r"⟩], none⟩ turns last ∧
        turns.map Turn.call = [.fetch, .pull, .pull] ∧ turns.map Turn.reply = replies ∧
        log = (turns.flatMap Turn.marks).filterMap (Mark.exchange? "750") ∧
        WithinBudget ⟨"Account", "750", 1⟩ [⟨"b", "r"⟩] turns := by
  have ht := Program.trace_play servePages droppedCalls droppedPages
  have hplayed : (Program.play servePages droppedCalls droppedPages).1.length = 3 ∧
      (Program.play servePages droppedCalls droppedPages).2.1.1 =
        [.ok (.fetched (.row (.ofFields ["A"] ["1"]))),
          .ok (.pulled (.batch ⟨[.ofFields ["A"] ["2"]], 1⟩)),
          .error (.transientStream "Account" "750" ⟨"b", "r"⟩ 1 "dropped")] := by
    decide +kernel
  exact ⟨_, _, _, ht, hplayed.1, hplayed.2, calls_within_budget _ _ _ _ _ _ _ _ ht⟩

end Batcher

end Harvest
