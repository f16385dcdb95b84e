import Harvest.Proofs.Stream.Replay
import Harvest.Stream.Reader

/-!
# Every row once

Where each result has one text, served again at every open and broken off anywhere, a reader
delivers the rows of the results in order and each of them once, however often the streams
break (`ResultReader.fetches_deliver_once`). What carries the proof is what a reader still owes:
the rows of the result being read behind those delivered, and all rows of the results that
were not opened. Every fetch delivers the first row that is owed, or nothing is owed any more,
or the budget of reconnects is spent.

A page that breaks right behind the byte-order mark has to be excluded where its text has
rows: it is taken for an empty one (`ResultReader.trace_of_not_faithful`).
-/

namespace Harvest

open Program (Trace)

/-- The rows of a text after its header. -/
def Csv.data (content : String) : List (List String) := (Csv.table content).tail

/-- The header of a text. -/
def Csv.header (content : String) : List String := (Csv.table content).headD []

/-- The records of a text: each row paired with the header. -/
def Csv.records (content : String) : List Record :=
  (Csv.data content).map (.ofFields (Csv.header content))

namespace Page

/-- The page breaks right behind the byte-order mark. -/
def BreaksAtMark (p : Page) : Prop := p.broken ≠ none ∧ p.bytes = Csv.byteOrderMark

/-- The page gives the text, and breaks right behind the byte-order mark only if that does not
matter because the text has no rows. -/
def Faithful (p : Page) (content : String) : Prop :=
  p.Serves content ∧ (p.BreaksAtMark → Csv.records content = [])

namespace Faithful

variable {p : Page} {content : String}

theorem data_isPrefix (h : p.Faithful content) : p.data <+: Csv.data content := by
  obtain ⟨rest, hrest⟩ := h.1.table_isPrefix
  cases htable : p.table with
  | nil => simp [data, htable]
  | cons header rows =>
    rw [htable] at hrest
    exact ⟨rest, by simp [data, Csv.data, htable, ← hrest]⟩

theorem header_eq (h : p.Faithful content) (hdata : p.data ≠ []) :
    p.header = Csv.header content := by
  obtain ⟨rest, hrest⟩ := h.1.table_isPrefix
  cases htable : p.table with
  | nil => simp [data, htable] at hdata
  | cons header rows =>
    rw [htable] at hrest
    simp [Page.header, Csv.header, htable, ← hrest]

/-- A page that is taken for complete has all rows of the text. -/
theorem data_eq (h : p.Faithful content) (hends : p.Ends) : p.data = Csv.data content := by
  by_cases hwhole : p.broken = none
  · rw [data, Csv.data, h.1.table_eq hwhole]
  · have hmark : p.BreaksAtMark := ⟨hwhole, hends.resolve_left hwhole⟩
    have hnone : Csv.data content = [] := List.map_eq_nil_iff.1 (h.2 hmark)
    rw [hnone]
    exact List.prefix_nil.1 (hnone ▸ h.data_isPrefix)

end Faithful

end Page

/-- A reading that goes on with the text: the row behind those delivered under the header of the
text, the end behind all rows, or the end of the budget. -/
def Reading.Continues (ctx : StreamContext) (reference : ResultReference) (content : String)
    (rows : List (List String)) : Reading → Prop
  | .row page header fields => page.Faithful content ∧ header = Csv.header content ∧
      rows ++ [fields] <+: Csv.data content
  | .exhausted => rows = Csv.data content
  | .failed e =>
    ∃ attempts fault, e = .transientStream ctx.entity ctx.job reference attempts fault

section Rules

variable {ctx : StreamContext} {reference : ResultReference} {content : String}
  {header : List String} {rows : List (List String)}

theorem continues_row {page : Page} {fields : List String} (hpage : page.Faithful content)
    (hrows : rows <+: Csv.data content) (hheader : rows ≠ [] → header = Csv.header content)
    (hrow : page.data[rows.length]? = some fields) :
    (Reading.row page (page.headerAfter header rows) fields).Continues ctx reference content
      rows := by
  refine ⟨hpage, ?_, ?_⟩
  · by_cases hnil : rows = []
    · have hdata : page.data ≠ [] := by
        intro hempty
        simp [hempty] at hrow
      rw [Page.headerAfter, if_pos hnil, hpage.header_eq hdata]
    · rw [Page.headerAfter, if_neg hnil, hheader hnil]
  · obtain ⟨rest, hrest⟩ := hpage.data_isPrefix
    obtain ⟨hlt, hget⟩ := List.getElem?_eq_some_iff.1 hrow
    have htake : rows = (Csv.data content).take rows.length := List.prefix_iff_eq_take.1 hrows
    have hnext : (Csv.data content)[rows.length]? = some fields := by
      rw [← hrest, List.getElem?_append_left hlt, hrow]
    have happend : rows ++ [fields] = (Csv.data content).take (rows.length + 1) := by
      rw [List.take_add_one, hnext, ← htake]
      rfl
    rw [happend]
    exact List.take_prefix _ _

/-- A recovery from pages of one text goes on with the text. -/
theorem Replay.continues {attempts : Nat} {fault : String} {pages : List Page}
    {reading : Reading} (h : Replay ctx reference header rows attempts fault pages reading)
    (hpages : ∀ p ∈ pages, p.Faithful content) (hrows : rows <+: Csv.data content)
    (hheader : rows ≠ [] → header = Csv.header content) :
    reading.Continues ctx reference content rows := by
  induction h with
  | spent attempts fault h => exact ⟨attempts, fault, rfl⟩
  | interrupted attempts fault page pages reading hroom hbreak hshort h ih =>
    exact ih fun p hp => hpages p (List.mem_cons_of_mem _ hp)
  | short attempts fault page hroom hends hshort =>
    -- A page that is taken for complete has all rows of the text.
    have hpage := hpages page List.mem_cons_self
    rw [hpage.data_eq hends] at hshort
    exact absurd hrows.length_le (Nat.not_le_of_lt hshort)
  | different attempts fault page hroom hlong hother =>
    -- The rows delivered and those of the page begin the same text.
    have hpage := hpages page List.mem_cons_self
    have htake : page.data.take rows.length = rows := by
      have hprefix := List.prefix_of_prefix_length_le hrows hpage.data_isPrefix hlong
      exact (List.prefix_iff_eq_take.1 hprefix).symm
    exact absurd ⟨hlong, congrArg List.getLast? htake⟩ hother
  | row attempts fault page fields hroom hsame hrow =>
    exact continues_row (hpages page List.mem_cons_self) hrows hheader hrow
  | exhausted attempts fault page hroom hsame hends hlength =>
    have hdata := (hpages page List.mem_cons_self).data_eq hends
    rw [hdata] at hlength
    exact hrows.eq_of_length hlength.symm
  | broken attempts fault newFault page pages reading hroom hsame hbreak hlength hfault h ih =>
    exact ih fun p hp => hpages p (List.mem_cons_of_mem _ hp)

theorem Fetched.continues {page : Page} {attempts : Nat} {pages : List Page}
    {reading : Reading} (h : Fetched ctx reference page header rows attempts pages reading)
    (hpage : page.Faithful content) (hpages : ∀ p ∈ pages, p.Faithful content)
    (hrows : rows <+: Csv.data content) (hheader : rows ≠ [] → header = Csv.header content) :
    reading.Continues ctx reference content rows := by
  cases h with
  | row fields hrow => exact continues_row hpage hrows hheader hrow
  | exhausted hends hlength =>
    rw [hpage.data_eq hends] at hlength
    exact hrows.eq_of_length hlength.symm
  | broken fault _ _ hbreak hlength hfault h => exact h.continues hpages hrows hheader

end Rules

/-- The cursor has delivered the first rows of the text and owes the records of the others. -/
def Cursor.Owes (c : Cursor) (content : String) (rest : List Record) : Prop :=
  ∃ page header rows, c.Behind page header rows ∧ page.Faithful content ∧
    rows <+: Csv.data content ∧ (rows ≠ [] → header = Csv.header content) ∧
    rest = ((Csv.data content).drop rows.length).map (.ofFields (Csv.header content))

namespace Cursor

theorem owes_start (reference : ResultReference) (page : Page) (content : String)
    (h : page.Faithful content) : (start reference page).Owes content (Csv.records content) :=
  ⟨page, [], [], behind_start reference page content [] h.1, h, List.nil_prefix,
    fun hne => absurd rfl hne, rfl⟩

theorem Owes.renew {c : Cursor} {content : String} {rest : List Record}
    (h : c.Owes content rest) (n : Nat) :
    ({ c with reconnects := n } : Cursor).Owes content rest := by
  obtain ⟨page, header, rows, hbehind, hrest⟩ := h
  exact ⟨page, header, rows, hbehind.renew n, hrest⟩

/-- A fetch gives the first record owed, or none is owed, or the budget is spent. -/
theorem trace_next_of_owes (contents : ResultReference → String) (ctx : StreamContext)
    (c : Cursor) (rest : List Record) (h : c.Owes (contents c.reference) rest)
    (log : List (Program.Exchange services)) (outcome : Outcome)
    (ht : Trace (c.next ctx) log outcome)
    (hlog : Serving (fun reference page => page.Faithful (contents reference)) log) :
    (∃ record others after, outcome = .ok (some record, after) ∧ rest = record :: others ∧
      after.Owes (contents after.reference) others ∧ after.reference = c.reference) ∨
    (∃ after, outcome = .ok (none, after) ∧ rest = []) ∨
    ∃ attempts fault,
      outcome = .error (.transientStream ctx.entity ctx.job c.reference attempts fault) := by
  obtain ⟨page, header, rows, hbehind, hpage, hrows, hheader, rfl⟩ := h
  obtain ⟨pages, reading, rfl, hpages, hfetched, hdescribes⟩ :=
    trace_next _ (fun reference page hp => ⟨contents reference, hp.1⟩) ctx header rows c page
      hbehind log outcome ht hlog
  have hcontinues := hfetched.continues hpage hpages hrows hheader
  cases reading with
  | row page' header' fields =>
    rcases outcome with e | ⟨_ | record, after⟩
    · exact hdescribes.elim
    · exact hdescribes.elim
    · obtain ⟨rfl, hafter, href⟩ := hdescribes
      obtain ⟨hpage', rfl, hprefix⟩ := hcontinues
      obtain ⟨others, hothers⟩ := hprefix
      refine .inl ⟨_, others.map (.ofFields (Csv.header (contents c.reference))), after, rfl, ?_,
        ?_, href⟩
      · rw [← hothers]
        simp
      · rw [href]
        refine ⟨page', _, rows ++ [fields], hafter, hpage', ⟨others, hothers⟩, fun _ => rfl, ?_⟩
        rw [← hothers]
        simp
  | exhausted =>
    rcases outcome with e | ⟨_ | record, after⟩
    · exact hdescribes.elim
    · replace hcontinues : rows = Csv.data (contents c.reference) := hcontinues
      exact .inr (.inl ⟨after, rfl, by rw [hcontinues, List.drop_length, List.map_nil]⟩)
    · exact hdescribes.elim
  | failed e =>
    obtain ⟨attempts, fault, rfl⟩ := hcontinues
    rcases outcome with e' | ⟨_ | record, after⟩
    · exact .inr (.inr ⟨attempts, fault, congrArg Except.error hdescribes⟩)
    · exact hdescribes.elim
    · exact hdescribes.elim

end Cursor

/-- The rows among the answers to fetches. -/
def deliveredRows (answers : List (Except ExtractError Fetch)) : List Record :=
  answers.filterMap fun
    | .ok (.row record) => some record
    | _ => none

theorem deliveredRows_cons (answer : Except ExtractError Fetch)
    (answers : List (Except ExtractError Fetch)) :
    deliveredRows (answer :: answers) = deliveredRows [answer] ++ deliveredRows answers := by
  rw [deliveredRows, ← List.singleton_append, List.filterMap_append]
  rfl

namespace ResultReader

/-- Fetches `n` times, whatever the answers are. -/
def fetches : (n : Nat) → ResultReader →
    Program services (List (Except ExtractError Fetch) × ResultReader)
  | 0, r => .done ([], r)
  | n + 1, r =>
    r.next.bind fun (answer, r) =>
      (fetches n r).bind fun (answers, r) => .done (answer :: answers, r)

section Counting

variable (r : ResultReader) (log : List (Program.Exchange services))

theorem rowsRead_of_trace_fetchPending (pending : List ResultReference) (o : Outcome)
    (ht : Trace (fetchPending r pending) log o) :
    o.2.rowsRead = r.rowsRead + (deliveredRows [o.1]).length := by
  induction pending generalizing r log with
  | nil =>
    obtain ⟨rfl, rfl⟩ := (Program.trace_done_iff _ o log).1 ht
    rfl
  | cons reference pending ih =>
    obtain ⟨reply, tail, rfl, htail⟩ := (Program.trace_ask_iff _ _ log o).1 ht
    cases reply with
    | error e =>
      obtain ⟨rfl, rfl⟩ := (Program.trace_done_iff _ o tail).1 htail
      rfl
    | ok page =>
      obtain ⟨first, last, outcome, rfl, -, hlast⟩ := (Program.trace_bind_iff _ _ tail o).1 htail
      rcases outcome with e | ⟨_ | record, c⟩
      · obtain ⟨rfl, rfl⟩ := (Program.trace_done_iff _ o last).1 hlast
        rfl
      · exact ih (r.leave c) last hlast
      · obtain ⟨rfl, rfl⟩ := (Program.trace_done_iff _ o last).1 hlast
        rfl

theorem rowsRead_of_trace_next (o : Outcome) (ht : Trace r.next log o) :
    o.2.rowsRead = r.rowsRead + (deliveredRows [o.1]).length := by
  rw [next] at ht
  cases hfailure : r.failure with
  | some reason =>
    rw [hfailure] at ht
    obtain ⟨rfl, rfl⟩ := (Program.trace_done_iff _ o log).1 ht
    rfl
  | none =>
    rw [hfailure] at ht
    cases hcursor : r.cursor with
    | none =>
      simp only [hcursor] at ht
      exact rowsRead_of_trace_fetchPending r log r.pending o ht
    | some c =>
      simp only [hcursor] at ht
      obtain ⟨first, last, outcome, rfl, -, hlast⟩ := (Program.trace_bind_iff _ _ log o).1 ht
      rcases outcome with e | ⟨_ | record, c⟩
      · obtain ⟨rfl, rfl⟩ := (Program.trace_done_iff _ o last).1 hlast
        rfl
      · exact rowsRead_of_trace_fetchPending (r.leave c) last r.pending o hlast
      · obtain ⟨rfl, rfl⟩ := (Program.trace_done_iff _ o last).1 hlast
        rfl

theorem rowsRead_of_trace_fetches (n : Nat) (answers : List (Except ExtractError Fetch))
    (after : ResultReader) (ht : Trace (r.fetches n) log (answers, after)) :
    after.rowsRead = r.rowsRead + (deliveredRows answers).length := by
  induction n generalizing r log answers with
  | zero =>
    obtain ⟨rfl, heq⟩ := (Program.trace_done_iff _ _ log).1 ht
    cases heq
    rfl
  | succ n ih =>
    obtain ⟨first, tail, ⟨answer, r'⟩, rfl, hfirst, htail⟩ :=
      (Program.trace_bind_iff _ _ log _).1 ht
    obtain ⟨middle, last, ⟨others, r''⟩, rfl, hmiddle, hlast⟩ :=
      (Program.trace_bind_iff _ _ tail _).1 htail
    obtain ⟨rfl, heq⟩ := (Program.trace_done_iff _ _ last).1 hlast
    cases heq
    have hanswer : r'.rowsRead = r.rowsRead + (deliveredRows [answer]).length :=
      rowsRead_of_trace_next r first (answer, r') hfirst
    rw [ih r' middle others hmiddle, hanswer, deliveredRows_cons answer others, List.length_append,
      Nat.add_assoc]

end Counting

section Owing

variable (contents : ResultReference → String)

/-- The reader did not fail, and owes the rest of the result being read and all records of the
results that were not opened. -/
structure Owes (r : ResultReader) (rest : List Record) : Prop where
  failure : r.failure = none
  rest : ∃ begun, rest = begun ++ r.pending.flatMap (fun ref => Csv.records (contents ref)) ∧
    match r.cursor with
    | none => begun = []
    | some c => c.Owes (contents c.reference) begun

/-- What a fetch answers and leaves of the reader, when `rest` was owed. -/
def Answered (context : StreamContext) (rest : List Record) (o : Outcome) : Prop :=
  (∃ record others, o.1 = .ok (.row record) ∧ rest = record :: others ∧
      o.2.Owes contents others) ∨
    (o.1 = .ok .finished ∧ rest = [] ∧ o.2.Owes contents []) ∨
    ∃ reference attempts fault, o.1 = .error (.transientStream context.entity context.job
        reference attempts fault) ∧ o.2.failure.isSome

theorem owes_start (context : StreamContext) (references : List ResultReference) :
    (start context references).Owes contents
      (references.flatMap fun ref => Csv.records (contents ref)) :=
  ⟨rfl, [], rfl, rfl⟩

theorem answered_fail (r : ResultReader) (rest : List Record) (reference : ResultReference)
    (attempts : Nat) (fault : String) :
    Answered contents r.context rest (r.fail (.transientStream r.context.entity r.context.job
      reference attempts fault)) :=
  .inr (.inr ⟨reference, attempts, fault, rfl, rfl⟩)

theorem answered_deliver (r : ResultReader) (hfailure : r.failure = none) (record : Record)
    (others : List Record) (c : Cursor) (h : c.Owes (contents c.reference) others) :
    Answered contents r.context
      ((record :: others) ++ r.pending.flatMap fun ref => Csv.records (contents ref))
      (r.deliver record c) :=
  .inl ⟨record, _, rfl, rfl, hfailure, others, rfl, h⟩

/-- A reader between two results answers with the first row owed by those not opened. -/
theorem trace_fetchPending (r : ResultReader) (hfailure : r.failure = none)
    (hcursor : r.cursor = none) (pending : List ResultReference)
    (log : List (Program.Exchange services)) (o : Outcome)
    (ht : Trace (fetchPending r pending) log o)
    (hlog : Serving (fun ref page => page.Faithful (contents ref)) log) :
    Answered contents r.context (pending.flatMap fun ref => Csv.records (contents ref)) o := by
  induction pending generalizing r log with
  | nil =>
    obtain ⟨rfl, rfl⟩ := (Program.trace_done_iff _ o log).1 ht
    exact .inr (.inl ⟨rfl, rfl, hfailure, [], rfl, by simp [hcursor]⟩)
  | cons reference pending ih =>
    obtain ⟨reply, tail, rfl, htail⟩ := (Program.trace_ask_iff _ _ log o).1 ht
    obtain ⟨page, rfl, hpage⟩ := hlog _ _ _ List.mem_cons_self
    obtain ⟨first, last, outcome, rfl, hfirst, hlast⟩ :=
      (Program.trace_bind_iff _ _ tail o).1 htail
    have hserving : Serving (fun ref page => page.Faithful (contents ref)) (first ++ last) :=
      fun job ref reply hmem => hlog job ref reply (List.mem_cons_of_mem _ hmem)
    have howes := Cursor.owes_start reference page (contents reference) hpage
    rw [List.flatMap_cons]
    rcases Cursor.trace_next_of_owes contents r.context _ _ howes first outcome hfirst
        fun job ref reply hmem => hserving job ref reply (List.mem_append_left _ hmem) with
      ⟨record, others, after, rfl, hrest, hafter, -⟩ | ⟨after, rfl, hrest⟩ |
        ⟨attempts, fault, rfl⟩
    · obtain ⟨rfl, rfl⟩ := (Program.trace_done_iff _ o last).1 hlast
      rw [hrest]
      exact answered_deliver contents { r with pending := pending } hfailure record others after
        hafter
    · -- A result without further rows is left for the next one.
      rw [hrest, List.nil_append]
      exact ih (r.leave after) hfailure rfl last hlast fun job ref reply hmem =>
        hserving job ref reply (List.mem_append_right _ hmem)
    · obtain ⟨rfl, rfl⟩ := (Program.trace_done_iff _ o last).1 hlast
      exact answered_fail contents { r with pending := pending } _ _ attempts fault

/-- Every fetch answers with the first row owed, or nothing is owed, or the budget is spent. -/
theorem Owes.trace_next {r : ResultReader} {rest : List Record} (h : r.Owes contents rest)
    (log : List (Program.Exchange services)) (o : Outcome) (ht : Trace r.next log o)
    (hlog : Serving (fun ref page => page.Faithful (contents ref)) log) :
    Answered contents r.context rest o := by
  obtain ⟨hfailure, begun, rfl, hbegun⟩ := h
  rw [next, hfailure] at ht
  cases hcursor : r.cursor with
  | none =>
    simp only [hcursor] at ht hbegun
    rw [hbegun, List.nil_append]
    exact trace_fetchPending contents r hfailure hcursor r.pending log o ht hlog
  | some c =>
    simp only [hcursor] at ht hbegun
    obtain ⟨first, last, outcome, rfl, hfirst, hlast⟩ :=
      (Program.trace_bind_iff _ _ log o).1 ht
    rcases Cursor.trace_next_of_owes contents r.context c begun hbegun first outcome hfirst
        fun job ref reply hmem => hlog job ref reply (List.mem_append_left _ hmem) with
      ⟨record, others, after, rfl, rfl, hafter, -⟩ | ⟨after, rfl, rfl⟩ | ⟨attempts, fault, rfl⟩
    · obtain ⟨rfl, rfl⟩ := (Program.trace_done_iff _ o last).1 hlast
      exact answered_deliver contents r hfailure record others after hafter
    · exact trace_fetchPending contents (r.leave after) hfailure rfl r.pending last o hlast
        fun job ref reply hmem => hlog job ref reply (List.mem_append_right _ hmem)
    · obtain ⟨rfl, rfl⟩ := (Program.trace_done_iff _ o last).1 hlast
      exact answered_fail contents r _ _ attempts fault

end Owing

/-- A reader that failed delivers nothing more. -/
theorem trace_fetches_of_failure (n : Nat) (r : ResultReader) (reason : String)
    (h : r.failure = some reason) (log : List (Program.Exchange services))
    (answers : List (Except ExtractError Fetch)) (after : ResultReader)
    (ht : Trace (r.fetches n) log (answers, after)) :
    answers = List.replicate n
        (.error (.streamAborted r.context.entity r.context.job reason)) ∧
      after = r := by
  induction n generalizing log answers with
  | zero =>
    obtain ⟨rfl, heq⟩ := (Program.trace_done_iff _ _ log).1 ht
    cases heq
    exact ⟨rfl, rfl⟩
  | succ n ih =>
    rw [fetches, r.next_of_failure reason h, Program.done_bind] at ht
    obtain ⟨first, last, ⟨others, r'⟩, rfl, hfirst, hlast⟩ :=
      (Program.trace_bind_iff _ _ log _).1 ht
    obtain ⟨rfl, heq⟩ := (Program.trace_done_iff _ _ last).1 hlast
    cases heq
    obtain ⟨rfl, rfl⟩ := ih first others hfirst
    exact ⟨rfl, rfl⟩

/-- What holds of a run of fetches from a reader that owes `rest`. -/
structure Delivers (rest : List Record) (answers : List (Except ExtractError Fetch)) :
    Prop where
  rows : deliveredRows answers <+: rest
  finished : .ok .finished ∈ answers → deliveredRows answers = rest
  matched : ∀ entity job reference skipped,
    .error (.repositionMismatch entity job reference skipped) ∉ answers

theorem Owes.trace_fetches (contents : ResultReference → String) (n : Nat) {r : ResultReader}
    {rest : List Record} (h : r.Owes contents rest) (log : List (Program.Exchange services))
    (answers : List (Except ExtractError Fetch)) (after : ResultReader)
    (ht : Trace (r.fetches n) log (answers, after))
    (hlog : Serving (fun ref page => page.Faithful (contents ref)) log) :
    Delivers rest answers := by
  -- A row takes one off what is owed, and behind an error there are errors only.
  induction n generalizing r rest log answers with
  | zero =>
    obtain ⟨rfl, heq⟩ := (Program.trace_done_iff _ _ log).1 ht
    cases heq
    exact ⟨List.nil_prefix, by simp, by simp⟩
  | succ n ih =>
    obtain ⟨first, tail, ⟨answer, r'⟩, rfl, hfirst, htail⟩ :=
      (Program.trace_bind_iff _ _ log _).1 ht
    obtain ⟨middle, last, ⟨others, r''⟩, rfl, hmiddle, hlast⟩ :=
      (Program.trace_bind_iff _ _ tail _).1 htail
    obtain ⟨rfl, heq⟩ := (Program.trace_done_iff _ _ last).1 hlast
    cases heq
    have hanswered := h.trace_next contents first (answer, r') hfirst
      fun job ref reply hmem => hlog job ref reply (List.mem_append_left _ hmem)
    have hserving : Serving (fun ref page => page.Faithful (contents ref)) middle :=
      fun job ref reply hmem => hlog job ref reply (by simp [hmem])
    rcases hanswered with ⟨record, owed, rfl, rfl, howes⟩ | ⟨rfl, rfl, howes⟩ |
      ⟨reference, attempts, fault, rfl, hfailure⟩
    · obtain ⟨hrows, hfinished, hmatched⟩ := ih howes middle others hmiddle hserving
      refine ⟨List.cons_prefix_cons.2 ⟨rfl, hrows⟩, fun hmem => ?_, by simpa using hmatched⟩
      exact congrArg (record :: ·) (hfinished (by simpa using hmem))
    · obtain ⟨hrows, hfinished, hmatched⟩ := ih howes middle others hmiddle hserving
      exact ⟨hrows, fun _ => List.prefix_nil.1 hrows, by simpa using hmatched⟩
    · obtain ⟨reason, hreason⟩ := Option.isSome_iff_exists.1 hfailure
      obtain ⟨rfl, rfl⟩ := trace_fetches_of_failure n r' reason hreason middle others _ hmiddle
      have hnone : deliveredRows (List.replicate n (Except.error
          (.streamAborted after.context.entity after.context.job reason))) = [] := by
        simp [deliveredRows]
      refine ⟨?_, by simp, by simp⟩
      exact hnone ▸ List.nil_prefix

/-- A page that gives a text with rows and breaks right behind the byte-order mark is taken for
an empty one. -/
theorem trace_of_not_faithful (context : StreamContext) (reference : ResultReference)
    (page : Page) (content : String) (hserves : page.Serves content)
    (h : ¬ page.Faithful content) :
    Csv.records content ≠ [] ∧
      Trace ((start context [reference]).fetches 1) (openings context.job reference [page])
        ([.ok .finished], start context []) := by
  obtain ⟨⟨hbroken, hbytes⟩, hrecords⟩ : page.BreaksAtMark ∧ Csv.records content ≠ [] := by
    simpa [Page.Faithful, hserves] using h
  have hfeed : page.feed = ⟨[], none⟩ := by
    rcases page with ⟨bytes, broken⟩
    cases broken with
    | none => exact absurd rfl hbroken
    | some fault => simp [Page.feed, show bytes = Csv.byteOrderMark from hbytes]
  have hread : (Cursor.start reference page).read = .exhausted (Cursor.start reference page) := by
    simp [Cursor.read, Cursor.start, hfeed, Feed.next_nil_none]
  refine ⟨hrecords, (Program.trace_ask_iff _ _ _ _).2
    ⟨(.ok page : Except ExtractError Page), [], rfl, ?_⟩⟩
  simp only [start, Cursor.next, hread]
  exact .done _

/-- Every row that is fetched is counted. Each result having a text of its own, `n` fetches
deliver the first rows of the results in order, and all of them once a fetch finishes, whatever
pages of the texts are served. Pages that break right behind the byte-order mark of a text with
rows are excluded, and any of them loses the rows. -/
theorem fetches_deliver_once (contents : ResultReference → String) (context : StreamContext) :
    (∀ (references : List ResultReference) (n : Nat) (log : List (Program.Exchange services))
        (answers : List (Except ExtractError Fetch)) (after : ResultReader),
      Trace ((start context references).fetches n) log (answers, after) →
        after.rowsRead = (deliveredRows answers).length ∧
        (Serving (fun reference page => page.Faithful (contents reference)) log →
          deliveredRows answers <+:
              references.flatMap (fun reference => Csv.records (contents reference)) ∧
            (.ok .finished ∈ answers → deliveredRows answers =
              references.flatMap fun reference => Csv.records (contents reference)) ∧
            ∀ entity job reference skipped,
              .error (.repositionMismatch entity job reference skipped) ∉ answers)) ∧
      ∀ (reference : ResultReference) (page : Page), page.Serves (contents reference) →
        ¬ page.Faithful (contents reference) →
          Csv.records (contents reference) ≠ [] ∧
            Trace ((start context [reference]).fetches 1)
              (openings context.job reference [page]) ([.ok .finished], start context []) := by
  constructor
  · intro references n log answers after ht
    refine ⟨?_, fun hlog => ?_⟩
    · rw [rowsRead_of_trace_fetches _ log n answers after ht]
      exact Nat.zero_add _
    · obtain ⟨hrows, hfinished, hmatched⟩ :=
        (owes_start contents context references).trace_fetches contents n log answers after ht hlog
      exact ⟨hrows, hfinished, hmatched⟩
  · intro reference page hserves hfaithful
    exact trace_of_not_faithful context reference page (contents reference) hserves hfaithful

theorem trace_fetches_succ (n : Nat) (r r' after : ResultReader)
    (first rest : List (Program.Exchange services)) (answer : Except ExtractError Fetch)
    (answers : List (Except ExtractError Fetch)) (h : Trace r.next first (answer, r'))
    (hrest : Trace (r'.fetches n) rest (answers, after)) :
    Trace (r.fetches (n + 1)) (first ++ rest) (answer :: answers, after) := by
  refine (Program.trace_bind_iff _ _ _ _).2 ⟨first, rest, _, rfl, h, ?_⟩
  exact (Program.trace_bind_iff _ _ _ _).2
    ⟨rest, [], _, (List.append_nil rest).symm, hrest, .done _⟩

theorem trace_fetches_two :
    Trace ((start ⟨"Account", "750", 1⟩ [⟨"b", "r"⟩]).fetches 3)
      (openings "750" ⟨"b", "r"⟩ [.cut "A\n1\n2\n" 4 "dropped", .whole "A\n1\n2\n"])
      ([.ok (.row (.ofFields ["A"] ["1"])), .ok (.row (.ofFields ["A"] ["2"])), .ok .finished],
        ⟨⟨"Account", "750", 1⟩, [], none, some ["A"], 2, none⟩) := by
  have hread : (Cursor.start ⟨"b", "r"⟩ (.cut "A\n1\n2\n" 4 "dropped")).read =
      .record (.ofFields ["A"] ["1"])
        ⟨⟨"b", "r"⟩, ⟨[], some "dropped"⟩, some ["A"], 1, some ["1"], 0⟩ := by
    decide +kernel
  have hresume : (Cursor.mk ⟨"b", "r"⟩ ⟨[], some "dropped"⟩ (some ["A"]) 1 (some ["1"]) 1).resume
      (.whole "A\n1\n2\n") =
      .ready ⟨⟨"b", "r"⟩, ⟨[⟨⟨2, 3, 4⟩, [[50]]⟩], none⟩, some ["A"], 1, some ["1"], 1⟩ := by
    decide +kernel
  have hnext := Cursor.trace_next_of_takeUp ⟨"Account", "750", 1⟩
    ⟨⟨"b", "r"⟩, ⟨[], some "dropped"⟩, some ["A"], 1, some ["1"], 0⟩ "dropped"
    (.whole "A\n1\n2\n") (.ok (some (.ofFields ["A"] ["2"]),
      ⟨⟨"b", "r"⟩, ⟨[], none⟩, some ["A"], 2, some ["2"], 1⟩)) (by decide +kernel) (by decide)
    (Cursor.takeUp_of_ready _ _ _ _ _ _ _ hresume (by decide +kernel))
  have hlast : (Cursor.mk ⟨"b", "r"⟩ ⟨[], none⟩ (some ["A"]) 2 (some ["2"]) 1).read =
      .exhausted ⟨⟨"b", "r"⟩, ⟨[], none⟩, some ["A"], 2, some ["2"], 1⟩ := by
    decide +kernel
  refine trace_fetches_succ 2 _ ⟨⟨"Account", "750", 1⟩, [], some ⟨⟨"b", "r"⟩,
    ⟨[], some "dropped"⟩, some ["A"], 1, some ["1"], 0⟩, some ["A"], 1, none⟩ _ [_] [_] _ _ ?_ ?_
  · refine (Program.trace_ask_iff _ _ _ _).2
      ⟨(.ok (.cut "A\n1\n2\n" 4 "dropped") : Except ExtractError Page), [], rfl, ?_⟩
    simp only [Cursor.next, hread]
    exact .done _
  · refine trace_fetches_succ 1 _ ⟨⟨"Account", "750", 1⟩, [], some ⟨⟨"b", "r"⟩, ⟨[], none⟩,
      some ["A"], 2, some ["2"], 1⟩, some ["A"], 2, none⟩ _ [_] [] _ _ ?_ ?_
    · exact (Program.trace_bind_iff _ _ _ _).2
        ⟨_, [], _, (List.append_nil _).symm, hnext, .done _⟩
    · refine trace_fetches_succ 0 _ _ _ [] [] _ _ ?_ (.done _)
      rw [next]
      simp only [Cursor.next, hlast]
      exact .done _

/-- A result of two rows whose stream breaks behind the first one gives both of them; one of a
row whose stream breaks right behind the byte-order mark gives none. -/
theorem fetches_deliver_after_break :
    (Trace ((start ⟨"Account", "750", 1⟩ [⟨"b", "r"⟩]).fetches 3)
        (openings "750" ⟨"b", "r"⟩ [.cut "A\n1\n2\n" 4 "dropped", .whole "A\n1\n2\n"])
        ([.ok (.row (.ofFields ["A"] ["1"])), .ok (.row (.ofFields ["A"] ["2"])), .ok .finished],
          ⟨⟨"Account", "750", 1⟩, [], none, some ["A"], 2, none⟩) ∧
      [Record.ofFields ["A"] ["1"], .ofFields ["A"] ["2"]] = Csv.records "A\n1\n2\n") ∧
    Csv.records "\uFEFFA\n1\n" ≠ [] ∧
      Trace ((start ⟨"Account", "750", 1⟩ [⟨"b", "r"⟩]).fetches 1)
        (openings "750" ⟨"b", "r"⟩ [.cut "\uFEFFA\n1\n" 3 "dropped"])
        ([.ok .finished], start ⟨"Account", "750", 1⟩ []) := by
  constructor
  · have hpages : ∀ page ∈ [Page.cut "A\n1\n2\n" 4 "dropped", .whole "A\n1\n2\n"],
        page.Faithful "A\n1\n2\n" := by
      refine List.forall_mem_cons.2 ⟨⟨.inr ⟨4, "dropped", rfl⟩, fun h => ?_⟩, ?_⟩
      · exact absurd h.2 (by decide)
      · exact List.forall_mem_singleton.2 ⟨.inl rfl, fun h => absurd rfl h.1⟩
    obtain ⟨-, hdelivers⟩ := (fetches_deliver_once (fun _ => "A\n1\n2\n")
      ⟨"Account", "750", 1⟩).1 [⟨"b", "r"⟩] 3 _ _ _ trace_fetches_two
    obtain ⟨-, hfinished, -⟩ := hdelivers (serving_openings _ _ _ _ hpages)
    refine ⟨trace_fetches_two, ?_⟩
    simpa [deliveredRows] using hfinished (by simp)
  · have hrecords : Csv.records "\uFEFFA\n1\n" = [.ofFields ["A"] ["1"]] := by
      decide +kernel
    refine (fetches_deliver_once (fun _ => "\uFEFFA\n1\n") ⟨"Account", "750", 1⟩).2 ⟨"b", "r"⟩
      (.cut "\uFEFFA\n1\n" 3 "dropped") (.inr ⟨3, "dropped", rfl⟩) fun h => ?_
    have hnone := h.2 ⟨Option.some_ne_none _, by decide⟩
    rw [hrecords] at hnone
    cases hnone

end ResultReader

end Harvest
