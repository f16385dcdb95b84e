import Harvest.Proofs.Batcher
import Harvest.Proofs.Footprint

/-!
# What an extraction gives to its sink

An extraction that ends well opens its sink once, gives it the rows of the results in their order
and behind them the deleted rows, if they had to be fetched, and finishes it. The numbers of its
result count just these rows (`Extraction.delivers_of_trace`).
-/

namespace Harvest

open Program (Trace Exchange Asks)
open Engine
open ResultReader (Event rows)

section Projections

/-- A batch that is given to the sink, and whether it is taken. -/
def writing? : Exchange services → Option (Batch × Except ExtractError Unit)
  | ⟨.writeBatch batch, reply⟩ => some (batch, reply)
  | _ => none

/-- A query whose records are fetched, and what is answered. -/
def fetching? : Exchange services → Option (String × Except ExtractError (List Record))
  | ⟨.fetchRecords query, reply⟩ => some (query, reply)
  | _ => none

/-- The answer to the question for the results of a batch. -/
def listing? : Exchange services → Option (Except ExtractError (List ResultReference))
  | ⟨.listResults _ _, reply⟩ => some reply
  | _ => none

/-- The exchange reads a result. -/
def isReading (x : Exchange services) : Bool := x.request.kind == .stream

variable (x : Exchange services)

theorem writing?_eq_none (h : x.request.kind ≠ .write) : writing? x = none := by
  obtain ⟨r, reply⟩ := x
  cases r <;> first | rfl | exact absurd rfl h

theorem fetching?_eq_none (h : x.request.kind ≠ .fetch) : fetching? x = none := by
  obtain ⟨r, reply⟩ := x
  cases r <;> first | rfl | exact absurd rfl h

theorem listing?_eq_none (h : x.request.kind ≠ .results) : listing? x = none := by
  obtain ⟨r, reply⟩ := x
  cases r <;> first | rfl | exact absurd rfl h

variable {log : List (Exchange services)} {kinds : List Request.Kind}

theorem filter_isReading_eq_nil (h : ∀ x ∈ log, x.request.kind ∈ kinds) (hkinds : .stream ∉ kinds) :
    log.filter isReading = [] :=
  List.filter_eq_nil_iff.2 fun x hx hreading => hkinds (eq_of_beq hreading ▸ h x hx)

theorem filter_isReading_eq_self (h : ∀ x ∈ log, x.request.kind ∈ [Request.Kind.stream]) :
    log.filter isReading = log :=
  List.filter_eq_self.2 fun x hx => by simpa [isReading] using h x hx

end Projections

/-- What one pull answers: the rows that the reader delivers, or that it is drained. -/
theorem Batcher.cases_of_trace_next (b after : Batcher) (pull : Pull) (hsize : 0 < b.batchSize)
    {log : List (Exchange services)} (ht : Trace b.next log (.ok pull, after)) :
    ∃ events, b.reader.Run log events after.reader ∧ 0 < after.batchSize ∧
      ((∃ batch, pull = .batch batch ∧ batch.records = rows events ∧
          after.totalRows = b.totalRows + (rows events).length ∧
          after.fallbackTold = b.fallbackTold) ∨
        rows events = [] ∧ after.reader.Drained ∧ after.totalRows = b.totalRows ∧
          (pull = .fallback ∧ b.fallbackTold = false ∧ after.fallbackTold = true ∨
            pull = .finished)) := by
  obtain ⟨events, hrun, hpull, hafter, -, hdrained⟩ := b.run_of_trace_next after pull ht
  have hsize' : after.batchSize = b.batchSize := by rw [hafter, batchSize_settle]
  refine ⟨events, hrun, hsize'.symm ▸ hsize, ?_⟩
  cases hrows : rows events with
  | nil =>
    rw [hrows, settle_nil_eq] at hpull hafter
    refine .inr ⟨rfl, hdrained (by rw [hrows]; exact hsize), ?_⟩
    split at hpull
    · rename_i howed
      rw [if_pos howed] at hafter
      exact ⟨by rw [hafter], .inl ⟨hpull, howed.1, by rw [hafter]⟩⟩
    · rename_i howed
      rw [if_neg howed] at hafter
      exact ⟨by rw [hafter], .inr hpull⟩
  | cons record records =>
    rw [hrows, settle_cons] at hpull hafter
    exact .inl ⟨_, hpull, rfl, by rw [hafter]; rfl, by rw [hafter]⟩

namespace Extraction

variable (c : RunContext) (e : EntityOptions) (predicates : List String)

/-- What goes from a batcher to the sink: the rows of the reader, `events` being all that happens
at it until it is drained, and behind them the deleted rows, if they were fetched. -/
structure Streams (b : Batcher) (deleted : Nat) (log : List (Exchange services))
    (streamed : Streamed) (events : List Event) (after : ResultReader) (batches : List Batch)
    (fetched : Option (String × List Record)) : Prop where
  run : b.reader.Run (log.filter isReading) events after
  drained : after.Drained
  writes : log.filterMap writing? = batches.map fun batch => (batch, .ok ())
  records : batches.flatMap (·.records) = rows events ++ fetched.elim [] (·.2)
  fetches : log.filterMap fetching? = fetched.toList.map fun f => (f.1, .ok f.2)
  query : ∀ f ∈ fetched, b.fallbackTold = false ∧
    Query.compose e.baseQuery predicates (some c.settings.softDeleteColumn) = .ok f.1
  rows : streamed.rows = b.totalRows + (rows events).length
  softDeletedRows : streamed.softDeletedRows = fetched.elim deleted (·.2.length)
  columns : streamed.columns = b.schema.getD (after.header.getD [])

variable {c e predicates}

theorem ok_of_trace_composed {α : Type} {r : Except QueryFault α} {a : α}
    {log : List (Exchange services)} (ht : Trace (composed r) log (.ok a)) :
    log = [] ∧ r = .ok a := by
  obtain ⟨rfl, hr⟩ := ok_of_trace_ofExcept ht
  cases r with
  | error fault => cases hr
  | ok b =>
    cases hr
    exact ⟨rfl, rfl⟩

/-- The deleted rows are fetched, and given to the sink if there are any. -/
theorem trace_fetchDeleted (total : Nat) (log : List (Exchange services)) (n : Nat)
    (ht : Trace (fetchDeleted c e predicates total) log (.ok n)) :
    ∃ query records, ∃ batches : List Batch,
      Query.compose e.baseQuery predicates (some c.settings.softDeleteColumn) = .ok query ∧
      log.filterMap fetching? = [(query, .ok records)] ∧
      log.filterMap writing? = batches.map (fun batch => (batch, .ok ())) ∧
      batches.flatMap (·.records) = records ∧ n = records.length := by
  obtain ⟨query, first, rest, rfl, hquery, hrest⟩ := ok_of_trace_bind ht
  obtain ⟨rfl, hcompose⟩ := ok_of_trace_composed hquery
  obtain ⟨records, asked, last, rfl, hasked, hlast⟩ := ok_of_trace_bind hrest
  rw [(trace_request_iff asked (.fetchRecords query) (.ok records)).1 hasked]
  cases records with
  | nil =>
    obtain ⟨rfl, heq⟩ := (trace_pure_iff last _ _).1 hlast
    cases heq
    exact ⟨query, [], [], hcompose, rfl, rfl, rfl, rfl⟩
  | cons record records =>
    obtain ⟨_, written, final, rfl, hwritten, hfinal⟩ := ok_of_trace_bind hlast
    obtain ⟨rfl, heq⟩ := (trace_pure_iff final _ _).1 hfinal
    cases heq
    rw [(trace_request_iff written (.writeBatch _) (.ok ())).1 hwritten]
    exact ⟨query, record :: records, [_], hcompose, rfl, rfl, List.append_nil _, rfl⟩

/-- What is streamed, by induction on how many pulls are left. -/
theorem trace_stream (deleted patience : Nat) (b : Batcher) (hsize : 0 < b.batchSize)
    (log : List (Exchange services)) (streamed : Streamed)
    (ht : Trace (stream c e predicates deleted patience b) log (.ok streamed)) :
    ∃ events after batches fetched,
      Streams c e predicates b deleted log streamed events after batches fetched := by
  induction patience generalizing deleted b log with
  | zero => cases ((trace_throw_iff log _ _).1 ht).2
  | succ patience ih =>
    obtain ⟨⟨outcome, b'⟩, first, pulled, rfl, hfirst, hpulled⟩ :=
      trace_ofTotal_bind log b.next _ _ ht
    obtain ⟨pull, _, rest, rfl, hpull, hrest⟩ := ok_of_trace_bind hpulled
    obtain ⟨rfl, rfl⟩ := ok_of_trace_ofExcept hpull
    have hkinds := b.asks_next.of_trace hfirst
    have hreads := filter_isReading_eq_self hkinds
    have hwrites := filterMap_eq_nil_of_kinds writing?_eq_none hkinds (by decide)
    have hfetches := filterMap_eq_nil_of_kinds fetching?_eq_none hkinds (by decide)
    obtain ⟨events, hrun, hsize', hcases⟩ := b.cases_of_trace_next b' pull hsize hfirst
    have hschema := b.schema_of_trace_next b' pull hfirst
    rcases hcases with ⟨batch, rfl, hbatch, htotal, htold⟩ | ⟨hrows, hdrained, htotal, hcases⟩
    · obtain ⟨_, written, last, rfl, hwritten, hlast⟩ := ok_of_trace_bind hrest
      rw [(trace_request_iff written (.writeBatch batch) (.ok ())).1 hwritten]
      obtain ⟨events', after, batches, fetched, h⟩ := ih deleted b' hsize' last hlast
      exact ⟨events ++ events', after, batch :: batches, fetched, {
        run := by
          simpa [List.filter_append, hreads, isReading, Request.kind] using hrun.append h.run
        drained := h.drained
        writes := by simp [List.filterMap_append, hwrites, writing?, h.writes]
        records := by simp [ResultReader.rows_append, hbatch, h.records]
        fetches := by
          rw [List.filterMap_append, hfetches]
          exact h.fetches
        query := fun f hf => htold ▸ h.query f hf
        rows := by
          rw [h.rows, htotal, ResultReader.rows_append, List.length_append, Nat.add_assoc]
        softDeletedRows := h.softDeletedRows
        columns := hschema ▸ h.columns }⟩
    rcases hcases with ⟨rfl, htold, htold'⟩ | rfl
    · obtain ⟨n, asked, last, rfl, hasked, hlast⟩ := ok_of_trace_bind hrest
      obtain ⟨query, records, others, hquery, hfetched, hwritten, hrecords, rfl⟩ :=
        trace_fetchDeleted b'.totalRows asked n hasked
      obtain ⟨events', after, batches, fetched, h⟩ := ih records.length b' hsize' last hlast
      -- the reader is drained and the deleted rows are not fetched again
      obtain ⟨hnone, -, -⟩ := h.run.of_drained hdrained
      obtain rfl : fetched = none := by
        cases fetched with
        | none => rfl
        | some f => cases htold'.symm.trans (h.query f rfl).1
      have hunread := filter_isReading_eq_nil
        ((asks_fetchDeleted c e predicates b'.totalRows).of_trace hasked) (by decide)
      exact ⟨events ++ events', after, others ++ batches, some (query, records), {
        run := by simpa [List.filter_append, hreads, hunread] using hrun.append h.run
        drained := h.drained
        writes := by simp [List.filterMap_append, hwrites, hwritten, h.writes]
        records := by simp [ResultReader.rows_append, hrows, hnone, hrecords, h.records]
        fetches := by simp [List.filterMap_append, hfetches, hfetched, h.fetches]
        query := by
          intro f hf
          cases hf
          exact ⟨htold, hquery⟩
        rows := by rw [h.rows, htotal, ResultReader.rows_append, hrows, List.nil_append]
        softDeletedRows := h.softDeletedRows
        columns := hschema ▸ h.columns }⟩
    · obtain ⟨rfl, heq⟩ := (trace_pure_iff rest _ _).1 hrest
      cases heq
      exact ⟨events, b'.reader, [], none, {
        run := by simpa [hreads] using hrun
        drained := hdrained
        writes := by simpa using hwrites
        records := by simp [hrows]
        fetches := by simpa using hfetches
        query := by
          intro f hf
          cases hf
        rows := by rw [hrows, htotal]; rfl
        softDeletedRows := rfl
        columns := by
          rw [Batcher.columns, hschema]
          cases b.schema <;> rfl }⟩

theorem kinds_of_trace_closeJob (job : OpenJob) (log : List (Exchange services))
    (ht : Trace (closeJob job) log (.ok ())) :
    ∀ x ∈ log, x.request.kind ∈ [Request.Kind.status, .close] := by
  obtain ⟨⟨outcome, after⟩, first, rest, rfl, hfirst, hrest⟩ :=
    trace_ofTotal_bind log job.close _ _ ht
  cases outcome with
  | ok u =>
    obtain ⟨rfl, -⟩ := (trace_pure_iff rest _ _).1 hrest
    rw [List.append_nil]
    exact job.asks_close.of_trace hfirst
  | error error => cases ((trace_throw_iff rest error _).1 (ok_of_trace_onError hrest)).2

/-- The sink is opened, the results are streamed, and the job is closed. -/
theorem ok_of_trace_collect (p : PreparedJob) {log : List (Exchange services)} {streamed : Streamed}
    (ht : Trace (collect c e predicates p) log (.ok streamed)) :
    ∃ streaming closing,
      log = ⟨.openSink e.name c.run, .ok ()⟩ :: (streaming ++ closing) ∧
      Trace (stream c e predicates 0 c.patience (.start (.start
        ⟨e.name, p.job.id, c.settings.streamRetryLimit⟩ p.references) c.settings e.columns))
        streaming (.ok streamed) ∧
      ∀ x ∈ closing, x.request.kind ∈ [Request.Kind.status, .close] := by
  obtain ⟨_, guarded, rest, rfl, hguarded, hrest⟩ := ok_of_trace_bind ht
  obtain ⟨_, opened, streaming, rfl, hopened, hstreaming⟩ :=
    ok_of_trace_bind (ok_of_trace_onError hguarded)
  obtain ⟨_, closing, last, rfl, hclosing, hlast⟩ := ok_of_trace_bind hrest
  obtain ⟨rfl, heq⟩ := (trace_pure_iff last _ _).1 hlast
  cases heq
  rw [(trace_request_iff opened (.openSink e.name c.run) (.ok ())).1 hopened, List.append_nil]
  exact ⟨streaming, closing, rfl, ok_of_trace_onError hstreaming,
    kinds_of_trace_closeJob p.job closing hclosing⟩

end Extraction

section Listing

variable {log : List (Exchange services)}

/-- The results that are listed are those of the batches, one after the other. -/
theorem listing_of_trace_collectResults (job : String) (bs : List BatchInfo)
    (references : List ResultReference)
    (ht : Trace (collectResults job bs) log (.ok references)) :
    ∃ lists : List (List ResultReference),
      log.filterMap listing? = lists.map .ok ∧ references = lists.flatten := by
  induction bs generalizing log references with
  | nil =>
    obtain ⟨rfl, heq⟩ := (trace_pure_iff log _ _).1 ht
    cases heq
    exact ⟨[], rfl, rfl⟩
  | cons b bs ih =>
    rw [collectResults] at ht
    split at ht
    · obtain ⟨answer, asked, rest, rfl, hasked, hrest⟩ := ok_of_trace_bind ht
      obtain ⟨others, first, last, rfl, hfirst, hlast⟩ := ok_of_trace_bind hrest
      obtain ⟨rfl, heq⟩ := (trace_pure_iff last _ _).1 hlast
      cases heq
      rw [(trace_request_iff asked (.listResults job b.id) (.ok answer)).1 hasked]
      obtain ⟨lists, hlists, rfl⟩ := ih others hfirst
      exact ⟨answer :: lists, by simp [listing?, hlists], rfl⟩
    · exact ih references ht

/-- A job is prepared with the results that are listed, in the order of the answers. -/
theorem JobPlan.ListsLast.listing {kinds : List Request.Kind} {p : PreparedJob}
    (h : ListsLast kinds p log) (hkinds : .results ∉ kinds) :
    ∃ lists : List (List ResultReference),
      log.filterMap listing? = lists.map .ok ∧ p.references = lists.flatten := by
  obtain ⟨before, batches, listed, rfl, hbefore, hlisted⟩ := h
  rw [List.filterMap_append, filterMap_eq_nil_of_kinds listing?_eq_none hbefore hkinds,
    List.nil_append]
  exact listing_of_trace_collectResults _ batches _ hlisted

end Listing

/-- What passes from the service to the sink. -/
structure Passage where
  /-- The results of each batch, as they were listed. -/
  listed : List (List ResultReference)
  /-- All that happens at the reader of these results. -/
  events : List Event
  /-- The query for the deleted rows and its answer, if it was made. -/
  fetched : Option (String × List Record)
  summary : Summary

namespace Passage

/-- The rows of the results. -/
def bulk (p : Passage) : List Record := rows p.events

/-- The deleted rows that were fetched on their own. -/
def deleted (p : Passage) : List Record := p.fetched.elim [] (·.2)

end Passage

namespace Extraction

variable (c : RunContext) (e : EntityOptions)

/-- What a successful extraction exchanges and tells: all results that were listed are read to their
end in this order, the deleted rows are fetched once at most, and the numbers of the result are
those of the rows and of the summary of the sink. -/
structure Delivers (log : List (Exchange services)) (result : TaskResult) (p : Passage) : Prop where
  entity : result.entity = e.name
  success : result.status = TaskResult.successStatus ∧ result.error = none
  listed : log.filterMap listing? = p.listed.map .ok
  read : ∃ job after, result.job = some job ∧ after.Drained ∧
    (ResultReader.start ⟨e.name, job, c.settings.streamRetryLimit⟩ p.listed.flatten).Run
      (log.filter isReading) p.events after
  opened : ResultReader.openedReferences p.events = p.listed.flatten
  fetches : log.filterMap fetching? = p.fetched.toList.map fun f => (f.1, .ok f.2)
  query : ∀ f ∈ p.fetched, ∃ ps, predicates e = .ok ps ∧
    Query.compose e.baseQuery ps (some c.settings.softDeleteColumn) = .ok f.1
  rows : result.rows = p.bulk.length
  softDeletedRows : result.softDeletedRows = p.deleted.length
  summary : ⟨.finishSink, .ok p.summary⟩ ∈ log
  bytes : result.bytes = p.summary.bytes

/-- The exchanges with the sink: it is opened, takes batches of these records, and is finished. -/
structure Fills (log : List (Exchange services)) (records : List Record) (summary : Summary)
    (during after : List (Exchange services)) (batches : List Batch) : Prop where
  shape : ∃ before, log = before ++ ⟨.openSink e.name c.run, .ok ()⟩ ::
    (during ++ ⟨.finishSink, .ok summary⟩ :: after)
  kinds : ∀ x ∈ during, x.request.kind ∈ [Request.Kind.stream, .fetch, .write, .status, .close]
  others : ∀ x ∈ after, x.request.kind ∈ [Request.Kind.catalog, .time]
  writes : during.filterMap writing? = batches.map fun batch => (batch, .ok ())
  records : batches.flatMap (·.records) = records

/-- The phases of a successful extraction: a job is prepared, the sink is opened, the results are
streamed, the job is closed, the sink is finished, and what was written is registered. -/
structure Phases (log : List (Exchange services)) (result : TaskResult) (ps : List String)
    (p : PreparedJob) (streamed : Streamed) (summary : Summary)
    (before streaming closing after : List (Exchange services)) : Prop where
  shape : log = before ++ ⟨.openSink e.name c.run, .ok ()⟩ ::
    (streaming ++ closing ++ ⟨.finishSink, .ok summary⟩ :: after)
  predicates : predicates e = .ok ps
  prepared : JobPlan.ListsLast [.create, .status, .close, .batch, .query, .time] p before
  streams : Trace (stream c e ps 0 c.patience (.start (.start
    ⟨e.name, p.job.id, c.settings.streamRetryLimit⟩ p.references) c.settings e.columns))
    streaming (.ok streamed)
  closed : ∀ x ∈ closing, x.request.kind ∈ [Request.Kind.status, .close]
  registered : ∀ x ∈ after, x.request.kind ∈ [Request.Kind.catalog, .time]
  result : ∃ watermark duration, result = {
    entity := e.name, job := some p.job.id, rows := streamed.rows,
    softDeletedRows := streamed.softDeletedRows, bytes := summary.bytes,
    highWatermark := watermark, duration := duration,
    status := TaskResult.successStatus, error := none }

variable {c e}

theorem phases_of_trace {log : List (Exchange services)} {result : TaskResult}
    (ht : Trace (extract c e) log (.ok result)) :
    ∃ ps p streamed summary before streaming closing after,
      Phases c e log result ps p streamed summary before streaming closing after := by
  obtain ⟨begun, started, rest, rfl, hstarted, hrest⟩ := ok_of_trace_bind ht
  obtain ⟨ps, _, rest₁, rfl, hps, h₁⟩ := ok_of_trace_bind hrest
  obtain ⟨rfl, hpredicates⟩ := ok_of_trace_composed hps
  obtain ⟨watermark, looked, rest₂, rfl, hlooked, h₂⟩ := ok_of_trace_bind h₁
  obtain ⟨query, _, rest₃, rfl, hquery, h₃⟩ := ok_of_trace_bind h₂
  obtain ⟨rfl, -⟩ := ok_of_trace_composed hquery
  obtain ⟨countQuery, _, rest₄, rfl, hcount, h₄⟩ := ok_of_trace_bind h₃
  obtain ⟨rfl, -⟩ := ok_of_trace_composed hcount
  obtain ⟨p, preparing, rest₅, rfl, hprepared, h₅⟩ := ok_of_trace_bind h₄
  obtain ⟨streamed, collecting, rest₆, rfl, hcollected, h₆⟩ := ok_of_trace_bind h₅
  obtain ⟨summary, finishing, rest₇, rfl, hfinished, h₇⟩ := ok_of_trace_bind h₆
  obtain ⟨_, registering, rest₈, rfl, hregistered, h₈⟩ := ok_of_trace_bind h₇
  obtain ⟨ended, stopped, last, rfl, hstopped, hlast⟩ := ok_of_trace_bind h₈
  obtain ⟨rfl, heq⟩ := (trace_pure_iff last _ _).1 hlast
  cases heq
  obtain ⟨streaming, closing, rfl, hstreaming, hclosing⟩ := ok_of_trace_collect p hcollected
  obtain rfl := (trace_request_iff finishing .finishSink (.ok summary)).1
    (ok_of_trace_onError hfinished)
  have hclock : Asks [.time] clock := .ofTotal (.request _ rfl)
  exact ⟨ps, p, streamed, summary, started ++ (looked ++ preparing), streaming, closing,
    registering ++ stopped, {
      shape := by simp
      predicates := hpredicates
      prepared := ((JobPlan.ok_of_trace_prepare hprepared).append (fun _ h => h)
        (((asks_watermarkOf e ps).mono (by decide)).of_trace hlooked)).append (fun _ h => h)
        ((hclock.mono (by decide)).of_trace hstarted)
      streams := hstreaming
      closed := hclosing
      registered := List.forall_mem_append.2
        ⟨((asks_register c e summary _).mono (by decide)).of_trace hregistered,
          (hclock.mono (by decide)).of_trace hstopped⟩
      result := ⟨watermark, ended - begun, rfl⟩ }⟩

/-- What an extraction delivers, by what it streams. -/
theorem Phases.delivers {log : List (Exchange services)} {result : TaskResult} {ps : List String}
    {job : PreparedJob} {streamed : Streamed} {summary : Summary}
    {before streaming closing after : List (Exchange services)} {events : List Event}
    {reader : ResultReader} {batches : List Batch} {fetched : Option (String × List Record)}
    (h : Phases c e log result ps job streamed summary before streaming closing after)
    (hstreams : Streams c e ps (.start (.start ⟨e.name, job.job.id, c.settings.streamRetryLimit⟩
      job.references) c.settings e.columns) 0 streaming streamed events reader batches fetched) :
    ∃ lists, job.references = lists.flatten ∧
      Delivers c e log result ⟨lists, events, fetched, summary⟩ ∧
      Fills c e log (rows events ++ fetched.elim [] (·.2)) summary (streaming ++ closing) after
        batches := by
  obtain ⟨rfl, hpredicates, hprepared, hstreaming, hclosing, hafter, watermark, duration, rfl⟩ := h
  obtain ⟨lists, hlists, hreferences⟩ := hprepared.listing (by decide)
  rw [hreferences] at hstreams
  -- the results are read and the deleted rows are fetched nowhere but while streaming
  have hbefore := hprepared.kinds
  have hstreamed := (asks_stream c e ps 0 c.patience _).of_trace hstreaming
  refine ⟨lists, hreferences, ?_, ?_⟩
  · exact {
      entity := rfl
      success := ⟨rfl, rfl⟩
      listed := by
        simp [List.filterMap_append, List.filterMap_cons, hlists, listing?,
          filterMap_eq_nil_of_kinds listing?_eq_none hstreamed (by decide),
          filterMap_eq_nil_of_kinds listing?_eq_none hclosing (by decide),
          filterMap_eq_nil_of_kinds listing?_eq_none hafter (by decide)]
      read := by
        refine ⟨job.job.id, reader, rfl, hstreams.drained, ?_⟩
        rw [List.filter_append, filter_isReading_eq_nil hbefore (by decide), List.nil_append,
          List.filter_cons_of_neg Bool.false_ne_true, List.filter_append, List.filter_append,
          filter_isReading_eq_nil hclosing (by decide), List.append_nil,
          List.filter_cons_of_neg Bool.false_ne_true, filter_isReading_eq_nil hafter (by decide),
          List.append_nil]
        exact hstreams.run
      opened := by
        rw [← List.append_nil (ResultReader.openedReferences events), ← hstreams.drained.2]
        exact hstreams.run.pending.symm
      fetches := by
        simp [List.filterMap_append, List.filterMap_cons, fetching?, hstreams.fetches,
          filterMap_eq_nil_of_kinds fetching?_eq_none hbefore (by decide),
          filterMap_eq_nil_of_kinds fetching?_eq_none hclosing (by decide),
          filterMap_eq_nil_of_kinds fetching?_eq_none hafter (by decide)]
      query := fun f hf => ⟨ps, hpredicates, (hstreams.query f hf).2⟩
      rows := hstreams.rows.trans (Nat.zero_add _)
      softDeletedRows := by
        cases fetched <;> exact hstreams.softDeletedRows
      summary := by simp
      bytes := rfl }
  · exact {
      shape := ⟨before, rfl⟩
      kinds := List.forall_mem_append.2
        ⟨fun x hx => (by decide : [Request.Kind.stream, .fetch, .write] ⊆ _) (hstreamed x hx),
          fun x hx => List.mem_cons_of_mem _ (List.mem_cons_of_mem _ (List.mem_cons_of_mem _
            (hclosing x hx)))⟩
      others := hafter
      writes := by
        rw [List.filterMap_append, hstreams.writes,
          filterMap_eq_nil_of_kinds writing?_eq_none hclosing (by decide), List.append_nil]
      records := hstreams.records }

theorem delivers_of_trace {log : List (Exchange services)} {result : TaskResult}
    (ht : Trace (extract c e) log (.ok result)) :
    ∃ p during after batches, Delivers c e log result p ∧
      Fills c e log (p.bulk ++ p.deleted) p.summary during after batches := by
  obtain ⟨ps, job, streamed, summary, before, streaming, closing, after, hphases⟩ :=
    phases_of_trace ht
  obtain ⟨events, reader, batches, fetched, hstreams⟩ :=
    trace_stream 0 c.patience _ (Nat.le_max_right _ 1) streaming streamed hphases.streams
  obtain ⟨lists, -, hdelivers, hfills⟩ := hphases.delivers hstreams
  exact ⟨_, _, after, batches, hdelivers, hfills⟩

end Extraction

end Harvest
