import Harvest.Proofs.Extraction.Streaming
import Harvest.Proofs.Job.Closing
import Harvest.Proofs.Stream.Delivery

/-!
# How often the deleted rows are delivered

A job of the extended operation returns the logically deleted rows as well, and behind the results
of any job the deleted rows are fetched on their own if their marker is a column. So from a service
that answers by the operation the sink gets each live row once, and each deleted row once or twice
(`Extraction.delivered_by_operation`): it gets them twice where the job has returned them before.
-/

namespace Harvest

open Program (Trace Exchange)
open Engine
open ResultReader (Event rows lastHeader)

namespace ResultReader

section Owing

variable {contents : ResultReference → String} {r r' : ResultReader}
  {log : List (Exchange services)} {rest : List Record}

/-- What a reader delivers is the first of what it owes. -/
theorem Step.owes {event : Event} (h : Step r log event r') (howes : r.Owes contents rest)
    (hlog : Serving (fun ref page => page.Faithful (contents ref)) log) :
    ∃ others, rest = event.row?.toList ++ others ∧ r'.Owes contents others := by
  obtain ⟨hfailure, begun, rfl, hbegun⟩ := howes
  cases h with
  | renewed =>
    refine ⟨_, rfl, hfailure, begun, rfl, ?_⟩
    cases hcursor : r.cursor with
    | none =>
      rw [hcursor] at hbegun
      simpa [renewBudget, hcursor] using hbegun
    | some c =>
      rw [hcursor] at hbegun
      simpa [renewBudget, hcursor] using hbegun.renew 0
  | opened reference pending page hcursor hpending =>
    obtain ⟨page', hpage, hfaithful⟩ := hlog _ _ _ List.mem_cons_self
    cases hpage
    rw [hcursor] at hbegun
    refine ⟨_, rfl, hfailure, Csv.records (contents reference), ?_,
      Cursor.owes_start reference page (contents reference) hfaithful⟩
    rw [hbegun, hpending]
    rfl
  | delivered c after record _ hcursor ht =>
    rw [hcursor] at hbegun
    rcases Cursor.trace_next_of_owes contents r.context c begun hbegun log _ ht hlog with
      ⟨_, others, _, heq, rfl, hafter, -⟩ | ⟨_, heq, -⟩ | ⟨_, _, heq⟩
    · cases heq
      exact ⟨_, rfl, hfailure, others, rfl, hafter⟩
    · cases heq
    · cases heq
  | exhausted c after _ hcursor ht =>
    rw [hcursor] at hbegun
    rcases Cursor.trace_next_of_owes contents r.context c begun hbegun log _ ht hlog with
      ⟨_, _, _, heq, -⟩ | ⟨_, -, rfl⟩ | ⟨_, _, heq⟩
    · cases heq
    · exact ⟨_, rfl, hfailure, [], rfl, rfl⟩
    · cases heq

theorem Run.owes {events : List Event} (h : Run r log events r') (howes : r.Owes contents rest)
    (hlog : Serving (fun ref page => page.Faithful (contents ref)) log) :
    ∃ others, rest = rows events ++ others ∧ r'.Owes contents others := by
  induction h generalizing rest with
  | nil r => exact ⟨rest, rfl, howes⟩
  | cons r r₁ r₂ log more event events hstep _ ih =>
    obtain ⟨others, rfl, howes'⟩ := hstep.owes howes fun job ref reply hmem =>
      hlog job ref reply (List.mem_append_left _ hmem)
    obtain ⟨others', rfl, howes''⟩ := ih howes' fun job ref reply hmem =>
      hlog job ref reply (List.mem_append_right _ hmem)
    exact ⟨others', by cases event <;> rfl, howes''⟩

/-- A reader that was drained has delivered all records of its results. -/
theorem Run.rows_eq {context : StreamContext} {references : List ResultReference}
    {events : List Event} (h : Run (start context references) log events r') (hdrained : r'.Drained)
    (hlog : Serving (fun ref page => page.Faithful (contents ref)) log) :
    rows events = references.flatMap fun ref => Csv.records (contents ref) := by
  obtain ⟨others, hrest, -, begun, rfl, hbegun⟩ := h.owes (owes_start contents context references)
    hlog
  rw [hdrained.1] at hbegun
  rw [hrest, hdrained.2, hbegun]
  simp

end Owing

end ResultReader

namespace Batcher

variable (b : Batcher)

theorem columns_eq : b.columns = b.schema.getD (b.reader.header.getD []) := by
  rw [columns]
  cases b.schema <;> rfl

/-- What one pull answers a batcher by which the deleted rows are to be fetched, `told` being
whether it has said so before. -/
theorem answers_of_trace_next {log : List (Exchange services)} {after : Batcher} {pull : Pull}
    (ht : Trace b.next log (.ok pull, after)) (henabled : b.softDeleteDisabled = false)
    (htold : b.fallbackTold = false) :
    (∃ batch, pull = .batch batch ∧ after.fallbackTold = false ∧
        after.softDeleteDisabled = false ∧ after.softDeleteColumn = b.softDeleteColumn) ∨
      pull = .fallback ∨ pull = .finished ∧
        ∀ column ∈ after.columns, ¬ Text.sameFolded column b.softDeleteColumn := by
  obtain ⟨events, -, hpull, hafter, -⟩ := b.run_of_trace_next after pull ht
  cases hrows : rows events with
  | cons record records =>
    rw [hrows, settle_cons] at hpull hafter
    exact .inl ⟨_, hpull, by rw [hafter]; exact ⟨htold, henabled, rfl⟩⟩
  | nil =>
    rw [hrows, settle_nil_eq] at hpull hafter
    split at hpull
    · exact .inr (.inl hpull)
    · next hnone =>
      rw [if_neg hnone] at hafter
      refine .inr (.inr ⟨hpull, fun column hcolumn hsame => hnone ⟨htold, henabled, column, ?_,
        hsame⟩⟩)
      rw [hafter, columns_eq] at hcolumn
      exact hcolumn

end Batcher

/-- The columns of what was delivered, as configured or as read. -/
def Passage.columns (p : Passage) (e : EntityOptions) : List String :=
  e.columns.getD ((lastHeader p.events).getD [])

namespace Extraction

variable {c : RunContext} {e : EntityOptions}

/-- The deleted rows are fetched while streaming, if they are due by the columns at the end. -/
theorem fetches_of_trace_stream {predicates : List String} (deleted patience : Nat) (b : Batcher)
    (log : List (Exchange services)) (streamed : Streamed)
    (ht : Trace (stream c e predicates deleted patience b) log (.ok streamed))
    (henabled : b.softDeleteDisabled = false) (htold : b.fallbackTold = false)
    (hmarker : ∃ column ∈ streamed.columns, Text.sameFolded column b.softDeleteColumn) :
    log.filterMap fetching? ≠ [] := by
  induction patience generalizing deleted b log with
  | zero => cases ((trace_throw_iff log _ _).1 ht).2
  | succ patience ih =>
    obtain ⟨⟨outcome, b'⟩, first, pulled, rfl, hfirst, hpulled⟩ :=
      trace_ofTotal_bind log b.next _ _ ht
    obtain ⟨pull, _, rest, rfl, hpull, hrest⟩ := ok_of_trace_bind hpulled
    obtain ⟨rfl, rfl⟩ := ok_of_trace_ofExcept hpull
    rw [List.nil_append, List.filterMap_append]
    refine fun hnil => absurd (List.append_eq_nil_iff.1 hnil).2 ?_
    rcases b.answers_of_trace_next hfirst henabled htold with
      ⟨batch, rfl, htold', henabled', hcolumn⟩ | rfl | ⟨rfl, hnone⟩
    · obtain ⟨_, written, last, rfl, hwritten, hlast⟩ := ok_of_trace_bind hrest
      have hlater := ih deleted b' last hlast henabled' htold' (by rwa [hcolumn])
      rw [List.filterMap_append]
      exact fun hnil => hlater (List.append_eq_nil_iff.1 hnil).2
    · obtain ⟨n, asked, last, rfl, hasked, hlast⟩ := ok_of_trace_bind hrest
      obtain ⟨query, records, _, -, hfetched, -⟩ := trace_fetchDeleted b'.totalRows asked n hasked
      rw [List.filterMap_append, hfetched]
      exact List.cons_ne_nil _ _
    · obtain ⟨-, heq⟩ := (trace_pure_iff rest _ _).1 hrest
      cases heq
      obtain ⟨column, hcolumn, hsame⟩ := hmarker
      exact absurd hsame (hnone column hcolumn)

/-- The job of an extraction is created with the operation that is set. -/
theorem created_of_trace {log : List (Exchange services)} {result : TaskResult}
    (ht : Trace (extract c e) log (.ok result)) :
    ∃ chunkSize created, ⟨.createJob ⟨e.name, c.settings.operation, .parallel, .csv, chunkSize⟩,
      .ok created⟩ ∈ log := by
  obtain ⟨begun, started, rest, rfl, hstarted, hrest⟩ := ok_of_trace_bind ht
  obtain ⟨ps, _, rest₁, rfl, hps, h₁⟩ := ok_of_trace_bind hrest
  obtain ⟨watermark, looked, rest₂, rfl, hlooked, h₂⟩ := ok_of_trace_bind h₁
  obtain ⟨query, _, rest₃, rfl, hquery, h₃⟩ := ok_of_trace_bind h₂
  obtain ⟨countQuery, _, rest₄, rfl, hcount, h₄⟩ := ok_of_trace_bind h₃
  obtain ⟨p, preparing, rest₅, rfl, hprepared, h₅⟩ := ok_of_trace_bind h₄
  obtain ⟨⟨chunked, known⟩, counts, rest₆, rfl, hcounts, h₆⟩ := ok_of_trace_bind hprepared
  obtain ⟨created, asked, rest₇, rfl, hasked, h₇⟩ := ok_of_trace_bind h₆
  rw [(trace_request_iff asked (.createJob _) (.ok created)).1 hasked]
  refine ⟨if chunked then some c.settings.chunkSize else none, created, ?_⟩
  simp

theorem mem_of_fetching {log : List (Exchange services)} {query : String}
    {reply : Except ExtractError (List Record)} (h : (query, reply) ∈ log.filterMap fetching?) :
    ⟨.fetchRecords query, reply⟩ ∈ log := by
  obtain ⟨x, hx, hfetching⟩ := List.mem_filterMap.1 h
  unfold fetching? at hfetching
  split at hfetching
  · cases hfetching
    exact hx
  · cases hfetching

/-- The query with which the deleted rows are fetched. -/
def MarkerQuery (c : RunContext) (e : EntityOptions) (query : String) : Prop :=
  ∃ ps, predicates e = .ok ps ∧
    Query.compose e.baseQuery ps (some c.settings.softDeleteColumn) = .ok query

/-- The rows of an entity on a service. -/
structure Source where
  live : List Record
  deleted : List Record

/-- What a job of an operation returns. -/
def Source.returned (s : Source) : Operation → List Record
  | .query => s.live
  | .queryAll => s.live ++ s.deleted

/-- The rows that a job returns, and the deleted rows behind them. -/
theorem Source.perm_of_returned (s : Source) (settings : Settings) {bulk deleted : List Record}
    (hbulk : bulk.Perm (s.returned settings.operation)) (hdeleted : deleted.Perm s.deleted) :
    (bulk ++ deleted).Perm
        (s.live ++ s.deleted ++ if settings.useQueryAll then s.deleted else []) ∧
      ((bulk ++ deleted).Perm (s.live ++ s.deleted) ↔
        settings.useQueryAll = false ∨ s.deleted = []) := by
  have hboth := hbulk.append hdeleted
  rw [Settings.operation] at hboth
  cases hall : settings.useQueryAll with
  | false =>
    rw [hall] at hboth
    have hgiven : (bulk ++ deleted).Perm (s.live ++ s.deleted) := hboth
    exact ⟨by simpa using hgiven, iff_of_true hgiven (.inl rfl)⟩
  | true =>
    rw [hall] at hboth
    have hgiven : (bulk ++ deleted).Perm (s.live ++ s.deleted ++ s.deleted) := hboth
    refine ⟨hgiven, fun honce => .inr ?_, fun hsingle => ?_⟩
    · -- what is given once more would have to be nothing
      simpa using (hgiven.symm.trans honce).length_eq
    · obtain hfalse | hnone := hsingle
      · cases hfalse
      · simpa [hnone] using hgiven

/-- A service with these rows has answered: each open of a result gives its text, all of it or cut
anywhere but where rows are lost (`Page.Faithful`), the results of a job hold the rows that its
operation returns, in any order, and the query for the deleted rows gives just these. -/
structure Source.Answers (s : Source) (c : RunContext) (e : EntityOptions)
    (contents : ResultReference → String) (log : List (Exchange services)) : Prop where
  streams : Serving (fun ref page => page.Faithful (contents ref)) log
  job : ∀ request created (lists : List (List ResultReference)),
    ⟨.createJob request, .ok created⟩ ∈ log →
    log.filterMap listing? = lists.map .ok →
    (lists.flatten.flatMap fun ref => Csv.records (contents ref)).Perm
      (s.returned request.operation)
  deleted : ∀ query records, MarkerQuery c e query → ⟨.fetchRecords query, .ok records⟩ ∈ log →
    records.Perm s.deleted

/-- Where the deleted rows are due, they are given to the sink behind the rows of the job, also if
these contain them. So each row is given once exactly if the job does not run the extended operation
or no row is deleted. -/
theorem delivered_by_operation (c : RunContext) (e : EntityOptions) (s : Source)
    (contents : ResultReference → String) (log : List (Exchange services)) (result : TaskResult)
    (ht : Trace (extract c e) log (.ok result)) (hsource : s.Answers c e contents log)
    (henabled : c.settings.softDeleteDisabled = false) :
    ∃ p during after batches, Delivers c e log result p ∧
      Fills c e log (p.bulk ++ p.deleted) p.summary during after batches ∧
      ((∃ column ∈ p.columns e, Text.sameFolded column c.settings.softDeleteColumn) →
        (p.bulk ++ p.deleted).Perm
          (s.live ++ s.deleted ++ if c.settings.useQueryAll then s.deleted else []) ∧
        ((p.bulk ++ p.deleted).Perm (s.live ++ s.deleted) ↔
          c.settings.useQueryAll = false ∨ s.deleted = [])) := by
  obtain ⟨ps, job, streamed, summary, before, streaming, closing, after, hphases⟩ :=
    phases_of_trace ht
  obtain ⟨events, reader, batches, fetched, hstreams⟩ :=
    trace_stream 0 c.patience _ (Nat.le_max_right _ 1) streaming streamed hphases.streams
  obtain ⟨lists, -, hdelivers, hfills⟩ := hphases.delivers hstreams
  refine ⟨_, _, after, batches, hdelivers, hfills, fun hmarker => ?_⟩
  -- the results hold what the operation returns, and all of it is delivered
  obtain ⟨id, drained, -, hdrained, hrun⟩ := hdelivers.read
  have hbulk := hrun.rows_eq hdrained fun job ref reply hmem =>
    hsource.streams job ref reply (List.mem_filter.1 hmem).1
  obtain ⟨chunkSize, created, hcreated⟩ := created_of_trace ht
  have hreturned := hsource.job _ created lists hcreated hdelivers.listed
  rw [← hbulk] at hreturned
  -- the deleted rows are due, so they were fetched
  have hcolumns : streamed.columns = e.columns.getD ((lastHeader events).getD []) := by
    rw [hstreams.columns, hstreams.run.header hstreams.drained]
    simp [Batcher.start, ResultReader.start]
  have hasked := fetches_of_trace_stream 0 c.patience _ streaming streamed hphases.streams henabled
    rfl (by rwa [hcolumns])
  obtain ⟨⟨query, records⟩, rfl⟩ : ∃ f, fetched = some f := by
    cases fetched with
    | none => exact absurd hstreams.fetches hasked
    | some f => exact ⟨f, rfl⟩
  have hdeleted : records.Perm s.deleted :=
    hsource.deleted query records ⟨ps, hphases.predicates, (hstreams.query _ rfl).2⟩
      (mem_of_fetching (by rw [hdelivers.fetches]; simp))
  exact s.perm_of_returned c.settings hreturned hdeleted

/-- A host on which a live row and a deleted one are staged as the results of jobs, and the deleted
one beside them. -/
def queriedAllHost : Local.Host :=
  ({}, ⟨⟨[(["in"], .directory), (["Account", "in"], .directory),
      (["p.csv", "Account", "in"],
        .file (Utf8.encodeString "Id,IsDeleted\n1,false\n2,true\n")),
      (["deleted", "Account", "in"], .directory),
      (["p.csv", "deleted", "Account", "in"], .file (Utf8.encodeString "Id,IsDeleted\n2,true\n"))],
    []⟩, ⟨2024, 1, 1, 0, 0, 0⟩, []⟩)

/-- A run of the extended operation. -/
def queriedAllRun : RunContext :=
  { Local.stagedRun with settings := { batchSize := 1, useQueryAll := true } }

/-- An entity with the marker among its columns. -/
def markedEntity : EntityOptions := { name := "Account", columns := some ["Id", "IsDeleted"] }

def liveAndDeleted : Source :=
  ⟨[.ofFields ["Id", "IsDeleted"] ["1", "false"]], [.ofFields ["Id", "IsDeleted"] ["2", "true"]]⟩

/-- The exchanges of the run. -/
def queriedAllLog : List (Exchange services) :=
  (Program.play (Local.respond Local.stagedPlaces) (extract queriedAllRun markedEntity)
    queriedAllHost).1

theorem exists_trace_queriedAll :
    ∃ result, Trace (extract queriedAllRun markedEntity) queriedAllLog (.ok result) := by
  obtain ⟨result, ht, -⟩ := Program.trace_play_ok (Local.respond Local.stagedPlaces)
    (extract queriedAllRun markedEntity) queriedAllHost (·.rows) 2 (by decide +kernel)
  exact ⟨result, ht⟩

/-- The page that is answered to the open of a result, if it is one. -/
def opening? : Exchange services → Option (Option Page)
  | ⟨.openResult _ _, .ok page⟩ => some (some page)
  | ⟨.openResult _ _, .error _⟩ => some none
  | _ => none

theorem queriedAllLog_exchanges :
    (queriedAllLog.filterMap created?).map (·.1.operation) = [.queryAll] ∧
      (queriedAllLog.filterMap listing?).map (·.toOption.map List.length) = [some 1] ∧
      queriedAllLog.filterMap opening? = [some (.whole "Id,IsDeleted\n1,false\n2,true\n")] ∧
      (queriedAllLog.filterMap fetching?).map (·.2.toOption) = [some liveAndDeleted.deleted] ∧
      (queriedAllLog.filterMap writing?).flatMap (·.1.records) =
        liveAndDeleted.live ++ liveAndDeleted.deleted ++ liveAndDeleted.deleted := by
  decide +kernel

theorem answers_queriedAll : liveAndDeleted.Answers queriedAllRun markedEntity
    (fun _ => "Id,IsDeleted\n1,false\n2,true\n") queriedAllLog := by
  obtain ⟨hcreated, hlisted, hopened, hfetched, -⟩ := queriedAllLog_exchanges
  refine ⟨fun job ref reply hmem => ?_, fun request created lists hmem hlists => ?_,
    fun query records _ hmem => ?_⟩
  · cases reply with
    | error fault =>
      have hmem' := List.mem_filterMap.2 ⟨_, hmem, (rfl : opening? _ = some none)⟩
      rw [hopened] at hmem'
      simp at hmem'
    | ok page =>
      have hmem' := List.mem_filterMap.2 ⟨_, hmem, (rfl : opening? _ = some (some page))⟩
      rw [hopened] at hmem'
      obtain rfl : page = .whole _ := by simpa using hmem'
      exact ⟨_, rfl, .inl rfl, fun hbreaks => absurd rfl hbreaks.1⟩
  · have hmem' := List.mem_map_of_mem (f := (·.1.operation))
      (List.mem_filterMap.2 ⟨_, hmem, (rfl : created? _ = some (request, created))⟩)
    have hoperation : request.operation = .queryAll := List.mem_singleton.1 (hcreated ▸ hmem')
    rw [hlists] at hlisted
    obtain ⟨ref, rfl⟩ : ∃ ref, lists = [[ref]] := by
      rcases lists with _ | ⟨list, _ | ⟨other, lists⟩⟩ <;> simp [Except.toOption] at hlisted
      obtain ⟨ref, rfl⟩ := List.length_eq_one_iff.1 hlisted
      exact ⟨ref, rfl⟩
    have hrecords : Csv.records "Id,IsDeleted\n1,false\n2,true\n" =
        liveAndDeleted.live ++ liveAndDeleted.deleted := by
      decide +kernel
    rw [hoperation]
    simp [hrecords, Source.returned]
  · have hmem' := List.mem_map_of_mem (f := (·.2.toOption))
      (List.mem_filterMap.2 ⟨_, hmem, (rfl : fetching? _ = some (query, .ok records))⟩)
    rw [hfetched, List.mem_singleton] at hmem'
    exact .of_eq (Option.some.inj hmem')

/-- The job of the extended operation has returned the deleted row, and it is fetched and given to
the sink once more. -/
theorem delivered_by_queryAll :
    ∃ result, Trace (extract queriedAllRun markedEntity) queriedAllLog (.ok result) ∧
      liveAndDeleted.Answers queriedAllRun markedEntity
        (fun _ => "Id,IsDeleted\n1,false\n2,true\n") queriedAllLog ∧
      queriedAllRun.settings.softDeleteDisabled = false ∧
      ∃ p during after batches, Delivers queriedAllRun markedEntity queriedAllLog result p ∧
        Fills queriedAllRun markedEntity queriedAllLog (p.bulk ++ p.deleted) p.summary during after
          batches ∧
        (∃ column ∈ p.columns markedEntity, Text.sameFolded column "IsDeleted") ∧
        (p.bulk ++ p.deleted).Perm
          (liveAndDeleted.live ++ liveAndDeleted.deleted ++ liveAndDeleted.deleted) ∧
        ¬ (p.bulk ++ p.deleted).Perm (liveAndDeleted.live ++ liveAndDeleted.deleted) := by
  obtain ⟨result, ht⟩ := exists_trace_queriedAll
  obtain ⟨p, during, after, batches, hdelivers, hfills, hgiven⟩ :=
    delivered_by_operation queriedAllRun markedEntity liveAndDeleted _ queriedAllLog result ht
      answers_queriedAll rfl
  have hmarker : ∃ column ∈ p.columns markedEntity, Text.sameFolded column "IsDeleted" :=
    ⟨"IsDeleted", List.mem_cons_of_mem _ List.mem_cons_self, by decide⟩
  obtain ⟨hperm, honce⟩ := hgiven hmarker
  refine ⟨result, ht, answers_queriedAll, rfl, p, during, after, batches, hdelivers, hfills,
    hmarker, hperm, fun hsame => ?_⟩
  rcases honce.1 hsame with hall | hnone
  · cases hall
  · cases hnone

/-- The sink gets a deleted row twice, as rows of the job and of the query for the deleted ones. -/
theorem deleted_row_given_twice :
    ∃ result, Trace (extract queriedAllRun markedEntity) queriedAllLog (.ok result) ∧
      liveAndDeleted.Answers queriedAllRun markedEntity
        (fun _ => "Id,IsDeleted\n1,false\n2,true\n") queriedAllLog ∧
      queriedAllRun.settings.softDeleteDisabled = false ∧
      "IsDeleted" ∈ markedEntity.columns.getD [] ∧
      ¬ ((queriedAllLog.filterMap writing?).flatMap (·.1.records)).Perm
        (liveAndDeleted.live ++ liveAndDeleted.deleted) := by
  obtain ⟨result, ht⟩ := exists_trace_queriedAll
  refine ⟨result, ht, answers_queriedAll, rfl, by decide, ?_⟩
  rw [queriedAllLog_exchanges.2.2.2.2]
  exact fun hsame => absurd hsame.length_eq (by decide)

end Extraction

end Harvest
