import Harvest.Proofs.Extraction.Causes
import Harvest.Proofs.Extraction.Deletions
import Harvest.Proofs.Query.Rendering

/-!
# The query of the deleted rows

The query of an entity is composed before its job is created, the one of its deleted rows only when
all rows of the job are streamed. The second has one condition more, which can be added exactly if
the first, without its limit, is open for conditions (`Query.marker_composes_iff`). So if it is, no
entity fails for want of this query once its sink is open, and if it is not, every entity fails of
which the deleted rows are due (`Extraction.late_query_fails_iff`).
-/

namespace Harvest

open Program (Trace Exchange Asks)
open Text

namespace Query

theorem trimmed_markerCondition_ne (column : String) : trimmed (markerCondition column) ≠ "" := by
  intro hempty
  obtain ⟨before, after, htext, hbefore, hafter⟩ :=
    exists_blanks_trim (markerCondition column).toList
  have htrim : trim (markerCondition column).toList = [] := by
    rw [← String.toList_ofList (l := trim _), ← trimmed, hempty]
    rfl
  rw [htrim, List.append_nil] at htext
  have hmem : '=' ∈ (markerCondition column).toList := by simp [markerCondition]
  rw [htext] at hmem
  have hblank : isBlank '=' = true := (List.mem_append.1 hmem).elim (hbefore _) (hafter _)
  exact absurd hblank (by decide)

theorem conditions_marker (predicates : List String) (column : String) :
    conditions predicates (some column) =
      nonBlank predicates ++ [trimmed (markerCondition column)] := by
  have hmarker := trimmed_markerCondition_ne column
  simp [conditions, nonBlank, hmarker]

/-- One condition more can be added where the text with the others is open. -/
theorem extends_append_iff {query : String} {conditions : List String} (condition : String)
    (h : Extends query conditions) :
    Extends query (conditions ++ [condition]) ↔ Open (query ++ rendering query conditions) := by
  rw [Extends, List.dropLast_concat, Open,
    or_iff_right (List.append_ne_nil_of_right_ne_nil _ (by simp))]
  refine and_congr_left fun _ => ?_
  rcases h with rfl | ⟨hfrom, -⟩
  · rw [rendering_nil, String.append_empty]
  · exact iff_of_true hfrom (hasClause_append _ _ _ hfrom)

/-- When the query of the deleted rows can be composed where the one of all rows can. -/
theorem marker_composes_iff {base q : String} {predicates : List String}
    (h : compose base predicates none = .ok q) :
    ∃ body, q = body ++ limitClause base ∧
      ∀ column, (∃ q', compose base predicates (some column) = .ok q') ↔ Open body := by
  obtain ⟨hextends, rfl⟩ := (compose_iff_extends base predicates none q).1 h
  have hconditions : conditions predicates none = nonBlank predicates := by simp [conditions]
  rw [hconditions] at hextends ⊢
  refine ⟨_, rfl, fun column => ?_⟩
  rw [← extends_append_iff (trimmed (markerCondition column)) hextends, ← conditions_marker]
  simp only [compose_iff_extends, exists_and_left, exists_eq, and_true]

end Query

namespace Extraction

section Opened

variable {α β : Type} {kinds : List Request.Kind} {x : Engine α} {f : α → Engine β}
  {entity run : String} {log : List (Exchange services)} {result : Except ExtractError β}

/-- What opens no sink is behind it where one is opened. -/
theorem goes_on_of_opened (hx : Asks kinds x) (hkinds : .openSink entity run ∉ kinds)
    (ht : Trace (x >>= f : Engine β) log result)
    (hopened : ⟨.openSink entity run, .ok ()⟩ ∈ log) :
    ∃ a first rest, log = first ++ rest ∧ Trace x first (.ok a) ∧ Trace (f a) rest result ∧
      ⟨.openSink entity run, .ok ()⟩ ∈ rest := by
  have hnot {first : List (Exchange services)} {outcome : Except ExtractError α}
      (hfirst : Trace x first outcome) : ⟨.openSink entity run, .ok ()⟩ ∉ first :=
    fun hmem => hkinds (hx.of_trace hfirst _ hmem)
  rcases (Engine.trace_bind_iff log x f result).1 ht with
    ⟨e, hfirst, -⟩ | ⟨a, first, rest, rfl, hfirst, hrest⟩
  · exact absurd hopened (hnot hfirst)
  · exact ⟨a, first, rest, rfl, hfirst, hrest,
      (List.mem_append.1 hopened).resolve_left (hnot hfirst)⟩

end Opened

variable {c : RunContext} {e : EntityOptions} {ps : List String}
  {log : List (Exchange services)}

/-- Once its sink is open, only a service refuses a query of an entity, if the one for the deleted
rows can be composed. -/
theorem refused_of_opened {query : String} {fault : QueryFault} (hps : predicates e = .ok ps)
    (hquery : Query.compose e.baseQuery ps (some c.settings.softDeleteColumn) = .ok query)
    (ht : Trace (extract c e) log (.error (.query fault)))
    (hopened : ⟨.openSink e.name c.run, .ok ()⟩ ∈ log) :
    ∃ x ∈ log, Refuses (.query fault) x := by
  have hclock : Asks [.time] Engine.clock := .ofTotal (.request _ rfl)
  obtain ⟨begun, started, rest, rfl, -, h, hopened⟩ := goes_on_of_opened hclock (by simp) ht hopened
  obtain ⟨ps', _, rest₁, rfl, hps', h, hopened⟩ :=
    goes_on_of_opened (asks_composed _ : Asks [] _) (by simp) h hopened
  obtain rfl : ps' = ps := Except.ok.inj ((ok_of_trace_composed hps').2.symm.trans hps)
  obtain ⟨watermark, looked, rest₂, rfl, -, h, hopened⟩ :=
    goes_on_of_opened (asks_watermarkOf e ps') (by simp) h hopened
  obtain ⟨_, _, rest₃, rfl, -, h, hopened⟩ :=
    goes_on_of_opened (asks_composed _ : Asks [] _) (by simp) h hopened
  obtain ⟨_, _, rest₄, rfl, -, h, hopened⟩ :=
    goes_on_of_opened (asks_composed _ : Asks [] _) (by simp) h hopened
  obtain ⟨p, preparing, rest₅, rfl, -, h, hopened⟩ :=
    goes_on_of_opened (JobPlan.asks_prepare _ _ _) (by simp) h hopened
  obtain ⟨x, hx, hrefuses⟩ : ∃ x ∈ rest₅, Refuses (.query fault) x := by
    refine Engine.Raises.refuses ?_ h
    exact .andThen (raises_collect c e hquery p) fun streamed =>
      .andThen (.onError (.request refused)) fun summary =>
        .andThen (raises_register c e summary streamed.columns) fun _ =>
          .andThen raises_clock fun _ => .pure _
  exact ⟨x, by simp [hx], hrefuses⟩

/-- A successful extraction has composed the query of the deleted rows, if they were due. -/
theorem composed_of_due {result : TaskResult} (ht : Trace (extract c e) log (.ok result))
    (henabled : c.settings.softDeleteDisabled = false) :
    ∃ p, Delivers c e log result p ∧
      ((∃ column ∈ p.columns e, Text.sameFolded column c.settings.softDeleteColumn) →
        ∃ ps query, predicates e = .ok ps ∧
          Query.compose e.baseQuery ps (some c.settings.softDeleteColumn) = .ok query) := by
  obtain ⟨ps, job, streamed, summary, before, streaming, closing, after, hphases⟩ :=
    phases_of_trace ht
  obtain ⟨events, reader, batches, fetched, hstreams⟩ :=
    trace_stream 0 c.patience _ (Nat.le_max_right _ 1) streaming streamed hphases.streams
  obtain ⟨lists, -, hdelivers, -⟩ := hphases.delivers hstreams
  refine ⟨_, hdelivers, fun hmarker => ?_⟩
  have hcolumns : streamed.columns = e.columns.getD ((ResultReader.lastHeader events).getD []) := by
    rw [hstreams.columns, hstreams.run.header hstreams.drained]
    simp [Batcher.start, ResultReader.start]
  have hasked := fetches_of_trace_stream 0 c.patience _ streaming streamed hphases.streams henabled
    rfl (by rwa [hcolumns])
  cases fetched with
  | none => exact absurd hstreams.fetches hasked
  | some f => exact ⟨ps, f.1, hphases.predicates, (hstreams.query f rfl).2⟩

/-- Where the query of all rows can be composed, the one of the deleted rows can be exactly if the
first, without its limit, is open. If it is, an entity of which the sink is open fails for a query
only if a service refuses one. If it is not, no entity succeeds of which the deleted rows are
due. -/
theorem late_query_fails_iff (base : String) (ps : List String) (q : String)
    (h : Query.compose base ps none = .ok q) :
    ∃ body, q = body ++ Query.limitClause base ∧
      (∀ column, (∃ q', Query.compose base ps (some column) = .ok q') ↔ Query.Open body) ∧
      ∀ (c : RunContext) (e : EntityOptions), e.baseQuery = base → predicates e = .ok ps →
        (Query.Open body → ∀ log fault, Trace (extract c e) log (.error (.query fault)) →
          ⟨.openSink e.name c.run, .ok ()⟩ ∈ log → ∃ x ∈ log, Refuses (.query fault) x) ∧
        (¬ Query.Open body → ∀ log result, Trace (extract c e) log (.ok result) →
          c.settings.softDeleteDisabled = false → ∃ p, Delivers c e log result p ∧
            ∀ column ∈ p.columns e, ¬ Text.sameFolded column c.settings.softDeleteColumn) := by
  obtain ⟨body, hq, hcomposes⟩ := Query.marker_composes_iff h
  refine ⟨body, hq, hcomposes, ?_⟩
  rintro c e rfl hps
  constructor
  · intro hopen log fault ht hopened
    obtain ⟨query, hquery⟩ := (hcomposes c.settings.softDeleteColumn).2 hopen
    exact refused_of_opened hps hquery ht hopened
  · intro hclosed log result ht henabled
    obtain ⟨p, hdelivers, hdue⟩ := composed_of_due ht henabled
    refine ⟨p, hdelivers, fun column hcolumn hsame => hclosed ?_⟩
    obtain ⟨ps', query, hps', hquery⟩ := hdue ⟨column, hcolumn, hsame⟩
    cases hps.symm.trans hps'
    exact (hcomposes c.settings.softDeleteColumn).1 ⟨query, hquery⟩

/-- A query that is ordered. -/
def orderedQuery : String := "SELECT Id, IsDeleted FROM Account ORDER BY Id"

/-- An entity with the marker of deleted rows among its columns. -/
def orderedEntity : EntityOptions where
  name := "Account"
  query := some orderedQuery
  columns := some ["Id", "IsDeleted"]

theorem late_query_fails_iff_ordered :
    (∀ column, ¬ ∃ q, Query.compose orderedQuery [] (some column) = .ok q) ∧
      ∀ log result, ¬ Trace (extract Local.stagedRun orderedEntity) log (.ok result) := by
  obtain ⟨body, hbody, hcomposes, hruns⟩ :=
    late_query_fails_iff orderedQuery [] orderedQuery (Query.compose_nil_none orderedQuery)
  have hlimit : Query.limitClause orderedQuery = "" := by decide
  rw [hlimit, String.append_empty] at hbody
  have hclosed : ¬ Query.Open body := by
    rw [← hbody]
    exact fun hopen => absurd (hopen.2 "by" (by decide)) (by decide)
  refine ⟨fun column hcomposed => hclosed ((hcomposes column).1 hcomposed), fun log result ht => ?_⟩
  obtain ⟨p, -, hnone⟩ :=
    (hruns Local.stagedRun orderedEntity rfl rfl).2 hclosed log result ht rfl
  exact hnone "IsDeleted" (List.mem_cons_of_mem _ List.mem_cons_self) (by decide)

/-- The ordered query is composed as it is, but no condition may follow it. So all rows are streamed
to the sink, and then the entity fails, though no service has refused anything. -/
theorem ordered_query_refused_late :
    Query.compose orderedQuery [] none = .ok orderedQuery ∧
      Query.compose orderedQuery [] (some "IsDeleted") = .error (.closed "by" orderedQuery) ∧
      ∃ log result, Trace (extract Local.stagedRun orderedEntity) log result ∧
        error? result = some (.query (.closed "by" orderedQuery)) ∧
        log.filterMap writing? = [(⟨[.ofFields ["Id", "IsDeleted"] ["1"]], 1⟩, .ok ()),
          (⟨[.ofFields ["Id", "IsDeleted"] ["2"]], 2⟩, .ok ())] := by
  have ht := Program.trace_play (Local.respond Local.stagedPlaces)
    (extract Local.stagedRun orderedEntity) Local.stagedHost
  refine ⟨Query.compose_nil_none orderedQuery, ?_, _, _, ht, ?_, ?_⟩
  · decide +kernel
  · decide +kernel
  · decide +kernel

end Extraction

end Harvest
