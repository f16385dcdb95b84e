import Harvest.Proofs.Local.Alone
import Harvest.Run
import Mathlib.Algebra.GroupWithZero.Nat
import Mathlib.Data.List.FinRange
import Mathlib.Data.List.Nodup

/-!
# The report matches the files

A run reads the clock, extracts its entities at the same time and then saves its report
(`Run.Runs`); to extract them one after the other is one way to do so (`Run.runs_of_execute`). Each
entity that succeeds leaves the file of just the rows that its result counts, as long as no two of
them have one place for their files. The report lists, counts and sums up the results
(`Run.report_matches_files`).
-/

namespace Harvest

open Program (Trace Exchange)
open Engine
open Disk (Place)
open Disk.Memory (KeepsFile lead)
open Local (Alone Crew Host Places State Stored outputPlace)

section Totals

theorem Report.total_eq_sum (f : TaskResult → Nat) (results : List TaskResult) :
    total f results = (results.map f).sum := by
  induction results with
  | nil => rfl
  | cons result results ih => rw [total, ih, List.map_cons, List.sum_cons]

/-- If each result is a success or a failure, the failures are those that are no success. -/
theorem Report.failed_eq_countP (r : Report)
    (h : ∀ result ∈ r.results,
      result.status = TaskResult.successStatus ∨ result.status = TaskResult.failedStatus) :
    r.failed = r.results.countP (·.status = TaskResult.failedStatus) := by
  rw [failed, success, r.results.length_eq_countP_add_countP TaskResult.isSuccess,
    Nat.add_sub_cancel_left]
  refine List.countP_congr fun result hresult => ?_
  rcases h result hresult with hs | hs
  · simp [TaskResult.isSuccess, hs, TaskResult.successStatus, TaskResult.failedStatus]
  · simp [TaskResult.isSuccess, hs, TaskResult.successStatus, TaskResult.failedStatus]

/-- The document of a result, in a report. -/
def TaskResult.detail (r : TaskResult) : Json.Value :=
  .object [("bytes", .natural r.bytes), ("duration", .real r.duration), ("entity", .text r.entity),
    ("error", .optional .text r.error), ("high_watermark", .optional .integer r.highWatermark),
    ("job_id", .optional .text r.job), ("rows", .natural r.rows),
    ("soft_deleted_rows", .natural r.softDeletedRows), ("status", .text r.status)]

/-- The document of a report: the results one by one, how many of them succeeded and failed, and the
rows and bytes of all of them. -/
def Report.document (r : Report) : Json.Value :=
  .object [("details", .array (r.results.map TaskResult.detail)),
    ("summary", .object [
      ("failed", .natural (r.results.countP (·.status = "FAILED"))),
      ("operation", .text r.operation.name), ("run_id", .text r.run),
      ("success", .natural (r.results.countP (·.status = "SUCCESS"))),
      ("total_bytes", .natural (r.results.map (·.bytes)).sum),
      ("total_duration_seconds", .real r.duration), ("total_entities", .natural r.results.length),
      ("total_rows", .natural (r.results.map fun t => t.rows + t.softDeletedRows).sum)])]

theorem TaskResult.sortMembers_members (r : TaskResult) :
    Json.Value.object (sortMembers r.members) = r.detail := by
  simp [TaskResult.members, TaskResult.detail, sortMembers, List.mergeSort,
    List.MergeSort.Internal.splitInTwo]

theorem sortMembers_summary
    (run operation entities success failed rows bytes seconds : Json.Value) :
    sortMembers [("run_id", run), ("operation", operation), ("total_entities", entities),
        ("success", success), ("failed", failed), ("total_rows", rows), ("total_bytes", bytes),
        ("total_duration_seconds", seconds)] =
      [("failed", failed), ("operation", operation), ("run_id", run), ("success", success),
        ("total_bytes", bytes), ("total_duration_seconds", seconds), ("total_entities", entities),
        ("total_rows", rows)] := by
  simp [sortMembers, List.mergeSort, List.MergeSort.Internal.splitInTwo]

theorem sortMembers_report (summary details : Json.Value) :
    sortMembers [("summary", summary), ("details", details)] =
      [("details", details), ("summary", summary)] := by
  simp [sortMembers, List.mergeSort, List.MergeSort.Internal.splitInTwo]

/-- What is written of a report counts and sums up its results. -/
theorem Report.encode_eq_document (r : Report)
    (h : ∀ result ∈ r.results,
      result.status = TaskResult.successStatus ∨ result.status = TaskResult.failedStatus) :
    r.encode = r.document := by
  have hsuccess : r.success = r.results.countP (·.status = "SUCCESS") :=
    List.countP_congr fun result _ => by simp [TaskResult.isSuccess, TaskResult.successStatus]
  have hrows : r.totalRows = (r.results.map fun t => t.rows + t.softDeletedRows).sum :=
    total_eq_sum _ _
  have hbytes : r.totalBytes = (r.results.map (·.bytes)).sum := total_eq_sum _ _
  have hdetails : r.results.map (fun t => Json.Value.object (sortMembers t.members)) =
      r.results.map TaskResult.detail := List.map_congr_left fun t _ => t.sortMembers_members
  rw [encode, sortMembers_summary, sortMembers_report, hsuccess, r.failed_eq_countP h, hrows,
    hbytes, hdetails]
  rfl

end Totals

namespace Run

/-- An entity of a run, the exchanges for it, and its result. -/
structure Part where
  entity : EntityOptions
  log : List (Exchange services)
  result : TaskResult

/-- The entity was extracted: the file in its place holds a row for each row of its results, in
order, and behind them one for each deleted row that was fetched; a reader of the file is shown just
these rows, and the result counts them and the bytes of the file. -/
structure Filed (c : RunContext) (places : Places) (host : Host) (part : Part) (p : Passage) :
    Prop where
  delivers : Extraction.Delivers c part.entity part.log part.result p
  stored : ∃ bytes,
    Stored (outputPlace places host.2.disk.home part.entity.name c.run) bytes host ∧
    Sink.Encodes places.compressed bytes (Sink.table (p.bulk ++ p.deleted)) ∧
    Sink.Shows places.compressed bytes ((Sink.table (p.bulk ++ p.deleted)).map Csv.shown) ∧
    bytes.length = part.result.bytes
  rows : (Sink.table (p.bulk ++ p.deleted)).tail.length =
    part.result.rows + part.result.softDeletedRows
  summary : p.summary.rows = part.result.rows + part.result.softDeletedRows

/-- The entity was not extracted: no rows and no bytes are told of. -/
structure Failed (result : TaskResult) : Prop where
  status : result.status = TaskResult.failedStatus
  rows : result.rows = 0
  softDeletedRows : result.softDeletedRows = 0
  bytes : result.bytes = 0
  error : result.error.isSome

/-- What the result of an entity tells is so. -/
def Matches (c : RunContext) (places : Places) (host : Host) (part : Part) : Prop :=
  part.result.entity = part.entity.name ∧
    ((∃ p, Filed c places host part p) ∨ Failed part.result)

variable {c : RunContext} {places : Places} {e : EntityOptions}
  {log : List (Exchange services)} {result : TaskResult}

theorem Matches.status {host : Host} {part : Part} (h : Matches c places host part) :
    part.result.status = TaskResult.successStatus ∨
      part.result.status = TaskResult.failedStatus := by
  obtain ⟨-, ⟨p, hfiled⟩ | hfailed⟩ := h
  · exact .inl hfiled.delivers.success.1
  · exact .inr hfailed.status

/-- What matches stays so while the file is kept. -/
theorem Matches.keeps {state : State} {m m' : Machine.Memory} {part : Part}
    (h : Matches c places (state, m) part)
    (hkeeps : KeepsFile (outputPlace places m.disk.home part.entity.name c.run) m.disk m'.disk) :
    Matches c places (state, m') part := by
  obtain ⟨hentity, ⟨p, hfiled⟩ | hfailed⟩ := h
  · obtain ⟨bytes, hstored, hbytes⟩ := hfiled.stored
    have hstored' := hstored.keeps hkeeps
    rw [← hkeeps.home] at hstored'
    exact ⟨hentity, .inl ⟨p, { hfiled with stored := ⟨bytes, hstored', hbytes⟩ }⟩⟩
  · exact ⟨hentity, .inr hfailed⟩

/-- What was delivered is filed, if it is stored and the sink has counted it. -/
theorem Filed.of_stored {host : Host} {p : Passage}
    (hdelivers : Extraction.Delivers c e log result p)
    (hstored : Stored (outputPlace places host.2.disk.home e.name c.run)
      (Sink.fileOf places.compressed (p.bulk ++ p.deleted)) host)
    (hrows : p.summary.rows = (p.bulk ++ p.deleted).length)
    (hbytes : p.summary.bytes = (Sink.fileOf places.compressed (p.bulk ++ p.deleted)).length) :
    Filed c places host ⟨e, log, result⟩ p := by
  have hcount : (p.bulk ++ p.deleted).length = result.rows + result.softDeletedRows := by
    rw [List.length_append, hdelivers.rows, hdelivers.softDeletedRows]
  have hencodes := Sink.encodes_fileOf places.compressed (p.bulk ++ p.deleted)
  refine ⟨hdelivers, ⟨_, hstored, hencodes, hencodes.shows, ?_⟩, ?_, ?_⟩
  · rw [hdelivers.bytes, hbytes]
  · rw [Sink.length_tail_table, hcount]
  · rw [hrows, hcount]

theorem asks_resultOf (c : RunContext) (e : EntityOptions) :
    (resultOf c e).Asks [.tell, .create, .status, .close, .batch, .results, .query, .time,
      .openSink e.name c.run, .stream, .fetch, .write, .finish, .drop, .catalog] := by
  refine .bind ((Extraction.asks_extract c e).mono (by simp)) fun result => ?_
  cases result with
  | ok result => trivial
  | error error => exact .bind (.request _ rfl) fun _ => trivial

theorem opens_resultOf : (resultOf c e).Within
    (Local.Opens places (Sink.start places.output e.name c.run places.compressed).file)
    fun _ => True := by
  refine .of_asks (asks_resultOf c e) fun r hr => ⟨?_, fun entity run hopen => ?_⟩
  · intro hreport
    simp [hreport] at hr
  · obtain ⟨rfl, rfl⟩ : entity = e.name ∧ run = c.run := by simpa [hopen] using hr
    rfl

/-- The result of an entity that is extracted beside others tells what is so. -/
theorem matches_of_beside (host : Host) {last : Host} (ht : Trace (resultOf c e) log result)
    (hbeside : Local.Beside places (outputPlace places host.2.disk.home e.name c.run) host log
      last) :
    Matches c places last ⟨e, log, result⟩ := by
  obtain ⟨first, rest, outcome, rfl, hfirst, hrest⟩ := (Program.trace_bind_iff _ _ log result).1 ht
  cases outcome with
  | error error =>
    obtain ⟨told, idle, u, rfl, -, hidle⟩ := (Program.trace_bind_iff _ _ rest result).1 hrest
    obtain ⟨rfl, rfl⟩ := (Program.trace_done_iff _ _ idle).1 hidle
    exact ⟨rfl, .inr ⟨rfl, rfl, rfl, rfl, rfl⟩⟩
  | ok extracted =>
    obtain ⟨rfl, rfl⟩ := (Program.trace_done_iff _ _ rest).1 hrest
    rw [List.append_nil] at hbeside ⊢
    obtain ⟨p, during, after, batches, hdelivers, hfills⟩ := Extraction.delivers_of_trace hfirst
    obtain ⟨before, rfl⟩ := hfills.shape
    obtain ⟨begun, hbefore, hopened⟩ := hbeside.append
    have hothers : ∀ x ∈ after, x.request.kind.isFiling = false := by
      intro x hx
      have hkind := hfills.others x hx
      simp only [List.mem_cons, List.not_mem_nil, or_false] at hkind
      rcases hkind with hkind | hkind <;> rw [hkind] <;> rfl
    obtain ⟨hstored, hrows, hbytes⟩ := Local.stored_of_beside (by rw [hbefore.home]) hopened
      hfills.kinds hothers hfills.writes
    rw [hfills.records] at hstored hrows hbytes
    rw [← hbeside.home] at hstored
    exact ⟨hdelivers.entity, .inl ⟨p, Filed.of_stored hdelivers hstored hrows hbytes⟩⟩

theorem injective_get_of_nodup_map {α β : Type} {f : α → β} {l : List α} (h : (l.map f).Nodup) :
    Function.Injective fun i => f (l.get i) := by
  intro i j hij
  exact (h.of_map f).injective_get (List.inj_on_of_nodup_map h (l.get_mem i) (l.get_mem j) hij)

/-- Where the file of each entity of a run is. -/
def place (c : RunContext) (places : Places) (home : Place)
    (i : Fin c.configuration.entities.length) : Place :=
  outputPlace places home (c.configuration.entities.get i).name c.run

theorem injective_place {home : Place}
    (h : (c.configuration.entities.map fun e => outputPlace places home e.name c.run).Nodup) :
    Function.Injective (place c places home) :=
  injective_get_of_nodup_map h

/-- The exchanges for an entity, its result, and what the services keep for it. -/
abbrev Outcome := List (Exchange services) × TaskResult × State

/-- The entities of a run that are extracted at the same time on a machine. -/
def crew (c : RunContext) (places : Places) (m : Machine.Memory) :
    Crew (Fin c.configuration.entities.length) Outcome :=
  ⟨fun i => Local.work places (resultOf c (c.configuration.entities.get i)) {}, m⟩

/-- Entities that write different files may be extracted at the same time. -/
theorem matches_of_steps {m : Machine.Memory} {s : Crew _ _} {i} {state : State}
    (hplaces : Function.Injective (place c places m.disk.home))
    (hsteps : Relation.ReflTransGen (Crew.Step (place c places m.disk.home)) (crew c places m) s)
    (hdone : s.programs i = .done (log, result, state)) :
    Trace (resultOf c (c.configuration.entities.get i)) log result ∧
      Matches c places (state, s.machine) ⟨c.configuration.entities.get i, log, result⟩ := by
  have hhome (i : Fin c.configuration.entities.length) :
      lead (crew c places m).machine.disk.home (Sink.start places.output
        (c.configuration.entities.get i).name c.run places.compressed).file =
        place c places m.disk.home i := rfl
  have hnone (path : String) : State.Fills path {} := fun sink hsink => by cases hsink
  have hamid := Crew.amid_of_steps hhome hplaces
    (fun _ => Local.within_work opens_resultOf (hnone _)) hsteps i _ hdone
  -- What the others did behind its own steps kept its place, so its exchanges tell what is there.
  obtain ⟨ht, hbeside⟩ := Local.beside_of_amid hamid
  exact ⟨ht, matches_of_beside ({}, m) ht hbeside⟩

/-- A run of which the entities are extracted at the same time, a request of one of them being a
step. The clock is read before them, and when all of them are done the report of their results is
saved. Whatever the services answer, they write to none of the files of the entities. -/
inductive Runs (c : RunContext) (places : Places) (m : Machine.Memory)
    (outcome : Fin c.configuration.entities.length → Outcome) (results : List TaskResult)
    (last : Machine.Memory) : Prop
  | of_stages (begun : Float) (clocked saved : List (Exchange services)) (state state' : State)
      (m₁ : Machine.Memory) (s : Crew (Fin c.configuration.entities.length) Outcome)
      (hbegin : Alone (place c places m.disk.home) (Local.work places clock {}) m
        (clocked, (.ok begun : Except ExtractError Float), state) m₁)
      (hsteps : Relation.ReflTransGen (Crew.Step (place c places m.disk.home)) (crew c places m₁) s)
      (hdone : ∀ i, s.programs i = .done (outcome i))
      (hend : Alone (place c places m.disk.home)
        (Local.work places (conclude c begun (List.ofFn fun i => (outcome i).2.1)) {}) s.machine
        (saved, (.ok results : Except ExtractError (List TaskResult)), state') last)

section Sequence

variable {kept : Fin c.configuration.entities.length → Place} {m last : Machine.Memory}

theorem asks_clock : Program.Asks [.time] clock := .ofTotal (.request _ rfl)

/-- Entities that are extracted one after the other take steps of the crew. -/
theorem steps_of_resultsOf {rest : List (Fin c.configuration.entities.length)}
    {s : Crew (Fin c.configuration.entities.length) Outcome} {results : List TaskResult}
    {state : State} (hnodup : rest.Nodup)
    (hs : ∀ i ∈ rest,
      s.programs i = Local.work places (resultOf c (c.configuration.entities.get i)) {})
    (h : Alone kept (Local.work places (resultsOf c (rest.map c.configuration.entities.get)) {})
      s.machine (log, results, state) last) :
    state = {} ∧ ∃ s', Relation.ReflTransGen (Crew.Step kept) s s' ∧ s'.machine = last ∧
      (∃ outcome : Fin c.configuration.entities.length → Outcome,
        (∀ i ∈ rest, s'.programs i = .done (outcome i)) ∧
        results = rest.map fun i => (outcome i).2.1) ∧
      ∀ i ∉ rest, s'.programs i = s.programs i := by
  induction rest generalizing s log results with
  | nil =>
    obtain ⟨-, rfl, rfl, rfl⟩ := h.of_work_done
    exact ⟨rfl, s, .refl, rfl, ⟨fun _ => ([], TaskResult.failure "" "", {}),
      List.forall_mem_nil _, rfl⟩, fun _ _ => rfl⟩
  | cons i rest ih =>
    obtain ⟨hi, hrest⟩ := List.nodup_cons.1 hnodup
    obtain ⟨hprogram, hprograms⟩ := List.forall_mem_cons.1 hs
    obtain ⟨first, result, state₁, m₁, _, -, hfirst, h₁⟩ := h.of_work_bind
    obtain ⟨_, results', state₂, m₂, _, -, hothers, h₂⟩ := h₁.of_work_bind
    obtain ⟨-, rfl, rfl, rfl⟩ := h₂.of_work_done
    -- its sink is closed, so the next entity begins with the state that it begins with in the crew
    obtain rfl := hfirst.state_eq (closed_resultOf c _) rfl
    rw [← hprogram] at hfirst
    have hsteps := Crew.steps_of_alone hfirst
    have hne (j : Fin c.configuration.entities.length) (hj : j ∈ rest) : j ≠ i :=
      fun heq => hi (heq ▸ hj)
    have hothers' (j : Fin c.configuration.entities.length) (hj : j ≠ i) :
        (s.goOn i (.done (first, result, {})) m₁).programs j = s.programs j :=
      Function.update_of_ne hj _ _
    obtain ⟨rfl, s', hsteps', hlast, ⟨outcome, hdone, rfl⟩, hspared⟩ :=
      ih hrest (s := s.goOn i (.done (first, result, {})) m₁) (fun j hj => by
        rw [hothers' j (hne j hj)]
        exact hprograms j hj) hothers
    refine ⟨rfl, s', hsteps.trans hsteps', hlast,
      ⟨Function.update outcome i (first, result, {}), ?_, ?_⟩, fun j hj => ?_⟩
    · refine List.forall_mem_cons.2 ⟨?_, fun j hj => ?_⟩
      · rw [hspared i hi, Function.update_self]
        exact Function.update_self ..
      · rw [Function.update_of_ne (hne j hj)]
        exact hdone j hj
    · rw [List.map_cons, Function.update_self]
      refine congrArg _ (List.map_congr_left fun j hj => ?_)
      rw [Function.update_of_ne (hne j hj)]
    · rw [hspared j (List.not_mem_of_not_mem_cons hj),
        hothers' j (List.ne_of_not_mem_cons hj)]

/-- To extract the entities one after the other is one of the ways to run. -/
theorem runs_of_execute {results : List TaskResult} {state : State}
    (h : Alone (place c places m.disk.home) (Local.work places (execute c) {}) m
      (log, (.ok results : Except ExtractError (List TaskResult)), state) last) :
    ∃ outcome, Runs c places m outcome results last := by
  obtain ⟨clocked, begun, state₁, m₁, _, -, hbegin, hrest⟩ := h.of_work_andThen
  obtain ⟨rfl, -⟩ := hbegin.of_asks asks_clock (by decide)
  obtain ⟨_, extracted, state₂, m₂, saved, -, hextracted, hend⟩ := hrest.of_work_andThen
  obtain ⟨_, _, _, _, _, -, hresults, hidle⟩ :=
    Alone.of_work_bind (p := resultsOf c c.configuration.entities) hextracted
  obtain ⟨-, heq, rfl, rfl⟩ := hidle.of_work_done
  cases heq
  obtain ⟨rfl, s, hsteps, rfl, ⟨outcome, hdone, rfl⟩, -⟩ :=
    steps_of_resultsOf (s := crew c places m₁) (List.nodup_finRange _) (fun _ _ => rfl) (by
      rw [List.map_get_finRange]
      exact hresults)
  rw [← List.ofFn_eq_map] at hend
  exact ⟨outcome, .of_stages begun clocked saved _ state m₁ s hbegin hsteps
    (fun i => hdone i (List.mem_finRange i)) hend⟩

end Sequence

section Concluding

variable {kept : Fin c.configuration.entities.length → Place} {m last : Machine.Memory}
  {s s' : State}

/-- A report that could be saved is in its file, and other files are left alone. -/
theorem file_of_saveReport {directory : String} {report : Report}
    (hkept : ∀ i, lead m.disk.home (Local.reportFile directory report) ≠ kept i)
    (h : Alone kept (Local.work places (saveReport directory report) s) m
      (log, (.ok () : Except ExtractError Unit), s') last) :
    (∀ i, KeepsFile (kept i) m.disk last.disk) ∧
      last.disk.content? (lead m.disk.home (Local.reportFile directory report)) =
        some (.file (Utf8.encodeString (Json.pretty report.encode))) := by
  obtain ⟨reply, s₁, m₁, _, -, hserved, hidle⟩ := h.of_work_ask
  obtain ⟨-, rfl, rfl, rfl⟩ := hidle.of_work_done
  have hreply := hserved.eq_respond rfl
  have hfile := Local.file_of_saveReport (congrArg Prod.fst hreply).symm
  rw [← hreply] at hfile
  refine ⟨fun i => ?_, hfile⟩
  rw [Local.respond_saveReport] at hreply
  rw [(Prod.mk.inj (Prod.mk.inj hreply).2).2]
  exact (Local.writesTo_saveReport directory report).keepsFile (hkept i)

/-- At the end of a run the report of the results is saved, and other files are left alone. -/
theorem file_of_conclude {begun : Float} {results results' : List TaskResult}
    (hkept : ∀ report : Report, ∀ i,
      lead m.disk.home (Local.reportFile c.configuration.output.directory report) ≠ kept i)
    (h : Alone kept (Local.work places (conclude c begun results) s) m
      (log, (.ok results' : Except ExtractError (List TaskResult)), s') last) :
    results' = results ∧ (∀ i, KeepsFile (kept i) m.disk last.disk) ∧ ∃ duration,
      last.disk.content? (lead m.disk.home
          (Path.join c.configuration.output.directory ("report_" ++ c.run ++ ".json"))) =
        some (.file (Utf8.encodeString (Json.pretty
          (Report.encode ⟨c.run, c.settings.operation, results, duration⟩)))) := by
  obtain ⟨_, ended, s₁, m₁, _, -, hended, hrest⟩ := h.of_work_andThen
  obtain ⟨rfl, hclocked⟩ := hended.of_asks asks_clock (by decide)
  obtain ⟨_, _, s₂, m₂, _, -, hsaved, hidle⟩ := hrest.of_work_andThen
  obtain ⟨-, heq, -, rfl⟩ := hidle.of_work_done
  cases heq
  obtain ⟨hkeeps, hfile⟩ := file_of_saveReport (by rw [hended.home]; exact hkept _) hsaved
  rw [hended.home] at hfile
  exact ⟨rfl, fun i => (hclocked i).trans (hkeeps i), ended - begun, hfile⟩

/-- The report of a run is saved on a machine where that can be done. -/
theorem alone_conclude (kept : Fin c.configuration.entities.length → Place) (places : Places)
    {begun ended : Float} {results : List TaskResult} (s : State)
    (h : ((Local.saveReport c.configuration.output.directory
      ⟨c.run, c.settings.operation, results, ended - begun⟩).run.onDisk m.disk).1 = .ok ()) :
    ∃ saved last, Alone kept (Local.work places (conclude c begun results) s) m
      (saved, (.ok results : Except ExtractError (List TaskResult)), s) last := by
  let request : Request := .saveReport c.configuration.output.directory
    ⟨c.run, c.settings.operation, results, ended - begun⟩
  have hsaved : Alone kept (Local.serve places request s) m _ _ := .served rfl s m
  rw [Local.respond_saveReport, h] at hsaved
  exact ⟨_, _, (Alone.clocked ended s m).work_ask (hsaved.work_ask (.done _ _))⟩

end Concluding

theorem home_of_steps {kept : Fin c.configuration.entities.length → Place}
    {s s' : Crew (Fin c.configuration.entities.length) Outcome}
    (h : Relation.ReflTransGen (Crew.Step kept) s s') :
    s'.machine.disk.home = s.machine.disk.home := by
  induction h with
  | refl => rfl
  | tail _ hstep ih =>
    refine Eq.trans ?_ ih
    cases hstep with
    | machine i r next h => exact Local.home_answer r _
    | services i r next reply m h hkeeps => exact (hkeeps i).home

/-- What a run tells is so on the disk, however its entities get along at the same time. Each
entity, in the order of the configuration, has one result: either it succeeded, and its file holds
behind the header a row for each row of its results and then one for each deleted row, which were
fetched once at most; or it failed, and no rows and no bytes are told of. The report that is saved
lists these results, and counts and sums them up. -/
theorem report_matches_files {m last : Machine.Memory}
    {outcome : Fin c.configuration.entities.length → Outcome} {results : List TaskResult}
    (hplaces : Function.Injective (place c places m.disk.home))
    (h : Runs c places m outcome results last) :
    results = List.ofFn (fun i => (outcome i).2.1) ∧
      (∀ i, Trace (resultOf c (c.configuration.entities.get i)) (outcome i).1 (outcome i).2.1 ∧
        Matches c places ((outcome i).2.2, last)
          ⟨c.configuration.entities.get i, (outcome i).1, (outcome i).2.1⟩) ∧
      ∃ duration, last.disk.content? (lead m.disk.home
          (Path.join c.configuration.output.directory ("report_" ++ c.run ++ ".json"))) =
        some (.file (Utf8.encodeString (Json.pretty (.object [
          ("details", .array (results.map TaskResult.detail)),
          ("summary", .object [
            ("failed", .natural (results.countP (·.status = "FAILED"))),
            ("operation", .text c.settings.operation.name), ("run_id", .text c.run),
            ("success", .natural (results.countP (·.status = "SUCCESS"))),
            ("total_bytes", .natural (results.map (·.bytes)).sum),
            ("total_duration_seconds", .real duration),
            ("total_entities", .natural c.configuration.entities.length),
            ("total_rows",
              .natural (results.map fun r => r.rows + r.softDeletedRows).sum)])])))) := by
  obtain ⟨begun, clocked, saved, state, state', m₁, s, hbegin, hsteps, hdone, hend⟩ := h
  have hhome₁ : m₁.disk.home = m.disk.home := hbegin.home
  have hhome : s.machine.disk.home = m.disk.home := (home_of_steps hsteps).trans hhome₁
  obtain ⟨rfl, hkeeps, duration, hfile⟩ := file_of_conclude (fun report i => by
    rw [hhome]
    exact Local.reportFile_ne_outputPlace _ _ _ _ _) hend
  have hmatches (i : Fin c.configuration.entities.length) :
      Trace (resultOf c (c.configuration.entities.get i)) (outcome i).1 (outcome i).2.1 ∧
        Matches c places ((outcome i).2.2, last)
          ⟨c.configuration.entities.get i, (outcome i).1, (outcome i).2.1⟩ := by
    rw [← hhome₁] at hplaces hsteps
    obtain ⟨ht, hmatches⟩ := matches_of_steps hplaces hsteps (hdone i)
    refine ⟨ht, hmatches.keeps ?_⟩
    rw [hhome]
    exact hkeeps i
  have hstatus : ∀ result ∈ List.ofFn (fun i => (outcome i).2.1),
      result.status = TaskResult.successStatus ∨ result.status = TaskResult.failedStatus := by
    intro result hresult
    obtain ⟨i, rfl⟩ := (List.mem_ofFn' _ _).1 hresult
    exact (hmatches i).2.status
  rw [hhome, Report.encode_eq_document _ hstatus, Report.document, List.length_ofFn] at hfile
  exact ⟨rfl, hmatches, duration, hfile⟩

/-- What is told of an entity. -/
def told (r : TaskResult) : String × String × Nat × Nat × Nat :=
  (r.entity, r.status, r.rows, r.softDeletedRows, r.bytes)

/-- Accounts and leads are extracted, a request of the one and then one of the other. -/
def stagedCrew : Crew (Fin Local.stagedRun.configuration.entities.length) Outcome :=
  ((List.replicate 20 [⟨0, by decide⟩, ⟨1, by decide⟩]).flatten.foldl
    (Crew.turn Local.stagedPlaces (place Local.stagedRun Local.stagedPlaces []))
    (crew Local.stagedRun Local.stagedPlaces Local.stagedHost.2, {})).1

theorem isSome_stagedCrew : ∀ i, (stagedCrew.value? i).isSome = true := by
  decide +kernel

/-- What comes of the extraction of accounts and leads. -/
def stagedOutcome (i : Fin Local.stagedRun.configuration.entities.length) : Outcome :=
  (stagedCrew.value? i).get (isSome_stagedCrew i)

theorem runs_staged : ∃ last,
    Runs Local.stagedRun Local.stagedPlaces Local.stagedHost.2 stagedOutcome
      (List.ofFn fun i => (stagedOutcome i).2.1) last := by
  have hsteps : Relation.ReflTransGen
      (Crew.Step (place Local.stagedRun Local.stagedPlaces Local.stagedHost.2.disk.home))
      (crew Local.stagedRun Local.stagedPlaces Local.stagedHost.2) stagedCrew :=
    Crew.steps_turns _ _ _ (crew Local.stagedRun Local.stagedPlaces Local.stagedHost.2, {})
  have hsaved : ((Local.saveReport Local.stagedRun.configuration.output.directory
      ⟨Local.stagedRun.run, Local.stagedRun.settings.operation,
        List.ofFn fun i => (stagedOutcome i).2.1, 0 - 0⟩).run.onDisk
      stagedCrew.machine.disk).1.toOption = some () := by
    decide +kernel
  obtain ⟨saved, last, hend⟩ := alone_conclude
    (place Local.stagedRun Local.stagedPlaces Local.stagedHost.2.disk.home)
    Local.stagedPlaces {} (eq_ok_of_toOption hsaved)
  exact ⟨last, .of_stages 0 _ saved {} {} Local.stagedHost.2 stagedCrew
    ((Alone.clocked 0 {} Local.stagedHost.2).work_ask (.done _ _)) hsteps
    (fun i => Crew.eq_done_of_value? (Option.some_get _).symm) hend⟩

/-- Accounts are extracted while the extraction of leads fails. -/
theorem report_matches_staged :
    ∃ outcome results last,
      Runs Local.stagedRun Local.stagedPlaces Local.stagedHost.2 outcome results last ∧
      results.map told = [("Account", "SUCCESS", 2, 1, 26), ("Lead", "FAILED", 0, 0, 0)] ∧
      (∀ i, Matches Local.stagedRun Local.stagedPlaces ((outcome i).2.2, last)
        ⟨Local.stagedRun.configuration.entities.get i, (outcome i).1, (outcome i).2.1⟩) ∧
      ∃ duration, last.disk.content? ["report_r.json", "out"] =
        some (.file (Utf8.encodeString (Json.pretty (.object [
          ("details", .array (results.map TaskResult.detail)),
          ("summary", .object [("failed", .natural 1), ("operation", .text "query"),
            ("run_id", .text "r"), ("success", .natural 1), ("total_bytes", .natural 26),
            ("total_duration_seconds", .real duration), ("total_entities", .natural 2),
            ("total_rows", .natural 3)])])))) := by
  obtain ⟨last, hruns⟩ := runs_staged
  obtain ⟨htold, hfailed, hsuccess, hbytes, hrows⟩ :
      (List.ofFn fun i => (stagedOutcome i).2.1).map told =
          [("Account", "SUCCESS", 2, 1, 26), ("Lead", "FAILED", 0, 0, 0)] ∧
        (List.ofFn fun i => (stagedOutcome i).2.1).countP (·.status = "FAILED") = 1 ∧
        (List.ofFn fun i => (stagedOutcome i).2.1).countP (·.status = "SUCCESS") = 1 ∧
        ((List.ofFn fun i => (stagedOutcome i).2.1).map (·.bytes)).sum = 26 ∧
        ((List.ofFn fun i => (stagedOutcome i).2.1).map fun r =>
          r.rows + r.softDeletedRows).sum = 3 := by
    decide +kernel
  have hplaces : Function.Injective
      (place Local.stagedRun Local.stagedPlaces Local.stagedHost.2.disk.home) :=
    injective_place (by decide +kernel)
  obtain ⟨-, hmatches, duration, hfile⟩ := report_matches_files hplaces hruns
  have hlead : lead Local.stagedHost.2.disk.home
      (Path.join Local.stagedRun.configuration.output.directory
        ("report_" ++ Local.stagedRun.run ++ ".json")) = ["report_r.json", "out"] := by
    decide +kernel
  rw [hfailed, hsuccess, hbytes, hrows, hlead] at hfile
  exact ⟨_, _, last, hruns, htold, fun i => (hmatches i).2, duration, hfile⟩

end Run

end Harvest
