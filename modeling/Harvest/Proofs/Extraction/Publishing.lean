import Harvest.Proofs.Extraction.Streaming
import Harvest.Proofs.Job.Closing

/-!
# What is published

An extraction turns to the catalog only behind all of its work: the sink has taken the rows of all
results, the job is closed, and the sink is finished (`Extraction.Work`). Then the table of the
entity is registered, and behind it, if that went well, the partition of the run
(`Extraction.Work.Describes`). So a failed entity leaves no trace in the catalog, unless it is the
registration that failed (`Run.published_behind_work`).
-/

namespace Harvest

open Program (Trace Exchange Asks)
open Engine

/-- The request is about a partition of the catalog. -/
def Request.isPlacing : Request → Bool
  | .getPartition _ _ _ => true
  | .addPartition _ _ _ => true
  | .alterPartition _ _ _ => true
  | _ => false

/-- No exchange is with the catalog. -/
def Unpublished (log : List (Exchange services)) : Prop :=
  ∀ x ∈ log, x.request.kind ≠ .catalog

section Logs

variable {log first rest : List (Exchange services)}

theorem Unpublished.append (h : Unpublished first) (h' : Unpublished rest) :
    Unpublished (first ++ rest) :=
  List.forall_mem_append.2 ⟨h, h'⟩

theorem unpublished_of_kinds {kinds : List Request.Kind}
    (h : ∀ x ∈ log, x.request.kind ∈ kinds) (hkinds : .catalog ∉ kinds) : Unpublished log := by
  intro x hx hkind
  exact hkinds (hkind ▸ h x hx)

theorem Program.Asks.unpublished {α : Type} {p : Program services α} {kinds : List Request.Kind}
    {value : α} (h : p.Asks kinds) (ht : Trace p log value) (hkinds : .catalog ∉ kinds) :
    Unpublished log :=
  unpublished_of_kinds (h.of_trace ht) hkinds

/-- What is not among the first exchanges stands behind all of them. -/
theorem exists_append_of_not_mem {before after : List (Exchange services)} {x : Exchange services}
    (hx : x ∉ first) (h : before ++ x :: after = first ++ rest) :
    ∃ between, before = first ++ between ∧ rest = between ++ x :: after := by
  rcases List.append_eq_append_iff.1 h with ⟨between, hfirst, hrest⟩ | ⟨between, hbefore, hrest⟩
  · cases between with
    | nil => exact ⟨[], by simpa using hfirst.symm, by simpa using hrest.symm⟩
    | cons y between =>
      injection hrest with hy hrest
      exact absurd (hfirst ▸ hy ▸ List.mem_append_right _ List.mem_cons_self) hx
  · exact ⟨between, hbefore, hrest⟩

theorem exists_append_of_not_mem_right {before after : List (Exchange services)}
    {x : Exchange services} (hx : x ∉ rest) (h : before ++ x :: after = first ++ rest) :
    ∃ between, first = before ++ x :: between := by
  rcases List.append_eq_append_iff.1 h with ⟨between, hfirst, hrest⟩ | ⟨between, hbefore, hrest⟩
  · cases between with
    | nil =>
      rw [List.nil_append] at hrest
      exact absurd (hrest ▸ List.mem_cons_self) hx
    | cons y between =>
      injection hrest with hy hrest
      exact ⟨between, hy ▸ hfirst⟩
  · exact absurd (hrest ▸ List.mem_append_right _ List.mem_cons_self) hx

end Logs

namespace Catalog

/-- A table is registered without a look at its partitions. -/
theorem not_placing_of_trace_registerTable (t : Table) (log : List (Exchange services))
    (result : Except ExtractError Registered) (ht : Trace (registerTable t) log result) :
    ∀ x ∈ log, x.request.isPlacing = false := by
  rcases trace_asks_bind log (getTable t.database t.name) _ result
      (fun reply => ⟨.getTable t.database t.name, reply⟩)
      (fun first reply h => (trace_request_iff first (.getTable _ _) reply).1 h) ht with
    ⟨e, rfl, rfl⟩ | ⟨found, rest, rfl, hrest⟩
  · exact List.forall_mem_singleton.2 rfl
  refine List.forall_mem_cons.2 ⟨rfl, ?_⟩
  cases found with
  | none =>
    obtain ⟨reply, hcreate, -⟩ := trace_bind_pure rest (createTable t) _ result hrest
    rw [(trace_request_iff rest (.createTable t) reply).1 hcreate]
    exact List.forall_mem_singleton.2 rfl
  | some existing =>
    dsimp only at hrest
    by_cases hsame : existing = t
    · rw [if_pos hsame] at hrest
      rw [((trace_pure_iff rest _ result).1 hrest).1]
      exact List.forall_mem_nil _
    · rw [if_neg hsame] at hrest
      obtain ⟨reply, halter, -⟩ := trace_bind_pure rest (alterTable t) _ result hrest
      rw [(trace_request_iff rest (.alterTable t) reply).1 halter]
      exact List.forall_mem_singleton.2 rfl

/-- A table is registered: it is created if the catalog has none of its name, altered if it has
another one, and left alone if it has the same one. -/
inductive Table.Entered (t : Table) : List (Exchange services) → Prop
  | created :
    Entered t [⟨.getTable t.database t.name, .ok none⟩, ⟨.createTable t, .ok ()⟩]
  | altered (existing : Table) (h : existing ≠ t) :
    Entered t [⟨.getTable t.database t.name, .ok (some existing)⟩, ⟨.alterTable t, .ok ()⟩]
  | kept : Entered t [⟨.getTable t.database t.name, .ok (some t)⟩]

/-- A partition of a table is registered: it is added if the table has none of its values, moved if
the one that it has is elsewhere, and else left alone. -/
inductive Partition.Entered (t : Table) (p : Partition) : List (Exchange services) → Prop
  | added :
    Entered t p [⟨.getPartition t.database t.name p.values, .ok none⟩,
      ⟨.addPartition t.database t.name p, .ok ()⟩]
  | moved (existing : Partition) (h : existing.location ≠ p.location) :
    Entered t p [⟨.getPartition t.database t.name p.values, .ok (some existing)⟩,
      ⟨.alterPartition t.database t.name p, .ok ()⟩]
  | kept (existing : Partition) (h : existing.location = p.location) :
    Entered t p [⟨.getPartition t.database t.name p.values, .ok (some existing)⟩]

section Entering

variable {t : Table} {p : Partition} {log : List (Exchange services)} {registered : Registered}

theorem entered_of_trace_registerTable (ht : Trace (registerTable t) log (.ok registered)) :
    t.Entered log := by
  obtain ⟨found, asked, rest, rfl, hasked, hrest⟩ := ok_of_trace_bind ht
  obtain rfl := (trace_request_iff asked (.getTable t.database t.name) (.ok found)).1 hasked
  cases found with
  | none =>
    obtain ⟨_, created, last, rfl, hcreated, hlast⟩ := ok_of_trace_bind hrest
    obtain rfl := (trace_request_iff created (.createTable t) (.ok ())).1 hcreated
    obtain ⟨rfl, -⟩ := (trace_pure_iff last _ _).1 hlast
    exact .created
  | some existing =>
    dsimp only at hrest
    split at hrest
    · rename_i hsame
      subst hsame
      obtain ⟨rfl, -⟩ := (trace_pure_iff rest _ _).1 hrest
      exact .kept
    · rename_i hdiffer
      obtain ⟨_, altered, last, rfl, haltered, hlast⟩ := ok_of_trace_bind hrest
      obtain rfl := (trace_request_iff altered (.alterTable t) (.ok ())).1 haltered
      obtain ⟨rfl, -⟩ := (trace_pure_iff last _ _).1 hlast
      exact .altered existing hdiffer

theorem entered_of_trace_registerPartition
    (ht : Trace (registerPartition t p) log (.ok registered)) : p.Entered t log := by
  rw [registerPartition] at ht
  split at ht
  · cases ((trace_throw_iff log _ _).1 ht).2
  obtain ⟨found, asked, rest, rfl, hasked, hrest⟩ := ok_of_trace_bind ht
  obtain rfl :=
    (trace_request_iff asked (.getPartition t.database t.name p.values) (.ok found)).1 hasked
  cases found with
  | none =>
    obtain ⟨_, added, last, rfl, hadded, hlast⟩ := ok_of_trace_bind hrest
    obtain rfl := (trace_request_iff added (.addPartition t.database t.name p) (.ok ())).1 hadded
    obtain ⟨rfl, -⟩ := (trace_pure_iff last _ _).1 hlast
    exact .added
  | some existing =>
    dsimp only at hrest
    split at hrest
    · rename_i hsame
      obtain ⟨rfl, -⟩ := (trace_pure_iff rest _ _).1 hrest
      exact .kept existing hsame
    · rename_i hdiffer
      obtain ⟨_, moved, last, rfl, hmoved, hlast⟩ := ok_of_trace_bind hrest
      obtain rfl :=
        (trace_request_iff moved (.alterPartition t.database t.name p) (.ok ())).1 hmoved
      obtain ⟨rfl, -⟩ := (trace_pure_iff last _ _).1 hlast
      exact .moved existing hdiffer

end Entering

/-- The exchanges of the registration of a table and then of a partition, and how it ends: the
partition is left out if the table could not be registered. -/
inductive Registration (t : Table) (p : Partition) :
    List (Exchange services) → Except ExtractError Unit → Prop
  | refused (tabling : List (Exchange services)) (e : ExtractError)
      (htable : Trace (registerTable t) tabling (.error e)) : Registration t p tabling (.error e)
  | unplaced (tabling placing : List (Exchange services)) (registered : Registered)
      (e : ExtractError) (htable : Trace (registerTable t) tabling (.ok registered))
      (hpartition : Trace (registerPartition t p) placing (.error e)) :
    Registration t p (tabling ++ placing) (.error e)
  | placed (tabling placing : List (Exchange services)) (registered placed : Registered)
      (htable : Trace (registerTable t) tabling (.ok registered))
      (hpartition : Trace (registerPartition t p) placing (.ok placed)) :
    Registration t p (tabling ++ placing) (.ok ())

/-- Behind an exchange about a partition nothing has to be asked about the table any more. -/
theorem Registration.registered_of_placing {t : Table} {p : Partition}
    {log between after : List (Exchange services)} {result : Except ExtractError Unit}
    {x : Exchange services} (h : Registration t p log result) (hlog : log = between ++ x :: after)
    (hx : x.request.isPlacing = true) :
    ∃ tabling placing, between = tabling ++ placing ∧ t.Entered tabling := by
  have hnot {tabling : List (Exchange services)} {outcome : Except ExtractError Registered}
      (ht : Trace (registerTable t) tabling outcome) : x ∉ tabling := by
    intro hmem
    have hfalse := not_placing_of_trace_registerTable t tabling outcome ht x hmem
    cases hx.symm.trans hfalse
  cases h with
  | refused _ e htable => exact absurd (by simp [hlog]) (hnot htable)
  | unplaced tabling placing registered e htable _ =>
    obtain ⟨placing', hbetween, -⟩ := exists_append_of_not_mem (hnot htable) hlog.symm
    exact ⟨tabling, placing', hbetween, entered_of_trace_registerTable htable⟩
  | placed tabling placing registered _ htable _ =>
    obtain ⟨placing', hbetween, -⟩ := exists_append_of_not_mem (hnot htable) hlog.symm
    exact ⟨tabling, placing', hbetween, entered_of_trace_registerTable htable⟩

end Catalog

namespace Extraction

/-- The work of an extraction, up to the end of its file. -/
structure Work where
  predicates : List String
  job : PreparedJob
  /-- All that happens at the reader of the results of the job. -/
  events : List ResultReader.Event
  reader : ResultReader
  batches : List Batch
  /-- The query for the deleted rows and its answer, if it was made. -/
  fetched : Option (String × List Record)
  streamed : Streamed
  summary : Summary
  preparing : List (Exchange services)
  streaming : List (Exchange services)
  closing : List (Exchange services)

variable (c : RunContext) (e : EntityOptions)

namespace Work

variable (w : Work)

/-- The batcher over the results of the job. -/
def batcher : Batcher :=
  .start (.start ⟨e.name, w.job.job.id, c.settings.streamRetryLimit⟩ w.job.references) c.settings
    e.columns

/-- The exchanges of the work. -/
def log : List (Exchange services) :=
  w.preparing ++ ⟨.openSink e.name c.run, .ok ()⟩ ::
    (w.streaming ++ w.closing ++ [⟨.finishSink, .ok w.summary⟩])

/-- All is done: the results that were listed for the job are read to their end, every batch of
their rows and of the deleted rows is taken by the sink, the job is closed or reported closed, and
the sink is finished. -/
structure Done : Prop where
  predicates : Extraction.predicates e = .ok w.predicates
  prepared : JobPlan.ListsLast [.create, .status, .close, .batch, .query, .time] w.job w.preparing
  streams : Streams c e w.predicates (w.batcher c e) 0 w.streaming w.streamed w.events w.reader
    w.batches w.fetched
  closed : ∃ info, Shut w.job.job.id w.closing (.ok info)
  unpublished : Unpublished (w.log c e)

/-- What is to be registered for the work. The table has the name of the entity in lower case, the
columns that the sink has written or, if it wrote none, those that are configured or else those of
the results, and it is where the directory of the run is. The partition is the one of the run, and
it is where the sink has written. -/
structure Describes (t : Catalog.Table) (p : Catalog.Partition) : Prop where
  database : c.database = some t.database
  name : t.name = Text.lower e.name
  columns : t.columns =
    if w.summary.columns = [] then e.columns.getD (w.reader.header.getD []) else w.summary.columns
  location : t.location = (Path.parent? w.summary.location).getD w.summary.location
  partitionKeys : t.partitionKeys = ["run_id"]
  values : p.values = [c.run]
  place : p.location = w.summary.location

variable {c e w}

theorem Done.describes (h : w.Done c e) {database : String}
    (hdatabase : c.database = some database) :
    w.Describes c e (tableOf database e w.summary w.streamed.columns)
      ⟨[c.run], w.summary.location⟩ where
  database := hdatabase
  name := rfl
  columns := by
    have hcolumns : w.streamed.columns = e.columns.getD (w.reader.header.getD []) :=
      h.streams.columns
    rw [tableOf, hcolumns]
    cases w.summary.columns <;> rfl
  location := rfl
  partitionKeys := rfl
  values := rfl
  place := rfl

end Work

/-- How an extraction ends for the catalog: it fails before anything is published, or it does its
work, registers what there is to be registered, and ends with the error of that or well. -/
inductive Publishes : List (Exchange services) → Except ExtractError TaskResult → Prop
  | withheld (log : List (Exchange services)) (error : ExtractError) (h : Unpublished log) :
    Publishes log (.error error)
  | refused (w : Work) (hdone : w.Done c e) (asked : List (Exchange services))
      (error : ExtractError)
      (hasked : Trace (register c e w.summary w.streamed.columns) asked (.error error)) :
    Publishes (w.log c e ++ asked) (.error error)
  | registered (w : Work) (hdone : w.Done c e) (asked ending : List (Exchange services))
      (result : TaskResult)
      (hasked : Trace (register c e w.summary w.streamed.columns) asked (.ok ()))
      (hending : Unpublished ending) (hresult : result.status = TaskResult.successStatus) :
    Publishes (w.log c e ++ (asked ++ ending)) (.ok result)

/-- Every run of the program fails before anything is published, or has `P`. -/
def Withholds {α : Type} (x : Engine α)
    (P : List (Exchange services) → Except ExtractError α → Prop) : Prop :=
  ∀ log result, Trace x log result →
    (∃ error, result = .error error ∧ Unpublished log) ∨ P log result

variable {c e}

/-- What is done first makes no exchange with the catalog. -/
theorem Withholds.andThen {α β : Type} {kinds : List Request.Kind} {x : Engine α}
    {f : α → Engine β} {P : List (Exchange services) → Except ExtractError β → Prop}
    (h : Asks kinds x) (hkinds : .catalog ∉ kinds)
    (hf : ∀ a first, Trace x first (.ok a) → Withholds (f a) fun rest => P (first ++ rest)) :
    Withholds (x >>= f) P := by
  intro log result ht
  rcases (trace_bind_iff log x f result).1 ht with ⟨e, hx, rfl⟩ | ⟨a, first, rest, rfl, hx, hrest⟩
  · exact .inl ⟨e, rfl, h.unpublished hx hkinds⟩
  · rcases hf a first hx rest result hrest with ⟨e, rfl, hnone⟩ | hP
    · exact .inl ⟨e, rfl, (h.unpublished hx hkinds).append hnone⟩
    · exact .inr hP

/-- What is collected from a job that is open: the sink takes all, and the job is closed. -/
theorem streams_of_trace_collect {ps : List String} {p : PreparedJob}
    {log : List (Exchange services)} {streamed : Streamed} (hopen : p.job.closed = false)
    (ht : Trace (collect c e ps p) log (.ok streamed)) :
    ∃ streaming closing events reader batches fetched,
      log = ⟨.openSink e.name c.run, .ok ()⟩ :: (streaming ++ closing) ∧
      Streams c e ps (.start (.start ⟨e.name, p.job.id, c.settings.streamRetryLimit⟩ p.references)
        c.settings e.columns) 0 streaming streamed events reader batches fetched ∧
      ∃ info, Shut p.job.id closing (.ok info) := by
  obtain ⟨_, guarded, rest, rfl, hguarded, hrest⟩ := ok_of_trace_bind ht
  obtain ⟨_, opened, streaming, rfl, hopened, hstreaming⟩ :=
    ok_of_trace_bind (ok_of_trace_onError hguarded)
  obtain ⟨_, closing, last, rfl, hclosing, hlast⟩ := ok_of_trace_bind hrest
  obtain ⟨rfl, heq⟩ := (trace_pure_iff last _ _).1 hlast
  cases heq
  obtain ⟨events, reader, batches, fetched, hstreams⟩ := trace_stream 0 c.patience _
    (Nat.le_max_right _ 1) streaming streamed (ok_of_trace_onError hstreaming)
  rw [(trace_request_iff opened (.openSink e.name c.run) (.ok ())).1 hopened, List.append_nil]
  refine ⟨streaming, closing, events, reader, batches, fetched, rfl, hstreams, ?_⟩
  rcases trace_closeJob p.job hopen closing _ hclosing with ⟨info, -, hshut⟩ | ⟨_, _, _, _, h, -⟩
  · exact ⟨info, hshut⟩
  · cases h

theorem open_of_trace_prepare {plan : JobPlan} {settings : Settings} {patience : Nat}
    {log : List (Exchange services)} {p : PreparedJob}
    (ht : Trace (plan.prepare settings patience) log (.ok p)) : p.job.closed = false := by
  rcases plan.life_of_trace_prepare _ _ log _ ht with ⟨_, h, -⟩ | ⟨p', _, _, _, _, h, hopen, -⟩
  · cases h
  · cases h
    exact hopen

/-- Behind work that is done only the registration and the clock are left. -/
theorem Work.Done.publishes {w : Work} (hdone : w.Done c e) {result : Float → TaskResult}
    (hsuccess : ∀ ended, (result ended).status = TaskResult.successStatus)
    {log : List (Exchange services)} {outcome : Except ExtractError TaskResult}
    (ht : Trace (do
      register c e w.summary w.streamed.columns
      let ended ← clock
      pure (result ended) : Engine TaskResult) log outcome) :
    Publishes c e (w.log c e ++ log) outcome := by
  have hclock : Asks [.time] clock := .ofTotal (.request _ rfl)
  rcases (trace_bind_iff log _ _ outcome).1 ht with
    ⟨error, hasked, rfl⟩ | ⟨_, asked, ending, rfl, hasked, hending⟩
  · exact .refused w hdone log error hasked
  · obtain ⟨reply, hreply, rfl⟩ := trace_bind_pure ending clock result outcome hending
    obtain ⟨ended, rfl, -⟩ := (trace_ofTotal_iff ending _ reply).1 hreply
    exact .registered w hdone asked ending _ hasked (hclock.unpublished hreply (by decide))
      (hsuccess ended)

theorem publishes_of_trace {log : List (Exchange services)}
    {result : Except ExtractError TaskResult} (ht : Trace (extract c e) log result) :
    Publishes c e log result := by
  suffices h : Withholds (extract c e) (Publishes c e) by
    rcases h log result ht with ⟨error, rfl, hnone⟩ | hP
    · exact .withheld log error hnone
    · exact hP
  have hclock : Asks [.time] clock := .ofTotal (.request _ rfl)
  refine .andThen hclock (by decide) fun begun started hstarted => ?_
  refine .andThen (asks_composed _ : Asks [] _) (by decide) fun ps _ hps => ?_
  obtain ⟨rfl, hpredicates⟩ := ok_of_trace_composed hps
  refine .andThen (asks_watermarkOf e ps) (by decide) fun watermark looked hlooked => ?_
  refine .andThen (asks_composed _ : Asks [] _) (by decide) fun query _ hquery => ?_
  obtain ⟨rfl, -⟩ := ok_of_trace_composed hquery
  refine .andThen (asks_composed _ : Asks [] _) (by decide) fun countQuery _ hcount => ?_
  obtain ⟨rfl, -⟩ := ok_of_trace_composed hcount
  refine .andThen (JobPlan.asks_prepare _ _ _) (by decide) fun p preparing hprepared => ?_
  refine .andThen (asks_collect c e ps p) (by simp) fun streamed collecting hcollected => ?_
  have hfinish : Asks [.finish, .drop] (onError giveUp finishSink) :=
    .onError (.request _ rfl) (asks_giveUp.mono (by decide))
  refine .andThen hfinish (by decide) fun summary finishing hfinished => ?_
  intro rest result hrest
  -- the work is done, and what follows is the registration
  obtain ⟨streaming, closing, events, reader, batches, fetched, rfl, hstreams, hclosed⟩ :=
    streams_of_trace_collect (open_of_trace_prepare hprepared) hcollected
  obtain rfl := (trace_request_iff finishing .finishSink (.ok summary)).1
    (ok_of_trace_onError hfinished)
  let w : Work := ⟨ps, p, events, reader, batches, fetched, streamed, summary,
    started ++ (looked ++ preparing), streaming, closing⟩
  have hlists := ((JobPlan.ok_of_trace_prepare hprepared).append (fun _ h => h)
    (((asks_watermarkOf e ps).mono (by decide)).of_trace hlooked)).append (fun _ h => h)
    ((hclock.mono (by decide)).of_trace hstarted)
  have hdone : w.Done c e := {
    predicates := hpredicates
    prepared := hlists
    streams := hstreams
    closed := hclosed
    unpublished := by
      have hcollect : Unpublished (⟨.openSink e.name c.run, .ok ()⟩ :: (streaming ++ closing)) :=
        (asks_collect c e ps p).unpublished hcollected (by simp)
      have hfinish : Unpublished [⟨.finishSink, .ok summary⟩] :=
        List.forall_mem_singleton.2 (by simp [Request.kind])
      have hlog : w.log c e = w.preparing ++ (⟨.openSink e.name c.run, .ok ()⟩ ::
          (streaming ++ closing) ++ [⟨.finishSink, .ok summary⟩]) := by
        simp [Work.log, w]
      rw [hlog]
      exact (unpublished_of_kinds hlists.kinds (by decide)).append (hcollect.append hfinish) }
  have hlog : started ++ ([] ++ (looked ++ ([] ++ ([] ++ (preparing ++
      (⟨.openSink e.name c.run, .ok ()⟩ :: (streaming ++ closing) ++
        ([⟨.finishSink, .ok summary⟩] ++ rest))))))) = w.log c e ++ rest := by
    simp [Work.log, w]
  have hpublishes := hdone.publishes (fun _ => rfl) hrest
  rw [← hlog] at hpublishes
  exact .inr hpublishes

theorem registration_of_trace_register {database : String} {w : Work}
    {log : List (Exchange services)} {result : Except ExtractError Unit}
    (hdatabase : c.database = some database)
    (ht : Trace (register c e w.summary w.streamed.columns) log result) :
    Catalog.Registration (tableOf database e w.summary w.streamed.columns)
      ⟨[c.run], w.summary.location⟩ log result := by
  rw [register, hdatabase] at ht
  rcases (trace_bind_iff log _ _ result).1 ht with
    ⟨error, htable, rfl⟩ | ⟨registered, tabling, rest, rfl, htable, hrest⟩
  · exact .refused log error htable
  obtain ⟨reply, hpartition, rfl⟩ := trace_bind_pure rest _ (fun _ => ()) result hrest
  cases reply with
  | error error => exact .unplaced tabling rest registered error htable hpartition
  | ok placed => exact .placed tabling rest registered placed htable hpartition

/-- Without a database nothing is registered. -/
theorem eq_nil_of_trace_register {summary : Summary} {columns : List String}
    {log : List (Exchange services)} {result : Except ExtractError Unit}
    (hdatabase : c.database = none) (ht : Trace (register c e summary columns) log result) :
    log = [] ∧ result = .ok () := by
  rw [register, hdatabase] at ht
  exact (trace_pure_iff log () result).1 ht

end Extraction

namespace Run

open Extraction (Work)

variable {c : RunContext} {e : EntityOptions}

/-- The exchanges for an entity: none is with the catalog, or they are the work of its extraction
and then the registration, which decides on the result. -/
theorem shape_of_trace_resultOf {log : List (Exchange services)} {result : TaskResult}
    (ht : Trace (resultOf c e) log result) :
    Unpublished log ∧ (result.status = TaskResult.successStatus → c.database = none) ∨
      ∃ (w : Work) (t : Catalog.Table) (p : Catalog.Partition)
        (asked ending : List (Exchange services)) (outcome : Except ExtractError Unit),
        w.Done c e ∧ w.Describes c e t p ∧ log = w.log c e ++ (asked ++ ending) ∧
        Unpublished ending ∧ Catalog.Registration t p asked outcome ∧
        (outcome = .ok () ∧ result.status = TaskResult.successStatus ∨
          ∃ error, outcome = .error error ∧ result = TaskResult.failure e.name error.message) := by
  obtain ⟨first, rest, outcome, rfl, hfirst, hrest⟩ := (Program.trace_bind_iff _ _ log result).1 ht
  have hpublishes := Extraction.publishes_of_trace hfirst
  cases outcome with
  | ok extracted =>
    obtain ⟨rfl, rfl⟩ := (Program.trace_done_iff _ _ rest).1 hrest
    rw [List.append_nil]
    cases hpublishes with
    | registered w hdone asked ending result hasked hending hresult =>
      cases hdatabase : c.database with
      | none =>
        obtain ⟨rfl, -⟩ := Extraction.eq_nil_of_trace_register hdatabase hasked
        exact .inl ⟨hdone.unpublished.append hending, fun _ => rfl⟩
      | some database =>
        have hregistration := Extraction.registration_of_trace_register hdatabase hasked
        exact .inr ⟨w, _, _, asked, ending, .ok (), hdone, hdone.describes hdatabase, rfl, hending,
          hregistration, .inl ⟨rfl, hresult⟩⟩
  | error error =>
    obtain ⟨told, idle, u, rfl, htold, hidle⟩ := (Program.trace_bind_iff _ _ rest result).1 hrest
    obtain ⟨rfl, rfl⟩ := (Program.trace_done_iff _ _ idle).1 hidle
    have htell : Unpublished told := (Asks.request (.tellFailure e.name error) rfl :
      Asks [.tell] _).unpublished htold (by decide)
    rw [List.append_nil]
    cases hpublishes with
    | withheld _ _ hnone =>
      refine .inl ⟨hnone.append htell, fun h => ?_⟩
      have hfailed : TaskResult.failedStatus ≠ TaskResult.successStatus := by decide
      exact absurd h hfailed
    | refused w hdone asked _ hasked =>
      cases hdatabase : c.database with
      | none => cases (Extraction.eq_nil_of_trace_register hdatabase hasked).2
      | some database =>
        have hregistration := Extraction.registration_of_trace_register hdatabase hasked
        exact .inr ⟨w, _, _, asked, told, .error error, hdone, hdone.describes hdatabase,
          List.append_assoc _ _ _, htell, hregistration, .inr ⟨error, rfl, rfl⟩⟩

/-- Whatever the services answer: the catalog is asked for nothing before the work of the extraction
is done, and for no partition before its table is registered. So if an entity failed, nothing was
asked of the catalog, or the error is the one of the registration. If it succeeded and there is a
database, just the table that the work describes was registered, and behind it the partition of the
run, and both went well. -/
theorem published_behind_work (log : List (Exchange services)) (result : TaskResult)
    (ht : Trace (resultOf c e) log result) :
    (∀ before x after, log = before ++ x :: after → x.request.kind = .catalog →
      ∃ (w : Work) (asked : List (Exchange services)) (t : Catalog.Table) (p : Catalog.Partition),
        w.Done c e ∧ w.Describes c e t p ∧ before = w.log c e ++ asked ∧
        (x.request.isPlacing = true →
          ∃ tabling placing, asked = tabling ++ placing ∧ t.Entered tabling)) ∧
    (result.status = TaskResult.failedStatus → Unpublished log ∨
      ∃ (w : Work) (asked ending : List (Exchange services)) (t : Catalog.Table)
        (p : Catalog.Partition) (error : ExtractError), w.Done c e ∧ w.Describes c e t p ∧
        log = w.log c e ++ (asked ++ ending) ∧ Unpublished ending ∧
        Catalog.Registration t p asked (.error error) ∧
        result = TaskResult.failure e.name error.message) ∧
    (result.status = TaskResult.successStatus → ∀ database, c.database = some database →
      ∃ (w : Work) (tabling placing ending : List (Exchange services)) (t : Catalog.Table)
        (p : Catalog.Partition), w.Done c e ∧ w.Describes c e t p ∧
        log = w.log c e ++ (tabling ++ placing ++ ending) ∧ t.Entered tabling ∧
        p.Entered t placing ∧ Unpublished ending) := by
  have hdiffer : TaskResult.failedStatus ≠ TaskResult.successStatus := by
    simp [TaskResult.failedStatus, TaskResult.successStatus]
  rcases shape_of_trace_resultOf ht with
    ⟨hnone, hdatabase⟩ |
      ⟨w, t, p, asked, ending, outcome, hdone, hdescribes, rfl, hending, hasked, houtcome⟩
  · refine ⟨?_, fun _ => .inl hnone, fun hsuccess database h => ?_⟩
    · rintro before x after rfl hkind
      exact absurd hkind (hnone x (by simp))
    · cases (hdatabase hsuccess).symm.trans h
  refine ⟨?_, ?_, ?_⟩
  · intro before x after heq hkind
    -- the exchange stands neither in the work nor behind the registration
    obtain ⟨between, rfl, hbetween⟩ :=
      exists_append_of_not_mem (fun hx => hdone.unpublished x hx hkind) heq.symm
    obtain ⟨later, hasked'⟩ :=
      exists_append_of_not_mem_right (fun hx => hending x hx hkind) hbetween.symm
    exact ⟨w, between, t, p, hdone, hdescribes, rfl,
      fun hplacing => hasked.registered_of_placing hasked' hplacing⟩
  · intro hfailed
    rcases houtcome with ⟨-, hsuccess⟩ | ⟨error, rfl, rfl⟩
    · exact absurd (hfailed.symm.trans hsuccess) hdiffer
    · exact .inr ⟨w, asked, ending, t, p, error, hdone, hdescribes, rfl, hending, hasked, rfl⟩
  · intro hsuccess _ _
    rcases houtcome with ⟨rfl, -⟩ | ⟨error, -, rfl⟩
    · cases hasked with
      | placed tabling placing registered placed htable hpartition =>
        exact ⟨w, tabling, placing, ending, t, p, hdone, hdescribes, rfl,
          Catalog.entered_of_trace_registerTable htable,
          Catalog.entered_of_trace_registerPartition hpartition, hending⟩
    · exact absurd hsuccess hdiffer

/-- The table or the partition that an exchange adds to the catalog. -/
def added? : Exchange services → Option (Catalog.Table ⊕ Catalog.Partition)
  | ⟨.createTable table, .ok ()⟩ => some (.inl table)
  | ⟨.addPartition _ _ partition, .ok ()⟩ => some (.inr partition)
  | _ => none

/-- The run with a catalog attached: its file is still missing. -/
theorem published_staged :
    ∃ log result, ∃ (w : Work) (tabling placing ending : List (Exchange services)),
      ∃ (t : Catalog.Table) (p : Catalog.Partition),
        Trace (resultOf { Local.stagedRun with database := some "raw" } { name := "Account" }) log
          result ∧ result.status = TaskResult.successStatus ∧
        log.filterMap added? =
          [.inl ⟨"raw", "account", "/out/Account", ["Id", "IsDeleted"], ["run_id"]⟩,
            .inr ⟨["r"], "/out/Account/run_id=r"⟩] ∧
        w.Describes { Local.stagedRun with database := some "raw" } { name := "Account" } t p ∧
        log = w.log { Local.stagedRun with database := some "raw" } { name := "Account" } ++
          (tabling ++ placing ++ ending) ∧
        t.Entered tabling ∧ p.Entered t placing := by
  let c : RunContext := { Local.stagedRun with database := some "raw" }
  let host : Local.Host := ({ catalog := some ⟨"/catalog.json", []⟩ }, Local.stagedHost.2)
  have ht := Program.trace_play (Local.respond Local.stagedPlaces)
    (resultOf c { name := "Account" }) host
  -- one run is evaluated for both of its outcomes
  have hplayed : ((Program.play (Local.respond Local.stagedPlaces)
        (resultOf c { name := "Account" }) host).1.filterMap added?,
      (Program.play (Local.respond Local.stagedPlaces)
        (resultOf c { name := "Account" }) host).2.1.status) =
      ([.inl ⟨"raw", "account", "/out/Account", ["Id", "IsDeleted"], ["run_id"]⟩,
        .inr ⟨["r"], "/out/Account/run_id=r"⟩], TaskResult.successStatus) := by
    decide +kernel
  obtain ⟨hadded, hsuccess⟩ := Prod.mk.inj hplayed
  obtain ⟨-, -, hregistered⟩ := published_behind_work _ _ ht
  obtain ⟨w, tabling, placing, ending, t, p, -, hdescribes, hlog, htable, hpartition, -⟩ :=
    hregistered hsuccess "raw" rfl
  exact ⟨_, _, w, tabling, placing, ending, t, p, ht, hsuccess, hadded, hdescribes, hlog, htable,
    hpartition⟩

end Run

end Harvest
