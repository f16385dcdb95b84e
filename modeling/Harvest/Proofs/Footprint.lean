import Harvest.Extraction
import Harvest.Proofs.Engine

/-!
# What a program asks for

Requests fall into kinds, and `Program.Asks` says which kinds a program makes, whatever the replies
are. Each part of an extraction has its lemma here. What a part does not ask for is then known of
all its traces, without another look at its definition.
-/

namespace Harvest

open Program (Trace Exchange)

/-- What a request is about. -/
inductive Request.Kind
  | create
  | status
  | close
  /-- The batches of a job. -/
  | batch
  /-- The list of results of a batch. -/
  | results
  | stream
  /-- Counts and watermarks. -/
  | query
  | fetch
  | openSink (entity run : String)
  | write
  | finish
  | drop
  | catalog
  | time
  | report
  | tell
  deriving DecidableEq, Repr

def Request.kind : Request → Request.Kind
  | .createJob _ => .create
  | .jobStatus _ => .status
  | .closeJob _ => .close
  | .submitBatch _ _ => .batch
  | .batchStatus _ _ => .batch
  | .listBatches _ => .batch
  | .listResults _ _ => .results
  | .openResult _ _ => .stream
  | .recordCount _ => .query
  | .highWatermark _ _ => .query
  | .fetchRecords _ => .fetch
  | .openSink entity run => .openSink entity run
  | .writeBatch _ => .write
  | .finishSink => .finish
  | .dropSink => .drop
  | .getTable _ _ => .catalog
  | .createTable _ => .catalog
  | .alterTable _ => .catalog
  | .getPartition _ _ _ => .catalog
  | .addPartition _ _ _ => .catalog
  | .alterPartition _ _ _ => .catalog
  | .sleep _ => .time
  | .clock => .time
  | .saveReport _ _ => .report
  | .tellFailure _ _ => .tell

/-- Every request of the program is of one of the kinds. -/
def Program.Asks {α : Type} (kinds : List Request.Kind) : Program services α → Prop
  | .done _ => True
  | .ask r next => r.kind ∈ kinds ∧ ∀ reply, (next reply).Asks kinds

namespace Program.Asks

variable {α β : Type} {kinds kinds' : List Request.Kind}

theorem ask {r : Request} {next : r.Reply → Program services α}
    (h : kinds.contains r.kind = true) (hnext : ∀ reply, (next reply).Asks kinds) :
    Asks kinds (.ask r next) :=
  ⟨List.contains_iff_mem.1 h, hnext⟩

theorem request (r : Request) (h : kinds.contains r.kind = true) :
    (Program.request (S := services) r).Asks kinds :=
  ask h fun _ => trivial

theorem mono {p : Program services α} (h : p.Asks kinds) (hkinds : kinds ⊆ kinds') :
    p.Asks kinds' := by
  induction p with
  | done value => trivial
  | ask r next ih => exact ⟨hkinds h.1, fun reply => ih reply (h.2 reply)⟩

theorem bind {p : Program services α} {f : α → Program services β} (h : p.Asks kinds)
    (hf : ∀ a, (f a).Asks kinds) : (p.bind f).Asks kinds := by
  induction p with
  | done value => exact hf value
  | ask r next ih => exact ⟨h.1, fun reply => ih reply (h.2 reply)⟩

theorem of_trace {p : Program services α} (h : p.Asks kinds) {log : List (Exchange services)}
    {value : α} (ht : Trace p log value) : ∀ x ∈ log, x.request.kind ∈ kinds := by
  induction ht with
  | done value => simp
  | ask r next reply log value ht ih => exact List.forall_mem_cons.2 ⟨h.1, ih (h.2 reply)⟩

/-- Two programs of the engine in sequence. -/
theorem andThen {x : Engine α} {f : α → Engine β} (h : Asks kinds x)
    (hf : ∀ a, Asks kinds (f a)) : Asks kinds (x >>= f : Engine β) :=
  bind h fun
    | .ok a => hf a
    | .error _ => trivial

theorem ofTotal {p : Program services α} (h : p.Asks kinds) : Asks kinds (Engine.ofTotal p) :=
  bind h fun _ => trivial

theorem ofExcept (r : Except ExtractError α) : Asks kinds (ofExcept r : Engine α) := by
  cases r <;> trivial

theorem onError {cleanup : Program services Unit} {body : Engine α} (hbody : Asks kinds body)
    (hcleanup : cleanup.Asks kinds) : Asks kinds (Engine.onError cleanup body) :=
  bind hbody fun
    | .ok _ => trivial
    | .error _ => bind hcleanup fun _ => trivial

end Program.Asks

/-- What is picked of exchanges of one kind is picked of no others. -/
theorem filterMap_eq_nil_of_kinds {β : Type} {f : Exchange services → Option β}
    {kind : Request.Kind} {kinds : List Request.Kind} {log : List (Exchange services)}
    (hf : ∀ x, x.request.kind ≠ kind → f x = none) (h : ∀ x ∈ log, x.request.kind ∈ kinds)
    (hkind : kind ∉ kinds) : log.filterMap f = [] :=
  List.filterMap_eq_nil_iff.2 fun x hx => hf x fun heq => hkind (heq ▸ h x hx)

open Program Engine

namespace Polling

theorem asks_settle (job : String) (interval : Nat) (id : String) (patience : Nat)
    (batch : BatchInfo) : Asks [.batch, .time] (settle job interval id patience batch) := by
  induction patience generalizing batch with
  | zero =>
    rw [settle]
    split <;> trivial
  | succ patience ih =>
    rw [settle]
    split
    · trivial
    · exact .andThen (.ofTotal (.request _ rfl)) fun _ =>
        .andThen (.request _ rfl) ih

theorem asks_waitEach (job : String) (interval patience : Nat) (bs : List BatchInfo) :
    Asks [.batch, .time] (waitEach job interval patience bs) := by
  induction bs with
  | nil => trivial
  | cons child rest ih =>
    refine .andThen (.andThen (.request _ rfl) fun batch => ?_) fun refreshed => ?_
    · exact asks_settle job interval child.id patience batch
    · split
      · trivial
      · exact .andThen ih fun _ => trivial

end Polling

theorem asks_collectResults (job : String) (bs : List BatchInfo) :
    Asks [.results] (collectResults job bs) := by
  induction bs with
  | nil => trivial
  | cons b bs ih =>
    rw [collectResults]
    split
    · exact .andThen (.request _ rfl) fun _ => .andThen ih fun _ => trivial
    · exact ih

namespace OpenJob

variable (job : OpenJob)

theorem asks_shut : Asks [.status, .close] job.shut :=
  .andThen (.request _ rfl) fun status => by
    split
    · trivial
    · exact .request _ rfl

theorem asks_close : job.close.Asks [.status, .close] := by
  rw [close]
  split
  · trivial
  · exact .bind job.asks_shut fun result => by cases result <;> trivial

theorem asks_drop : job.drop.Asks [.status, .close] := .bind job.asks_close fun _ => trivial

theorem asks_guarding {α : Type} {kinds : List Request.Kind} {body : Engine α}
    (h : Asks kinds body) (hkinds : [.status, .close] ⊆ kinds) : Asks kinds (job.guarding body) :=
  .onError h (job.asks_drop.mono hkinds)

end OpenJob

namespace JobPlan

variable (plan : JobPlan)

theorem asks_expectedCount (known : Option Nat) : Asks [.query] (plan.expectedCount known) := by
  cases known with
  | some n => trivial
  | none => exact .request _ rfl

theorem asks_useChunking (settings : Settings) : Asks [.query] (plan.useChunking settings) := by
  rw [useChunking]
  split
  · trivial
  · split
    · trivial
    · exact .andThen (plan.asks_expectedCount _) fun _ => trivial

theorem asks_awaitChunks (job : String) (interval patience : Nat) :
    Asks [.batch, .time] (plan.awaitChunks job interval patience) := by
  refine .andThen (.request _ rfl) fun batches =>
    .andThen (Polling.asks_waitEach job interval patience _) fun children => ?_
  split
  · exact .andThen (.ofExcept _) fun _ => trivial
  · trivial

theorem asks_await (job : String) (chunked : Bool) (interval allPatience patience : Nat)
    (batch : BatchInfo) :
    Asks [.batch, .time] (plan.await job chunked interval allPatience patience batch) := by
  induction patience generalizing batch with
  | zero =>
    unfold await
    split
    · trivial
    · trivial
    · split
      · exact plan.asks_awaitChunks job interval allPatience
      · trivial
  | succ patience ih =>
    unfold await
    split
    · trivial
    · trivial
    · split
      · exact plan.asks_awaitChunks job interval allPatience
      · exact .andThen (.ofTotal (.request _ rfl)) fun _ =>
          .andThen (.request _ rfl) ih

/-- The number of rows that tells how long to wait for a job: those of a chunk, or all of them. -/
def rows (settings : Settings) (chunked : Bool) (known : Option Nat) : Engine Nat :=
  if chunked then pure settings.chunkSize else plan.expectedCount known

/-- Waits for the batch that was submitted and lists the results. -/
def gather (job : OpenJob) (chunked : Bool) (interval patience : Nat) (id : String) :
    Engine PreparedJob := do
  let primary ← batchStatus job.id id
  let batches ← plan.await job.id chunked interval patience patience primary
  let references ← collectResults job.id batches
  pure ⟨job, references, chunked, interval⟩

theorem finish_eq (settings : Settings) (patience : Nat) (job : OpenJob) (chunked : Bool)
    (known : Option Nat) :
    plan.finish settings patience job chunked known = (do
      let submitted ← submitBatch job.id plan.query
      let rows ← plan.rows settings chunked known
      plan.gather job chunked (pollInterval rows) patience submitted.id) := by
  cases chunked <;> rfl

theorem asks_rows (settings : Settings) (chunked : Bool) (known : Option Nat) :
    Asks [.query] (plan.rows settings chunked known) := by
  cases chunked with
  | true => trivial
  | false => exact plan.asks_expectedCount known

theorem asks_gather (job : OpenJob) (chunked : Bool) (interval patience : Nat) (id : String) :
    Asks [.batch, .results, .time] (plan.gather job chunked interval patience id) := by
  refine .andThen (.request _ rfl) fun primary => .andThen ?_ fun batches =>
    .andThen ?_ fun references => trivial
  · exact (plan.asks_await _ _ _ _ _ _).mono (by decide)
  · exact (asks_collectResults _ _).mono (by decide)

theorem asks_finish (settings : Settings) (patience : Nat) (job : OpenJob) (chunked : Bool)
    (known : Option Nat) :
    Asks [.batch, .results, .query, .time] (plan.finish settings patience job chunked known) := by
  rw [finish_eq]
  refine .andThen (.request _ rfl) fun submitted => .andThen ?_ fun rows => ?_
  · exact (plan.asks_rows settings chunked known).mono (by decide)
  · exact (plan.asks_gather _ _ _ _ _).mono (by decide)

theorem asks_prepare (settings : Settings) (patience : Nat) :
    Asks [.create, .status, .close, .batch, .results, .query, .time]
      (plan.prepare settings patience) := by
  refine .andThen ((plan.asks_useChunking settings).mono (by decide)) fun ⟨chunked, known⟩ => ?_
  refine .andThen (.request _ rfl) fun created => .andThen ?_ fun info => ?_
  · exact OpenJob.asks_guarding _ (.request _ rfl) (by decide)
  · exact OpenJob.asks_guarding _ ((plan.asks_finish _ _ _ _ _).mono (by decide)) (by decide)

/-- The job is prepared, its results being listed behind exchanges of some kinds. -/
def ListsLast (kinds : List Request.Kind) (p : PreparedJob) (log : List (Exchange services)) :
    Prop :=
  ∃ before batches listed, log = before ++ listed ∧ (∀ x ∈ before, x.request.kind ∈ kinds) ∧
    Trace (collectResults p.job.id batches) listed (.ok p.references)

theorem ListsLast.append {kinds kinds' : List Request.Kind} {p : PreparedJob}
    {first log : List (Exchange services)} (h : ListsLast kinds p log) (hkinds : kinds ⊆ kinds')
    (hfirst : ∀ x ∈ first, x.request.kind ∈ kinds') : ListsLast kinds' p (first ++ log) := by
  obtain ⟨before, batches, listed, rfl, hbefore, hlisted⟩ := h
  refine ⟨first ++ before, batches, listed, (List.append_assoc _ _ _).symm, ?_, hlisted⟩
  exact List.forall_mem_append.2 ⟨hfirst, fun x hx => hkinds (hbefore x hx)⟩

theorem ListsLast.kinds {kinds : List Request.Kind} {p : PreparedJob}
    {log : List (Exchange services)} (h : ListsLast kinds p log) :
    ∀ x ∈ log, x.request.kind ∈ .results :: kinds := by
  obtain ⟨before, batches, listed, rfl, hbefore, hlisted⟩ := h
  refine List.forall_mem_append.2 ⟨fun x hx => List.mem_cons_of_mem _ (hbefore x hx), ?_⟩
  exact ((asks_collectResults _ _).mono (by simp)).of_trace hlisted

variable {plan} {settings : Settings} {patience : Nat} {log : List (Exchange services)}
  {p : PreparedJob}

theorem ok_of_trace_gather {job : OpenJob} {chunked : Bool} {interval : Nat} {id : String}
    (ht : Trace (plan.gather job chunked interval patience id) log (.ok p)) :
    p.job = job ∧ p.chunked = chunked ∧ p.interval = interval ∧
      ListsLast [.batch, .time] p log := by
  obtain ⟨primary, polled, rest₁, rfl, hasked, h₁⟩ := ok_of_trace_bind ht
  obtain ⟨batches, awaited, rest₂, rfl, hawaited, h₂⟩ := ok_of_trace_bind h₁
  obtain ⟨references, listed, last, rfl, hlisted, hlast⟩ := ok_of_trace_bind h₂
  obtain ⟨rfl, heq⟩ := (trace_pure_iff last _ _).1 hlast
  cases heq
  have hstatus : Asks [.batch, .time] (batchStatus job.id id) := .request _ rfl
  have hlists : ListsLast [.batch, .time] ⟨job, references, chunked, interval⟩ listed :=
    ⟨[], batches, listed, rfl, List.forall_mem_nil _, hlisted⟩
  have hwaited := (plan.asks_await _ _ _ _ _ _).of_trace hawaited
  rw [List.append_nil]
  exact ⟨rfl, rfl, rfl, (hlists.append (fun _ h => h) hwaited).append (fun _ h => h)
    (hstatus.of_trace hasked)⟩

theorem ok_of_trace_finish {job : OpenJob} {chunked : Bool} {known : Option Nat}
    (ht : Trace (plan.finish settings patience job chunked known) log (.ok p)) :
    p.job = job ∧ ListsLast [.batch, .query, .time] p log := by
  rw [finish_eq] at ht
  obtain ⟨submitted, first, rest, rfl, hfirst, hrest⟩ := ok_of_trace_bind ht
  obtain ⟨rows, counted, last, rfl, hcounted, hlast⟩ := ok_of_trace_bind hrest
  obtain ⟨hjob, -, -, hlists⟩ := ok_of_trace_gather hlast
  have hsubmit : Asks [.batch, .query, .time] (submitBatch job.id plan.query) := .request _ rfl
  have hrows : Asks [.batch, .query, .time] (plan.rows settings chunked known) :=
    (plan.asks_rows settings chunked known).mono (by decide)
  exact ⟨hjob, (hlists.append (by decide) (hrows.of_trace hcounted)).append (fun _ h => h)
    (hsubmit.of_trace hfirst)⟩

theorem ok_of_trace_prepare (ht : Trace (plan.prepare settings patience) log (.ok p)) :
    ListsLast [.create, .status, .close, .batch, .query, .time] p log := by
  obtain ⟨⟨chunked, known⟩, first, rest, rfl, hfirst, hrest⟩ := ok_of_trace_bind ht
  obtain ⟨created, asked, rest₁, rfl, hasked, h₁⟩ := ok_of_trace_bind hrest
  obtain ⟨info, looked, rest₂, rfl, hlooked, h₂⟩ := ok_of_trace_bind h₁
  obtain ⟨-, hlast⟩ := ok_of_trace_finish (ok_of_trace_onError h₂)
  have hlook : Asks [.status, .close] (OpenJob.guarding _ (jobStatus created.id)) :=
    OpenJob.asks_guarding (.ofInfo created) (.request _ rfl) fun _ h => h
  refine (((hlast.append (by decide) ?_).append (fun _ h => h) ?_).append fun _ h => h) ?_
  · exact (hlook.mono (by decide)).of_trace hlooked
  · rw [(trace_request_iff asked (.createJob _) (.ok created)).1 hasked]
    exact List.forall_mem_singleton.2 List.mem_cons_self
  · exact ((plan.asks_useChunking settings).mono (by decide)).of_trace hfirst

end JobPlan

theorem Cursor.asks_recover (ctx : StreamContext) (budget : Nat) (fault : String) (c : Cursor) :
    (recover ctx budget fault c).Asks [.stream] := by
  induction budget generalizing fault c with
  | zero => trivial
  | succ budget ih =>
    refine .ask rfl fun reply => ?_
    cases reply with
    | error e => trivial
    | ok page =>
      dsimp only
      split
      · trivial
      · exact ih _ _

theorem Cursor.asks_next (ctx : StreamContext) (c : Cursor) : (c.next ctx).Asks [.stream] := by
  rw [next]
  split
  · trivial
  · trivial
  · exact asks_recover ctx _ _ _
  · trivial

namespace ResultReader

theorem asks_fetchPending (r : ResultReader) (pending : List ResultReference) :
    (fetchPending r pending).Asks [.stream] := by
  induction pending generalizing r with
  | nil => trivial
  | cons reference pending ih =>
    refine .ask rfl fun reply => ?_
    cases reply with
    | error e => trivial
    | ok page =>
      refine .bind (Cursor.asks_next _ _) fun outcome => ?_
      rcases outcome with e | ⟨_ | record, c⟩
      · trivial
      · exact ih _
      · trivial

theorem asks_next (r : ResultReader) : r.next.Asks [.stream] := by
  rw [next]
  split
  · trivial
  · split
    · exact asks_fetchPending r _
    · refine .bind (Cursor.asks_next _ _) fun outcome => ?_
      rcases outcome with e | ⟨_ | record, c⟩
      · trivial
      · exact asks_fetchPending _ _
      · trivial

end ResultReader

namespace Batcher

theorem asks_takeRows (n : Nat) (taken : List Record) (reader : ResultReader) :
    (takeRows n taken reader).Asks [.stream] := by
  induction n generalizing taken reader with
  | zero => trivial
  | succ n ih =>
    refine .bind reader.asks_next fun outcome => ?_
    rcases outcome with ⟨_ | _ | record, reader⟩
    · trivial
    · exact ih _ _
    · trivial

theorem asks_next (b : Batcher) : b.next.Asks [.stream] := by
  refine .bind (asks_takeRows _ _ _) fun outcome => ?_
  rcases outcome with ⟨_ | records, reader⟩ <;> trivial

end Batcher

namespace Catalog

theorem asks_registerTable (t : Table) : Asks [.catalog] (registerTable t) := by
  refine .andThen (.request _ rfl) fun found => ?_
  cases found with
  | none => exact .andThen (.request _ rfl) fun _ => trivial
  | some existing =>
    dsimp only
    split
    · trivial
    · exact .andThen (.request _ rfl) fun _ => trivial

theorem asks_registerPartition (t : Table) (p : Partition) :
    Asks [.catalog] (registerPartition t p) := by
  rw [registerPartition]
  split
  · trivial
  · refine .andThen (.request _ rfl) fun found => ?_
    cases found with
    | none => exact .andThen (.request _ rfl) fun _ => trivial
    | some existing =>
      dsimp only
      split
      · trivial
      · exact .andThen (.request _ rfl) fun _ => trivial

end Catalog

namespace Extraction

variable (c : RunContext) (e : EntityOptions)

theorem asks_composed {α : Type} {kinds : List Request.Kind} (r : Except QueryFault α) :
    Asks kinds (composed r) :=
  .ofExcept _

theorem asks_watermarkOf (predicates : List String) :
    Asks [.query] (watermarkOf e predicates) := by
  rw [watermarkOf]
  split
  · refine .andThen (.andThen (asks_composed _) fun query =>
      .andThen (.request _ rfl) fun value => ?_) fun _ => trivial
    cases value with
    | some value => exact .ofExcept _
    | none => trivial
  · trivial

theorem asks_fetchDeleted (predicates : List String) (rows : Nat) :
    Asks [.fetch, .write] (fetchDeleted c e predicates rows) := by
  refine .andThen (asks_composed _) fun query => .andThen (.request _ rfl) fun records => ?_
  cases records with
  | nil => trivial
  | cons record records => exact .andThen (.request _ rfl) fun _ => trivial

theorem asks_stream (predicates : List String) (deleted patience : Nat) (b : Batcher) :
    Asks [.stream, .fetch, .write] (stream c e predicates deleted patience b) := by
  induction patience generalizing deleted b with
  | zero => trivial
  | succ patience ih =>
    refine .andThen (.ofTotal (b.asks_next.mono (by decide))) fun pulled =>
      .andThen (.ofExcept _) fun pull => ?_
    cases pull with
    | batch batch => exact .andThen (.request _ rfl) fun _ => ih _ _
    | fallback =>
      exact .andThen ((asks_fetchDeleted c e predicates _).mono (by decide)) fun _ => ih _ _
    | finished => trivial

theorem asks_giveUp : giveUp.Asks [.drop] := .request _ rfl

theorem asks_closeJob (job : OpenJob) : Asks [.status, .close, .drop] (closeJob job) := by
  refine .andThen (.ofTotal (job.asks_close.mono (by decide))) fun ⟨outcome, after⟩ => ?_
  cases outcome with
  | ok _ => trivial
  | error _ =>
    exact .onError trivial (.bind (asks_giveUp.mono (by decide)) fun _ =>
      after.asks_drop.mono (by decide))

theorem asks_streaming (predicates : List String) (b : Batcher) :
    Asks [.openSink e.name c.run, .stream, .fetch, .write, .drop] (do
      openSink e.name c.run
      onError giveUp (stream c e predicates 0 c.patience b) : Engine Streamed) :=
  .andThen (.request _ (by simp [Request.kind])) fun _ =>
    .onError ((asks_stream c e predicates 0 c.patience b).mono (by simp))
      (asks_giveUp.mono (by simp))

theorem asks_collect (predicates : List String) (p : PreparedJob) :
    Asks [.openSink e.name c.run, .stream, .fetch, .write, .drop, .status, .close]
      (collect c e predicates p) :=
  .andThen (OpenJob.asks_guarding _ ((asks_streaming c e predicates _).mono (by simp)) (by simp))
    fun _ => .andThen ((asks_closeJob _).mono (by simp)) fun _ => trivial

theorem asks_register (summary : Summary) (columns : List String) :
    Asks [.catalog] (register c e summary columns) := by
  rw [register]
  split
  · trivial
  · exact .andThen (Catalog.asks_registerTable _) fun _ =>
      .andThen (Catalog.asks_registerPartition _ _) fun _ => trivial

/-- An extraction opens no other sink than the one of its entity, and saves no report. -/
theorem asks_extract :
    Asks [.create, .status, .close, .batch, .results, .query, .time, .openSink e.name c.run,
      .stream, .fetch, .write, .finish, .drop, .catalog] (extract c e) := by
  refine .andThen (.ofTotal (.request _ rfl)) fun begun => ?_
  refine .andThen (asks_composed _) fun predicates => ?_
  refine .andThen ((asks_watermarkOf e predicates).mono (by simp)) fun watermark => ?_
  refine .andThen (asks_composed _) fun query => .andThen (asks_composed _) fun countQuery => ?_
  refine .andThen ((JobPlan.asks_prepare _ _ _).mono (by simp)) fun prepared => ?_
  refine .andThen ((asks_collect c e predicates prepared).mono (by simp)) fun streamed => ?_
  refine .andThen (.onError (.request _ (by simp [Request.kind])) (asks_giveUp.mono (by simp)))
    fun summary => ?_
  refine .andThen ((asks_register c e summary _).mono (by simp)) fun _ => ?_
  exact .andThen (.ofTotal (.request _ rfl)) fun _ => trivial

end Extraction

end Harvest
