import Harvest.Proofs.Gzip.RoundTrip
import Harvest.Proofs.Job.Awaiting
import Harvest.Proofs.Local.Filing
import Harvest.Proofs.Staging.Registry
import Harvest.Proofs.Stream.Draining

/-!
# Splitting a job makes no difference

A machine serves what is staged on it. A job for an entity is prepared at once, with the references
to all pages of the entity, whether it is split or not (`Local.play_prepare`), so that the same
records are read from either (`Local.chunking_transparent`).
-/

namespace Harvest

open Program (play)
open Staging

/-- Whether a job is split: this is enabled, and no count says that a chunk holds all records. -/
def JobPlan.splits (plan : JobPlan) (settings : Settings) (count : Nat) : Bool :=
  settings.chunkingEnabled &&
    (settings.skipCountCheck || decide (settings.chunkSize < plan.expected.getD count))

/-- A program that ends well needs no cleanup. -/
theorem OpenJob.snd_play_guarding {α σ : Type} {answer : (r : Request) → σ → r.Reply × σ}
    (job : OpenJob) {body : Engine α} {a : α} {s s' : σ}
    (h : (play (S := services) answer body s).2 = (.ok a, s')) :
    (play (S := services) answer (job.guarding body) s).2 = (.ok a, s') := by
  rw [guarding, Engine.onError, Program.snd_play_bind (S := services)]
  rw [h]
  rfl

namespace Local

section Serving

variable {α : Type} {places : Places} {host : Host}

theorem onHost_storing {p : Storing α} {x : Except ExtractError α}
    (h : Program.onDisk p host.2.disk = (x, host.2.disk)) :
    onHost (storing p) host = (x, host) := by
  refine (onHost_ofDisk host p.run fun s x => .done (x, s)).trans ?_
  rw [ExceptT.run, h]
  rfl

theorem onHost_staged {p : Staged α} {x : Except ExtractError α} {g : Registry}
    (h : p.onDisk host.1.registry host.2.disk = ((x, g), host.2.disk)) :
    onHost (staged p) host = (x, { host.1 with registry := g }, host.2) := by
  -- the program starts from the registry of this host
  let fixed : Kept (Except ExtractError α) := fun s =>
    (Machine.ofDisk ((p.run.run Registry.answer).run host.1.registry)).bind fun answered =>
      .done (answered.1, { s with registry := answered.2 })
  have hfixed : staged p host.1 = fixed host.1 := rfl
  refine (onHost_congr hfixed).trans ((onHost_ofDisk host _ _).trans ?_)
  rw [Staged.onDisk] at h
  rw [h]
  rfl

theorem snd_play_request {r : Request} {p : Kept r.Reply} {reply : r.Reply} {host' : Host}
    (hp : answer places r = p) (h : onHost p host = (reply, host')) :
    (play (S := services) (respond places) (Program.request r) host).2 = (reply, host') :=
  Program.snd_play_ask (S := services) (respond places) ((respond_eq_onHost places host hp).trans h)

end Serving

section Requests

variable (places : Places) {host : Host} {pages : List StagedPage}

theorem play_createJob {r : JobRequest}
    (h : Stages host.2.disk (Path.join places.staging r.entity) pages) :
    ∃ host' id, (play (S := services) (respond places) (Engine.createJob r) host).2 =
        (.ok ⟨id, r.entity, r.operation, .opened⟩, host') ∧ host'.2 = host.2 ∧
      host'.1.registry.job? id = some ⟨⟨id, r.entity, r.operation, .opened⟩, r.chunkSize, []⟩ := by
  obtain ⟨g, id, hcreated, hjob⟩ := onDisk_createJob h host.1.registry
  refine ⟨({ host.1 with registry := g }, host.2), id, ?_, rfl, hjob⟩
  exact snd_play_request (r := .createJob r) rfl (onHost_staged hcreated)

theorem play_submitBatch {info : JobInfo} {size : Option Nat} (query : String)
    (h : Stages host.2.disk (Path.join places.staging info.entity) pages)
    (hjob : host.1.registry.job? info.id = some ⟨info, size, []⟩) (hopen : info.state = .opened) :
    ∃ host' k, (play (S := services) (respond places) (Engine.submitBatch info.id query) host).2 =
        (.ok ⟨nameOf "751" k, info.id,
          if size.isSome then .notProcessed else .completed, none⟩, host') ∧ host'.2 = host.2 ∧
      host'.1.registry.job? info.id = some ⟨info, size, batchesOf info.id k size.isSome
        (pages.map (·.file (Path.join places.staging info.entity)))⟩ := by
  obtain ⟨g, k, hsubmitted, hbatches⟩ := onDisk_submitBatch h hjob hopen
  refine ⟨({ host.1 with registry := g }, host.2), k, ?_, rfl, hbatches⟩
  exact snd_play_request (r := .submitBatch info.id query) rfl (onHost_staged hsubmitted)

theorem play_recordCount {entity query : String}
    (h : Stages host.2.disk (Path.join places.staging entity) pages)
    (hquery : Query.entity query = .ok entity) :
    (play (S := services) (respond places) (Engine.recordCount query) host).2 =
      (.ok (pages.flatMap StagedPage.records).length, host) :=
  snd_play_request (r := .recordCount query) rfl (onHost_storing (h.onDisk_recordCount hquery))

/-- The references to the pages of a job are served by the host as it is. -/
theorem gives_of_offers {job directory : String} {j : StagedJob} {bs : List StagedBatch}
    (hoffers : j.Offers bs directory pages) (hpages : Stages host.2.disk directory pages)
    (hjob : host.1.registry.job? job = some j) :
    List.Forall₂ (ResultReader.Gives (respond places) job (· = host))
      (bs.flatMap StagedBatch.references) (pages.map StagedPage.content) := by
  rw [List.forall₂_map_right_iff]
  refine (hoffers.onDisk_references hpages hjob).imp ?_
  rintro reference page hopened _ rfl
  have hreply : answer places (.openResult job reference) = staged (openResult job reference) := rfl
  exact ⟨_, (respond_eq_onHost places _ hreply).trans (onHost_staged hopened), rfl⟩

variable {job : String} {j : StagedJob} (hjob : host.1.registry.job? job = some j)
include hjob

theorem play_jobStatus :
    (play (S := services) (respond places) (Engine.jobStatus job) host).2 = (.ok j.info, host) :=
  snd_play_request (r := .jobStatus job) rfl (onHost_staged (onDisk_jobStatus hjob _))

theorem play_listBatches :
    (play (S := services) (respond places) (Engine.listBatches job) host).2 =
      (.ok (j.batches.map StagedBatch.info), host) :=
  snd_play_request (r := .listBatches job) rfl (onHost_staged (onDisk_listBatches hjob _))

variable (hids : (j.batches.map (·.info.id)).Nodup)
include hids

theorem play_batchStatus {b : StagedBatch} (hb : b ∈ j.batches) :
    (play (S := services) (respond places) (Engine.batchStatus job b.info.id) host).2 =
      (.ok b.info, host) :=
  snd_play_request (r := .batchStatus job b.info.id) rfl
    (onHost_staged (onDisk_batchStatus hjob hids hb _))

theorem play_listResults {b : StagedBatch} (hb : b ∈ j.batches) :
    (play (S := services) (respond places) (Engine.listResults job b.info.id) host).2 =
      (.ok b.references, host) :=
  snd_play_request (r := .listResults job b.info.id) rfl
    (onHost_staged (onDisk_listResults hjob hids hb _))

variable {bs : List StagedBatch} (hbs : ∀ b ∈ bs, b ∈ j.batches ∧ b.info.state = .completed)
include hbs

/-- The results of completed batches are collected. -/
theorem play_collectResults :
    (play (S := services) (respond places) (collectResults job (bs.map StagedBatch.info)) host).2 =
      (.ok (bs.flatMap StagedBatch.references), host) := by
  induction bs with
  | nil => rfl
  | cons b bs ih =>
    obtain ⟨⟨hb, hdone⟩, hothers⟩ := List.forall_mem_cons.1 hbs
    rw [List.map_cons, collectResults, if_pos hdone,
      Engine.snd_play_bind_ok (play_listResults places hjob hids hb),
      Engine.snd_play_bind_ok (ih hothers)]
    rfl

/-- Completed batches are waited for without delay. -/
theorem play_waitEach (interval patience : Nat) :
    (play (S := services) (respond places)
        (Polling.waitEach job interval patience (bs.map StagedBatch.info)) host).2 =
      (.ok (bs.map StagedBatch.info), host) := by
  induction bs with
  | nil => rfl
  | cons b bs ih =>
    obtain ⟨⟨hb, hdone⟩, hothers⟩ := List.forall_mem_cons.1 hbs
    have hterminal : b.info.state.isTerminal = true := by rw [hdone]; rfl
    have hone : (play (S := services) (respond places)
        (Polling.untilTerminal job b.info.id interval patience) host).2 = (.ok b.info, host) := by
      rw [Polling.untilTerminal, Engine.snd_play_bind_ok (play_batchStatus places hjob hids hb),
        Polling.settle_of_isTerminal job interval _ _ _ hterminal]
      rfl
    have hnot : b.info.state ≠ .failed := by rw [hdone]; decide
    rw [List.map_cons, Polling.waitEach, Engine.snd_play_bind_ok hone, if_neg hnot,
      Engine.snd_play_bind_ok (ih hothers)]
    rfl

end Requests

section Waiting

variable (places : Places) (plan : JobPlan) {host : Host} {info : JobInfo} {size : Option Nat}
  {k : Nat} {files : List (String × String)}

theorem play_awaitChunks (hsome : files ≠ [])
    (hjob : host.1.registry.job? info.id = some ⟨info, size, batchesOf info.id k true files⟩)
    (interval patience : Nat) :
    (play (S := services) (respond places) (plan.awaitChunks info.id interval patience) host).2 =
      (.ok ((childrenFrom info.id (k + 1) files).map StagedBatch.info), host) := by
  have hdone : ∀ b ∈ childrenFrom info.id (k + 1) files,
      b ∈ batchesOf info.id k true files ∧ b.info.state = .completed :=
    fun b hb => ⟨List.mem_cons_of_mem _ hb, completed_of_mem_childrenFrom hb⟩
  have hwaited := play_waitEach places hjob (nodup_batchesOf info.id k true files)
    hdone interval patience
  obtain ⟨last, hlast⟩ : ∃ last,
      ((childrenFrom info.id (k + 1) files).map StagedBatch.info).getLast? = some last := by
    obtain ⟨file, others, rfl⟩ := List.exists_cons_of_ne_nil hsome
    exact ⟨_, List.getLast?_eq_some_getLast (List.cons_ne_nil _ _)⟩
  have hlastDone : last.state = .completed := by
    obtain ⟨b, hb, rfl⟩ := List.mem_map.1 (List.mem_of_getLast? hlast)
    exact (hdone b hb).2
  have hnotFailed : last.ensureNotFailed plan.entity = .ok () := by
    rw [BatchInfo.ensureNotFailed, if_neg (by rw [hlastDone]; decide)]
  rw [JobPlan.awaitChunks, Engine.snd_play_bind_ok (play_listBatches places hjob)]
  refine (Engine.snd_play_bind_ok hwaited).trans ?_
  rw [hlast]
  dsimp only
  rw [hnotFailed]
  rfl

/-- The batch that was submitted needs no waiting, nor do the others if it was split. -/
theorem play_await {chunked : Bool} (hsome : files ≠ [])
    (hjob : host.1.registry.job? info.id = some ⟨info, size, batchesOf info.id k chunked files⟩)
    (interval allPatience patience : Nat) :
    (play (S := services) (respond places) (plan.await info.id chunked interval allPatience patience
        ⟨nameOf "751" k, info.id, if chunked then .notProcessed else .completed, none⟩) host).2 =
      (.ok (((batchesOf info.id k chunked files).drop chunked.toNat).map StagedBatch.info),
        host) := by
  cases chunked with
  | false =>
    rw [JobPlan.await_of_completed]
    · rfl
    · rfl
  | true =>
    rw [JobPlan.await_of_split]
    · exact play_awaitChunks places plan hsome hjob interval allPatience
    · rfl
    · rfl

end Waiting

section Preparing

variable (places : Places) (plan : JobPlan) {host : Host} {pages : List StagedPage}

theorem play_expectedCount
    (hpages : Stages host.2.disk (Path.join places.staging plan.entity) pages) {known : Option Nat}
    (hknown : known = none → Query.entity plan.countQuery = .ok plan.entity) :
    (play (S := services) (respond places) (plan.expectedCount known) host).2 =
      (.ok (known.getD (pages.flatMap StagedPage.records).length), host) := by
  cases known with
  | some n => rfl
  | none => exact play_recordCount places hpages (hknown rfl)

theorem play_useChunking
    (hpages : Stages host.2.disk (Path.join places.staging plan.entity) pages)
    (hcount : plan.expected = none → Query.entity plan.countQuery = .ok plan.entity)
    (settings : Settings) :
    ∃ known, (known = none → plan.expected = none) ∧
      (play (S := services) (respond places) (plan.useChunking settings) host).2 =
        (.ok (plan.splits settings (pages.flatMap StagedPage.records).length, known), host) := by
  unfold JobPlan.useChunking JobPlan.splits
  cases settings.chunkingEnabled with
  | false => exact ⟨plan.expected, id, rfl⟩
  | true =>
    cases settings.skipCountCheck with
    | true => exact ⟨plan.expected, id, rfl⟩
    | false =>
      refine ⟨some (plan.expected.getD (pages.flatMap StagedPage.records).length), nofun, ?_⟩
      exact Engine.snd_play_bind_ok (play_expectedCount places plan hpages hcount)

/-- The query is submitted to a new job, and its results are those of all pages. -/
theorem play_finish {info : JobInfo} {size : Option Nat}
    (hpages : Stages host.2.disk (Path.join places.staging info.entity) pages)
    (hentity : info.entity = plan.entity) (hsome : pages ≠ [])
    (hjob : host.1.registry.job? info.id = some ⟨info, size, []⟩) (hopen : info.state = .opened)
    {known : Option Nat} (hknown : known = none → Query.entity plan.countQuery = .ok plan.entity)
    (settings : Settings) (patience : Nat) :
    ∃ prepared host', (play (S := services) (respond places)
          (plan.finish settings patience (.ofInfo info) size.isSome known) host).2 =
        (.ok prepared, host') ∧ host'.2 = host.2 ∧ prepared.job = .ofInfo info ∧
      prepared.chunked = size.isSome ∧
      List.Forall₂ (ResultReader.Gives (respond places) info.id (· = host')) prepared.references
        (pages.map StagedPage.content) := by
  obtain ⟨host', k, hsubmitted, hmachine, hjob'⟩ :=
    play_submitBatch places plan.query hpages hjob hopen
  rw [← hmachine] at hpages
  have hoffers := offers_batchesOf info size k size.isSome
    (Path.join places.staging info.entity) pages
  obtain ⟨primary, hprimary, hinfo⟩ := exists_mem_batchesOf info.id k size.isSome
    (pages.map (·.file (Path.join places.staging info.entity)))
  have hstatus := play_batchStatus places hjob' hoffers.ids hprimary
  rw [hinfo] at hstatus
  obtain ⟨rows, hrows⟩ : ∃ rows, (play (S := services) (respond places)
      (plan.rows settings size.isSome known) host').2 = (.ok rows, host') := by
    rw [hentity] at hpages
    cases size.isSome with
    | true => exact ⟨settings.chunkSize, rfl⟩
    | false => exact ⟨_, play_expectedCount places plan hpages hknown⟩
  have hawaited := play_await places plan (mt List.map_eq_nil_iff.1 hsome) hjob'
    (pollInterval rows) patience patience
  have hcollected := play_collectResults places hjob' hoffers.ids
    fun b hb => ⟨hoffers.members b hb, hoffers.completed b hb⟩
  refine ⟨⟨.ofInfo info, _, size.isSome, pollInterval rows⟩, host', ?_, hmachine, rfl, rfl,
    gives_of_offers places hoffers hpages hjob'⟩
  rw [JobPlan.finish_eq]
  exact (Engine.snd_play_bind_ok hsubmitted).trans <| (Engine.snd_play_bind_ok hrows).trans <|
    (Engine.snd_play_bind_ok hstatus).trans <| (Engine.snd_play_bind_ok hawaited).trans <|
    Engine.snd_play_bind_ok hcollected

/-- Whether a job is split or not, all pages of its entity are its results. -/
theorem play_prepare (hpages : Stages host.2.disk (Path.join places.staging plan.entity) pages)
    (hsome : pages ≠ [])
    (hcount : plan.expected = none → Query.entity plan.countQuery = .ok plan.entity)
    (settings : Settings) (patience : Nat) :
    ∃ prepared host', (play (S := services) (respond places) (plan.prepare settings patience)
          host).2 = (.ok prepared, host') ∧ host'.2 = host.2 ∧
      prepared.chunked = plan.splits settings (pages.flatMap StagedPage.records).length ∧
      List.Forall₂ (ResultReader.Gives (respond places) prepared.job.id (· = host'))
        prepared.references (pages.map StagedPage.content) := by
  obtain ⟨known, hknown, hdecided⟩ := play_useChunking places plan hpages hcount settings
  generalize plan.splits settings (pages.flatMap StagedPage.records).length = chunked at hdecided ⊢
  obtain ⟨opened, id, hcreated, hmachine, hjob⟩ := play_createJob places
    (r := ⟨plan.entity, settings.operation, .parallel, .csv,
      if chunked then some settings.chunkSize else none⟩) hpages
  let info : JobInfo := ⟨id, plan.entity, settings.operation, .opened⟩
  have hopened : info.state = .opened := rfl
  have hstatus := OpenJob.snd_play_guarding (.ofInfo info) (play_jobStatus places hjob)
  rw [← hmachine] at hpages
  obtain ⟨prepared, host', hfinished, hlast, hopen, hchunked, hgives⟩ := play_finish places plan
    hpages rfl hsome hjob hopened (fun h => hcount (hknown h)) settings patience
  have hsize : (if chunked then some settings.chunkSize else none).isSome = chunked := by
    cases chunked <;> rfl
  dsimp only at hfinished hchunked
  rw [hsize] at hfinished hchunked
  refine ⟨prepared, host', ?_, hlast.trans hmachine, hchunked, ?_⟩
  · exact (Engine.snd_play_bind_ok hdecided).trans <| (Engine.snd_play_bind_ok hcreated).trans <|
      (Engine.snd_play_bind_ok hstatus).trans <| OpenJob.snd_play_guarding _ hfinished
  · rw [hopen]
    exact hgives

end Preparing

/-- Whether a job is split or not makes no difference to what is read of it: from all references
come the records of all pages in their order, and as many of them are counted. -/
theorem chunking_transparent {places : Places} {host : Host} {plan : JobPlan}
    {pages : List StagedPage}
    (hpages : Stages host.2.disk (Path.join places.staging plan.entity) pages) (hsome : pages ≠ [])
    (hcount : plan.expected = none → Query.entity plan.countQuery = .ok plan.entity) :
    (∀ (settings : Settings) (patience : Nat), ∃ prepared host',
      (play (S := services) (respond places) (plan.prepare settings patience) host).2 =
        (.ok prepared, host') ∧ host'.2 = host.2 ∧
      prepared.chunked = plan.splits settings (pages.flatMap StagedPage.records).length ∧
      ∀ context : StreamContext, context.job = prepared.job.id → ∀ n,
        (play (S := services) (respond places)
            ((ResultReader.start context prepared.references).fetches n) host').2.1.1 =
          ResultReader.drained n (pages.flatMap StagedPage.records)) ∧
    ∀ query, Query.entity query = .ok plan.entity →
      (respond places (.recordCount query) host : Except ExtractError Nat × Host).1 =
        .ok (pages.flatMap StagedPage.records).length := by
  refine ⟨?_, ?_⟩
  · intro settings patience
    obtain ⟨prepared, host', hprepared, hmachine, hchunked, hgives⟩ :=
      play_prepare places plan hpages hsome hcount settings patience
    refine ⟨prepared, host', hprepared, hmachine, hchunked, ?_⟩
    rintro context hcontext n
    rw [← hcontext] at hgives
    rw [ResultReader.play_fetches hgives rfl n, List.flatMap_map]
    rfl
  · intro query hquery
    have hcounted := play_recordCount places hpages hquery
    exact congrArg Prod.fst hcounted

/-- A host on which three pages are staged: a compressed one, one with a blank line and rows of
unequal lengths, and one that is a header alone. -/
def pagedHost : Host :=
  ({}, ⟨⟨[(["in"], .directory), (["Account", "in"], .directory),
      (["b.csv", "Account", "in"], .file (Utf8.encodeString "Id,Name\n1\n\n2,x,y\n")),
      (["notes.txt", "Account", "in"], .file []),
      (["deleted", "Account", "in"], .directory),
      (["a.csv.gz", "Account", "in"], .file (Gzip.compress (Utf8.encodeString "Id\n3\n"))),
      (["c.csv", "Account", "in"], .file (Utf8.encodeString "Id\n"))],
    []⟩, ⟨2024, 1, 1, 0, 0, 0⟩, []⟩)

def pagedPages : List StagedPage :=
  [⟨"a", true, "Id\n3\n"⟩, ⟨"b", false, "Id,Name\n1\n\n2,x,y\n"⟩, ⟨"c", false, "Id\n"⟩]

def pagedRecords : List Record :=
  [.ofFields ["Id"] ["3"], .ofFields ["Id", "Name"] ["1"], .ofFields ["Id", "Name"] ["2", "x", "y"]]

def pagedPlan : JobPlan :=
  ⟨"Account", "SELECT Id FROM Account", "SELECT COUNT() FROM Account", none⟩

theorem stages_pagedHost :
    Stages pagedHost.2.disk (Path.join stagedPlaces.staging pagedPlan.entity) pagedPages where
  files := by
    refine ⟨["Account", "in"], eq_ok_of_toOption (by decide +kernel), by decide +kernel, ?_⟩
    decide +kernel
  ordered := by decide +kernel
  holds := by
    intro page hpage
    simp only [pagedPages, List.mem_cons, List.not_mem_nil, or_false] at hpage
    rcases hpage with rfl | rfl | rfl
    · refine ⟨Gzip.compress (Utf8.encodeString "Id\n3\n"),
        eq_ok_of_toOption (by decide +kernel), ?_⟩
      rw [if_pos rfl]
      exact Gzip.expand_compress _
    · exact ⟨_, eq_ok_of_toOption (by decide +kernel), rfl⟩
    · exact ⟨_, eq_ok_of_toOption (by decide +kernel), rfl⟩

theorem chunking_transparent_paged :
    pagedPlan.splits { chunkingEnabled := true, chunkSize := 2 } pagedRecords.length = true ∧
      pagedPlan.splits {} pagedRecords.length = false ∧
      (∀ (settings : Settings) (patience : Nat), ∃ prepared host',
        (play (S := services) (respond stagedPlaces) (pagedPlan.prepare settings patience)
          pagedHost).2 = (.ok prepared, host') ∧ host'.2 = pagedHost.2 ∧
        prepared.chunked = pagedPlan.splits settings pagedRecords.length ∧
        ∀ context : StreamContext, context.job = prepared.job.id → ∀ n,
          (play (S := services) (respond stagedPlaces)
              ((ResultReader.start context prepared.references).fetches n) host').2.1.1 =
            ResultReader.drained n pagedRecords) ∧
      ∀ query, Query.entity query = .ok "Account" →
        (respond stagedPlaces (.recordCount query) pagedHost : Except ExtractError Nat × Host).1 =
          .ok pagedRecords.length := by
  have hrecords : pagedPages.flatMap StagedPage.records = pagedRecords := by decide +kernel
  have hcount : Query.entity pagedPlan.countQuery = .ok pagedPlan.entity :=
    eq_ok_of_toOption (by decide +kernel)
  rw [← hrecords]
  exact ⟨by decide +kernel, by decide +kernel,
    chunking_transparent stages_pagedHost (by decide) fun _ => hcount⟩

end Local

end Harvest
