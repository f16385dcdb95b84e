import Harvest.Proofs.Staging.File
import Mathlib.Data.List.Forall2

/-!
# What the registry of staged jobs does

`Staged.onDisk` runs a client of staged results on a registry and a disk. A job that was created is
found again with the batches that were added to it (`onDisk_createJob`, `onDisk_submitBatch`). Names
that are given out differ (`nameOf_injective`), so each batch is found by its own name.
-/

namespace Harvest

open Disk (Memory)

namespace Text

/-- Padded digits are read back. -/
theorem ofDigitChars_padded (width n : Nat) : Nat.ofDigitChars 10 (padded width n) 0 = n := by
  have hzeros (k : Nat) : Nat.ofDigitChars 10 (List.replicate k '0') 0 = 0 := by
    induction k with
    | zero => rfl
    | succ k ih => exact ih
  rw [padded, Nat.ofDigitChars_append, hzeros]
  exact Nat.ofDigitChars_ten_toDigits

/-- Different numbers have different padded digits. -/
theorem padded_injective (width : Nat) : Function.Injective (padded width) :=
  Function.LeftInverse.injective (g := (Nat.ofDigitChars 10 · 0)) (ofDigitChars_padded width)

end Text

namespace Staged

open Staging

variable {α β : Type} {g g' : Registry} {m m' : Memory}

/-- What a program is done with on a registry and a disk, and both of them then. -/
def onDisk (p : Staged α) (g : Registry) (m : Memory) :
    (Except ExtractError α × Registry) × Memory :=
  Program.onDisk ((p.run.run Registry.answer).run g) m

theorem onDisk_bind_ok {x : Staged α} {f : α → Staged β} {a : α}
    (h : x.onDisk g m = ((.ok a, g'), m')) : (x >>= f).onDisk g m = (f a).onDisk g' m' := by
  have hrun : ((x >>= f).run.run Registry.answer).run g =
      ((x.run.run Registry.answer).run g).bind fun answered =>
        ((ExceptT.bindCont f answered.1).run Registry.answer).run answered.2 :=
    congrFun (Program.run_bind Registry.answer x.run (ExceptT.bindCont f)) g
  unfold onDisk at h ⊢
  rw [hrun, Program.onDisk_bind, h]
  rfl

theorem onDisk_ofStoring (p : Storing α) (g : Registry) (m : Memory) :
    (ofStoring p).onDisk g m = (((Program.onDisk p m).1, g), (Program.onDisk p m).2) := by
  have hprogram (p : Program Disk.service (Except ExtractError α)) (m : Memory) :
      onDisk (Program.run (m := Program Staging.service)
        (fun r => Program.request (S := Staging.service) (.disk r)) p : Staged α) g m =
        (((p.onDisk m).1, g), (p.onDisk m).2) := by
    induction p generalizing m with
    | done value => rfl
    | ask r next ih => exact ih _ _
  exact hprogram p m

theorem onDisk_allocate (lead : String) (g : Registry) (m : Memory) :
    (allocate lead).onDisk g m = ((.ok (g.allocate lead).1, (g.allocate lead).2), m) :=
  rfl

theorem onDisk_enter (job : StagedJob) (g : Registry) (m : Memory) :
    (enter job).onDisk g m = ((.ok (), g.enter job), m) :=
  rfl

theorem onDisk_look {job : String} {j : StagedJob} (h : g.job? job = some j) (m : Memory) :
    (look job).onDisk g m = ((.ok j, g), m) := by
  unfold onDisk look ofReply
  simp only [Program.request, Program.bind, ExceptT.run, Program.run_ask, Registry.answer,
    StateT.run_bind]
  simp only [StateT.run, bind, Program.bind, h]
  rfl

theorem onDisk_add {job : String} {j : StagedJob} (h : g.job? job = some j)
    (hopen : j.info.state = .opened) (batches : List StagedBatch) (m : Memory) :
    (add job batches).onDisk g m =
      ((.ok (), g.enter { j with batches := j.batches ++ batches }), m) := by
  have hadd : g.add job batches = (.ok (), g.enter { j with batches := j.batches ++ batches }) := by
    rw [Registry.add, h]
    simp only [hopen, if_true]
  change (((g.add job batches).1.mapError ExtractError.remote, (g.add job batches).2), m) = _
  rw [hadd]
  rfl

end Staged

namespace Staging

variable {g : Registry} {m : Memory}

theorem nameOf_injective (lead : String) : Function.Injective (nameOf lead) := by
  intro k n h
  have hdigits := congrArg String.toList h
  rw [nameOf, nameOf, String.toList_append, String.toList_append, String.toList_ofList,
    String.toList_ofList] at hdigits
  exact Text.padded_injective 12 (List.append_cancel_left hdigits)

section Batches

/-- The batches of files that become one batch each, their names being numbered from `k`. -/
def childrenFrom (job : String) : (k : Nat) → List (String × String) → List StagedBatch
  | _, [] => []
  | k, file :: rest =>
    ⟨⟨nameOf "751" k, job, .completed, none⟩, [file]⟩ :: childrenFrom job (k + 1) rest

/-- The batches of a job that got these files, the first name being numbered `k`. -/
def batchesOf (job : String) (k : Nat) (chunked : Bool) (files : List (String × String)) :
    List StagedBatch :=
  if chunked then ⟨⟨nameOf "751" k, job, .notProcessed, none⟩, []⟩ :: childrenFrom job (k + 1) files
  else [⟨⟨nameOf "751" k, job, .completed, none⟩, files⟩]

variable {job : String} {k : Nat} {chunked : Bool} {files : List (String × String)}

/-- The batch that was submitted is the first one. -/
theorem exists_mem_batchesOf (job : String) (k : Nat) (chunked : Bool)
    (files : List (String × String)) :
    ∃ b ∈ batchesOf job k chunked files, b.info = ⟨nameOf "751" k, job,
      if chunked then .notProcessed else .completed, none⟩ := by
  cases chunked with
  | false => exact ⟨_, List.mem_singleton_self _, rfl⟩
  | true => exact ⟨_, List.mem_cons_self, rfl⟩

theorem map_id_childrenFrom (job : String) (k : Nat) (files : List (String × String)) :
    (childrenFrom job k files).map (·.info.id) =
      (List.range' k files.length).map (nameOf "751") := by
  induction files generalizing k with
  | nil => rfl
  | cons file rest ih => simp [childrenFrom, List.range'_succ, ih]

theorem nodup_batchesOf (job : String) (k : Nat) (chunked : Bool) (files : List (String × String)) :
    ((batchesOf job k chunked files).map (·.info.id)).Nodup := by
  unfold batchesOf
  split
  · have hids : (nameOf "751" k :: (childrenFrom job (k + 1) files).map (·.info.id)) =
        (List.range' k (files.length + 1)).map (nameOf "751") := by
      rw [map_id_childrenFrom, List.range'_succ, List.map_cons]
    rw [List.map_cons, hids]
    exact List.Nodup.map (nameOf_injective "751") List.nodup_range'
  · exact List.nodup_singleton _

theorem flatMap_results_childrenFrom (job : String) (k : Nat) (files : List (String × String)) :
    (childrenFrom job k files).flatMap StagedBatch.results = files := by
  induction files generalizing k with
  | nil => rfl
  | cons file rest ih => simp [childrenFrom, ih]

theorem completed_of_mem_childrenFrom {b : StagedBatch} (h : b ∈ childrenFrom job k files) :
    b.info.state = .completed := by
  induction files generalizing k with
  | nil => cases h
  | cons file rest ih =>
    rcases List.mem_cons.1 h with rfl | hrest
    · rfl
    · exact ih hrest

end Batches

theorem onDisk_childBatches (job : String) (files : List (String × String)) (g : Registry)
    (m : Memory) :
    (childBatches job files).onDisk g m =
      ((.ok (childrenFrom job g.nextNumber files),
        { g with nextNumber := g.nextNumber + files.length }), m) := by
  induction files generalizing g with
  | nil => rfl
  | cons file rest ih =>
    rw [childBatches, Staged.onDisk_bind_ok (Staged.onDisk_allocate "751" g m),
      Staged.onDisk_bind_ok (ih _)]
    have hnumber : g.nextNumber + 1 + rest.length = g.nextNumber + (rest.length + 1) := by omega
    change ((Except.ok _, { g with nextNumber := g.nextNumber + 1 + rest.length }), m) = _
    rw [hnumber]
    rfl

theorem onDisk_jobStatus {job : String} {j : StagedJob} (h : g.job? job = some j) (m : Memory) :
    (jobStatus job).onDisk g m = ((.ok j.info, g), m) := by
  rw [jobStatus, Staged.onDisk_bind_ok (Staged.onDisk_look h m)]
  rfl

variable {root : String} {pages : List StagedPage}

/-- A job that was created is found, without batches. -/
theorem onDisk_createJob {r : JobRequest} (h : Stages m (Path.join root r.entity) pages)
    (g : Registry) :
    ∃ g' id, (createJob root r).onDisk g m =
        ((.ok ⟨id, r.entity, r.operation, .opened⟩, g'), m) ∧
      g'.job? id = some ⟨⟨id, r.entity, r.operation, .opened⟩, r.chunkSize, []⟩ := by
  have hdirectory := Staged.onDisk_ofStoring (entityDirectory root r.entity) g m
  rw [h.onDisk_entityDirectory] at hdirectory
  let job : StagedJob :=
    ⟨⟨nameOf "750" g.nextNumber, r.entity, r.operation, .opened⟩, r.chunkSize, []⟩
  refine ⟨(g.allocate "750").2.enter job, job.info.id, ?_, ?_⟩
  · rw [createJob, Staged.onDisk_bind_ok hdirectory,
      Staged.onDisk_bind_ok (Staged.onDisk_allocate "750" g m)]
    exact Staged.onDisk_bind_ok (Staged.onDisk_enter job _ m)
  · rw [Registry.job?_enter, if_pos rfl]

/-- A batch that is submitted to a new job is found with those of all files. -/
theorem onDisk_submitBatch {info : JobInfo} {size : Option Nat}
    (h : Stages m (Path.join root info.entity) pages)
    (hjob : g.job? info.id = some ⟨info, size, []⟩) (hopen : info.state = .opened) :
    ∃ g' k, (submitBatch root info.id).onDisk g m =
        ((.ok ⟨nameOf "751" k, info.id,
          if size.isSome then .notProcessed else .completed, none⟩, g'), m) ∧
      g'.job? info.id = some ⟨info, size, batchesOf info.id k size.isSome
        (pages.map (·.file (Path.join root info.entity)))⟩ := by
  have hfiles := Staged.onDisk_ofStoring (entityFiles root info.entity) g m
  rw [h.onDisk_entityFiles] at hfiles
  generalize pages.map (·.file (Path.join root info.entity)) = files at hfiles
  have hentered (g : Registry) (batches : List StagedBatch) :
      (g.enter ⟨info, size, batches⟩).job? info.id = some ⟨info, size, batches⟩ := by
    rw [Registry.job?_enter, if_pos rfl]
  have hallocated : (g.allocate "751").2.job? info.id = some ⟨info, size, []⟩ := hjob
  have hstarted : (submitBatch root info.id).onDisk g m = _ :=
    (Staged.onDisk_bind_ok (onDisk_jobStatus hjob m)).trans <|
    (Staged.onDisk_bind_ok hfiles).trans <|
    (Staged.onDisk_bind_ok (Staged.onDisk_allocate "751" g m)).trans <|
      Staged.onDisk_bind_ok (Staged.onDisk_look hallocated m)
  cases size with
  | none =>
    refine ⟨_, g.nextNumber, ?_, hentered (g.allocate "751").2 _⟩
    rw [hstarted]
    exact Staged.onDisk_bind_ok (Staged.onDisk_add hallocated hopen _ m)
  | some size =>
    have hnumbered : ({ (g.allocate "751").2 with
        nextNumber := (g.allocate "751").2.nextNumber + files.length } : Registry).job? info.id =
        some ⟨info, some size, []⟩ := hjob
    refine ⟨_, g.nextNumber, ?_, hentered { (g.allocate "751").2 with
      nextNumber := (g.allocate "751").2.nextNumber + files.length } _⟩
    rw [hstarted]
    refine (Staged.onDisk_bind_ok (onDisk_childBatches info.id files _ m)).trans ?_
    exact Staged.onDisk_bind_ok (Staged.onDisk_add hnumbered hopen _ m)

/-- The references to the results of a batch. -/
def StagedBatch.references (b : StagedBatch) : List ResultReference :=
  b.results.map fun file => ⟨b.info.id, file.1⟩

section Reading

variable {job : String} {j : StagedJob} {b : StagedBatch}

theorem onDisk_listBatches (h : g.job? job = some j) (m : Memory) :
    (listBatches job).onDisk g m = ((.ok (j.batches.map StagedBatch.info), g), m) :=
  Staged.onDisk_bind_ok (Staged.onDisk_look h m)

variable (h : g.job? job = some j) (hids : (j.batches.map (·.info.id)).Nodup) (hb : b ∈ j.batches)
include h hids hb

theorem onDisk_findBatch (m : Memory) :
    (findBatch job b.info.id).onDisk g m = ((.ok b, g), m) := by
  have hfind : (j.batches.find? fun other => other.info.id == b.info.id) = some b := by
    rw [← List.head?_filter, Lists.filter_key hids hb]
    rfl
  rw [findBatch, Staged.onDisk_bind_ok (Staged.onDisk_look h m), hfind]
  rfl

theorem onDisk_batchStatus (m : Memory) :
    (batchStatus job b.info.id).onDisk g m = ((.ok b.info, g), m) :=
  Staged.onDisk_bind_ok (onDisk_findBatch h hids hb m)

theorem onDisk_listResults (m : Memory) :
    (listResults job b.info.id).onDisk g m = ((.ok b.references, g), m) :=
  Staged.onDisk_bind_ok (onDisk_findBatch h hids hb m)

/-- A result of a batch gives what the file behind it holds. -/
theorem onDisk_openResult {file : String × String} {page : Page}
    (hdistinct : (b.results.map Prod.fst).Nodup) (hfile : file ∈ b.results)
    (hpage : Program.onDisk (openFile file.2) m = (.ok page, m)) :
    (openResult job ⟨b.info.id, file.1⟩).onDisk g m = ((.ok page, g), m) := by
  have hopen := Staged.onDisk_ofStoring (openFile file.2) g m
  rw [hpage] at hopen
  have hresults : ((j.batches.filter fun other => other.info.id == b.info.id).flatMap
      StagedBatch.results).lookup file.1 = some file.2 := by
    rw [Lists.filter_key hids hb, List.flatMap_singleton, Lists.lookup_of_mem hdistinct hfile]
  rw [openResult, Staged.onDisk_bind_ok (Staged.onDisk_look h m)]
  simp only [hresults]
  exact hopen

end Reading

/-- These batches of a job are completed, and their results are just these pages. -/
structure StagedJob.Offers (j : StagedJob) (bs : List StagedBatch) (directory : String)
    (pages : List StagedPage) : Prop where
  ids : (j.batches.map (·.info.id)).Nodup
  members : ∀ b ∈ bs, b ∈ j.batches
  completed : ∀ b ∈ bs, b.info.state = .completed
  results : bs.flatMap StagedBatch.results = pages.map (·.file directory)

namespace StagedJob.Offers

variable {j : StagedJob} {bs : List StagedBatch} {directory : String}

theorem distinct (h : j.Offers bs directory pages) (hpages : Stages m directory pages)
    {b : StagedBatch} (hb : b ∈ bs) : (b.results.map Prod.fst).Nodup := by
  have hall : ((bs.flatMap StagedBatch.results).map Prod.fst).Nodup := by
    rw [h.results, List.map_map]
    exact List.pairwise_map.2 (hpages.ordered.imp fun hlt => String.ne_of_lt hlt)
  rw [List.flatMap_def] at hall
  exact hall.sublist ((List.sublist_flatten_of_mem (List.mem_map_of_mem hb)).map Prod.fst)

/-- Each reference to an offered result gives the page in the same place. -/
theorem onDisk_references {job : String} (h : j.Offers bs directory pages)
    (hpages : Stages m directory pages) (hjob : g.job? job = some j) :
    List.Forall₂ (fun reference page =>
        (openResult job reference).onDisk g m = ((.ok (.whole page.content), g), m))
      (bs.flatMap StagedBatch.references) pages := by
  have hopens : List.Forall₂ (fun file reference => ∀ page,
      Program.onDisk (openFile file.2) m = (.ok page, m) →
        (openResult job reference).onDisk g m = ((.ok page, g), m))
      (bs.flatMap StagedBatch.results) (bs.flatMap StagedBatch.references) := by
    refine List.rel_flatMap (R := fun a b => a = b ∧ b ∈ bs)
      (List.forall₂_same.2 fun b hb => ⟨rfl, hb⟩) ?_
    rintro b _ ⟨rfl, hb⟩
    refine List.forall₂_map_right_iff.2 (List.forall₂_same.2 fun file hfile page hpage => ?_)
    exact onDisk_openResult hjob h.ids (h.members b hb) (h.distinct hpages hb) hfile hpage
  rw [h.results, List.forall₂_map_left_iff] at hopens
  have hheld := (List.forall₂_and_left _ _).2 ⟨hpages.holds, hopens⟩
  exact hheld.flip.imp fun reference page hpage => hpage.2 _ hpage.1.onDisk_openFile

end StagedJob.Offers

/-- What is collected of a job with all files: its only batch, or each one behind the first. -/
theorem offers_batchesOf (info : JobInfo) (size : Option Nat) (k : Nat) (chunked : Bool)
    (directory : String) (pages : List StagedPage) :
    StagedJob.Offers ⟨info, size, batchesOf info.id k chunked (pages.map (·.file directory))⟩
      ((batchesOf info.id k chunked (pages.map (·.file directory))).drop chunked.toNat) directory
      pages where
  ids := nodup_batchesOf info.id k chunked _
  members := fun b hb => List.mem_of_mem_drop hb
  completed := by
    intro b hb
    cases chunked with
    | true => exact completed_of_mem_childrenFrom hb
    | false =>
      obtain rfl := List.mem_singleton.1 hb
      rfl
  results := by
    cases chunked with
    | true => exact flatMap_results_childrenFrom info.id (k + 1) _
    | false => exact List.flatMap_singleton ..

end Staging

end Harvest
