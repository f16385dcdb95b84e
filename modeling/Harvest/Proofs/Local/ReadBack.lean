import Harvest.Proofs.Local.Filing
import Harvest.Proofs.Sink.ReadBack

/-!
# What is written on a machine is read back

A sink of a machine that is opened takes all records of one header, whatever batches they come in,
and leaves a file that can be opened (`Local.play_writeOut`). A reader that is served this file
gives just these records (`Local.written_read_back`).
-/

namespace Harvest

open Disk (Memory)
open Program (play)

namespace Sink

variable {columns : List String} {s : Sink}

/-- Records of the header of the file are taken. -/
theorem takeAll_of_columns {records : List Record} (hheader : ∀ header ∈ s.header, header = columns)
    (hcolumns : ∀ r ∈ records, r.columns = columns) :
    ∃ s', s.takeAll records = (.ok (), s') ∧ ∀ header ∈ s'.header, header = columns := by
  induction records generalizing s with
  | nil => exact ⟨s, rfl, hheader⟩
  | cons r records ih =>
    obtain ⟨hr, hrecords⟩ := List.forall_mem_cons.1 hcolumns
    have hfile : s.header.getD r.columns = columns := by
      cases hs : s.header with
      | none => exact hr
      | some header => exact hheader header hs
    have hknown : (r.columns.find? fun c => !(s.header.getD r.columns).contains c) = none := by
      rw [List.find?_eq_none, hfile, hr]
      intro c hc
      simpa using hc
    have hoffer : s.offer r = .ok { s with
        header := some (s.header.getD r.columns)
        accepted := project (s.header.getD r.columns) r :: s.accepted } := by
      unfold offer
      dsimp only
      rw [hknown]
    rw [takeAll_cons, hoffer]
    refine ih ?_ hrecords
    rintro header hmem
    exact (Option.some.inj hmem).symm.trans hfile

theorem file_start (root entity run : String) (compressed : Bool) :
    (start root entity run compressed).file = Path.join (start root entity run compressed).directory
      ("part-00000" ++ Staging.endingOf compressed) := by
  cases compressed <;> rfl

variable {m m' : Memory} {root entity run : String} {compressed : Bool}

theorem find_of_create (h : Program.onDisk (create root entity run compressed) m = (.ok s, m')) :
    s = start root entity run compressed ∧ m'.find s.file = .ok (.file []) := by
  obtain ⟨_, middle, -, hrest⟩ := Storing.ok_of_onDisk_bind h
  obtain ⟨_, after, hwritten, hlast⟩ := Storing.ok_of_onDisk_bind hrest
  cases hlast
  obtain ⟨_, -, hfind⟩ := Memory.find_of_writeFile (Storing.writeFile_of_write hwritten)
  exact ⟨rfl, hfind⟩

/-- A sink whose file is there is finished. -/
theorem exists_onDisk_finish (h : m.find s.file = .ok (.file [])) :
    ∃ m', Program.onDisk s.finish m =
        (.ok ⟨s.directory, [s.file], s.rows, s.content.length, s.header.getD []⟩, m') ∧
      m'.find s.file = .ok (.file s.content) := by
  obtain ⟨m', happend, hfind⟩ := Storing.onDisk_append h s.content
  rw [List.nil_append] at hfind
  refine ⟨m', ?_, hfind⟩
  rw [finish, Storing.onDisk_bind_ok happend, Storing.onDisk_bind_ok (Storing.onDisk_size hfind)]
  rfl

end Sink

/-- Gives batches to a sink of their own, and finishes it. -/
def Engine.writeOut (entity run : String) (batches : List Batch) : Engine Summary := do
  openSink entity run
  batches.forM writeBatch
  finishSink

namespace Local

variable {places : Places} {entity run : String} {columns : List String} {records : List Record}
  {batches : List Batch} {host : Host}

/-- The open sink holds records of one header, and its file is there. -/
structure Taking (places : Places) (entity run : String) (columns : List String)
    (records : List Record) (host : Host) : Prop where
  sink : ∃ s, host.1.sink = some s ∧ s.Holds records ∧ (∀ header ∈ s.header, header = columns) ∧
    s.file = (Sink.start places.output entity run places.compressed).file ∧
    s.compressed = places.compressed
  file : host.2.disk.find (Sink.start places.output entity run places.compressed).file =
    .ok (.file [])

theorem taking_of_openSink (columns : List String)
    (h : (respond places (.openSink entity run) host).1 = .ok ()) :
    ∃ host', respond places (.openSink entity run) host = (.ok (), host') ∧
      Taking places entity run columns [] host' := by
  refine ⟨_, Prod.ext h rfl, ?_⟩
  rw [respond_openSink] at h ⊢
  rcases hresult : Program.onDisk (Sink.create places.output entity run places.compressed).run
    host.2.disk with ⟨e | sink, disk⟩
  · rw [hresult] at h
    cases h
  · obtain ⟨rfl, hfile⟩ := Sink.find_of_create hresult
    exact ⟨⟨_, rfl, Sink.holds_start _ _ _ _, by rintro _ ⟨⟩, rfl, rfl⟩, hfile⟩

/-- A batch of the same header is taken. -/
theorem Taking.writeBatch (h : Taking places entity run columns records host) {batch : Batch}
    (hbatch : ∀ r ∈ batch.records, r.columns = columns) :
    ∃ host', respond places (.writeBatch batch) host = (.ok (), host') ∧
      Taking places entity run columns (records ++ batch.records) host' := by
  obtain ⟨s, hsink, hholds, hheader, hfile, hcompressed⟩ := h.sink
  obtain ⟨s', htaken, hheader'⟩ := Sink.takeAll_of_columns hheader hbatch
  obtain ⟨hholds', hfile', hcompressed'⟩ := hholds.takeAll htaken
  refine ⟨({ host.1 with sink := some s' }, host.2), ?_, ?_⟩
  · rw [respond_writeBatch places batch hsink, htaken]
    rfl
  · exact ⟨⟨s', rfl, hholds', hheader', hfile'.trans hfile, hcompressed'.trans hcompressed⟩,
      h.file⟩

theorem Taking.play_forM (h : Taking places entity run columns records host)
    (hbatches : ∀ batch ∈ batches, ∀ r ∈ batch.records, r.columns = columns) :
    ∃ host', (play (S := services) (respond places) (batches.forM Engine.writeBatch : Engine Unit)
        host).2 = (.ok (), host') ∧
      Taking places entity run columns (records ++ batches.flatMap (·.records)) host' := by
  induction batches generalizing records host with
  | nil => exact ⟨host, rfl, by rwa [List.flatMap_nil, List.append_nil]⟩
  | cons batch batches ih =>
    obtain ⟨hbatch, hothers⟩ := List.forall_mem_cons.1 hbatches
    obtain ⟨middle, hwritten, hmiddle⟩ := h.writeBatch hbatch
    obtain ⟨last, hplay, hlast⟩ := ih hmiddle hothers
    rw [List.append_assoc] at hlast
    refine ⟨last, ?_, hlast⟩
    have hstep : (play (S := services) (respond places) (Engine.writeBatch batch) host).2 =
        (.ok (), middle) := Program.snd_play_ask (S := services) (respond places) hwritten
    rw [List.forM, Engine.snd_play_bind_ok hstep]
    exact hplay

/-- The file of records of one header is written and can be opened. -/
theorem play_writeOut (hopen : (respond places (.openSink entity run) host).1 = .ok ())
    (hbatches : ∀ batch ∈ batches, ∀ r ∈ batch.records, r.columns = columns) :
    ∃ summary file host',
      (play (S := services) (respond places) (Engine.writeOut entity run batches) host).2 =
        (.ok summary, host') ∧
      summary.files = [file] ∧ summary.rows = (batches.flatMap (·.records)).length ∧
      Program.onDisk (Staging.openFile file) host'.2.disk =
        (.ok (.whole (Sink.textOf (batches.flatMap (·.records)))), host'.2.disk) := by
  obtain ⟨begun, hopened, hbegun⟩ := taking_of_openSink columns hopen
  obtain ⟨filled, hplay, hfilled⟩ := hbegun.play_forM hbatches
  obtain ⟨s, hsink, hholds, -, hfile, hcompressed⟩ := hfilled.sink
  rw [List.nil_append] at hholds
  have hempty := hfilled.file
  rw [← hfile] at hempty
  obtain ⟨disk, hfinish, hwritten⟩ := Sink.exists_onDisk_finish hempty
  have hstep : (play (S := services) (respond places) (Engine.openSink entity run) host).2 =
      (.ok (), begun) := Program.snd_play_ask (S := services) (respond places) hopened
  refine ⟨⟨s.directory, [s.file], s.rows, s.content.length, s.header.getD []⟩, s.file,
    ({ filled.1 with sink := none }, { filled.2 with disk := disk }), ?_, rfl, hholds.rows_eq, ?_⟩
  · rw [Engine.writeOut, Engine.snd_play_bind_ok hstep, Engine.snd_play_bind_ok hplay]
    have hreply : respond places .finishSink filled =
        (.ok ⟨s.directory, [s.file], s.rows, s.content.length, s.header.getD []⟩,
          { filled.1 with sink := none }, { filled.2 with disk := disk }) := by
      rw [respond_finishSink places hsink]
      exact congrArg (fun finished => (finished.1, { filled.1 with sink := none },
        { filled.2 with disk := finished.2 })) hfinish
    exact Program.snd_play_ask (S := services) (respond places) hreply
  · have hending : s.file.endsWith ".gz" = places.compressed := by
      rw [hfile, Sink.file_start, Staging.endsWith_join]
    rw [Staging.onDisk_openFile hwritten, hholds.content_eq, hending, hcompressed,
      Sink.page_fileOf]

/-- What is written is read back: a reader to which the file of records is served, wherever it is
served from, gives just these records and then comes to their end. -/
theorem written_read_back (hcolumns : columns ≠ [])
    (hmark : ∀ first ∈ columns.head?, first.toList.head? ≠ some '\uFEFF')
    (rows : List (List String))
    (hbatches : batches.flatMap (·.records) = rows.map (Record.ofFields columns))
    (hopen : (respond places (.openSink entity run) host).1 = .ok ()) :
    ∃ summary file page host',
      (play (S := services) (respond places) (Engine.writeOut entity run batches) host).2 =
        (.ok summary, host') ∧
      summary.files = [file] ∧ summary.rows = rows.length ∧
      Program.onDisk (Staging.openFile file) host'.2.disk = (.ok page, host'.2.disk) ∧
      ∀ (σ : Type) (answer : (r : Request) → σ → r.Reply × σ) (context : StreamContext)
        (reference : ResultReference),
        (∀ s, (answer (.openResult context.job reference) s).1 = .ok page) → ∀ n s,
          (play (S := services) answer ((ResultReader.start context [reference]).fetches n)
            s).2.1.1 = ResultReader.drained n (rows.map (Record.ofFields columns)) := by
  have hshared : ∀ batch ∈ batches, ∀ r ∈ batch.records, r.columns = columns := by
    intro batch hbatch r hr
    have hmem : r ∈ rows.map (Record.ofFields columns) :=
      hbatches ▸ List.mem_flatMap.2 ⟨batch, hbatch, hr⟩
    obtain ⟨fields, -, rfl⟩ := List.mem_map.1 hmem
    rfl
  obtain ⟨summary, file, host', hplay, hfiles, hrows, hpage⟩ := play_writeOut hopen hshared
  rw [hbatches] at hrows hpage
  rw [List.length_map] at hrows
  refine ⟨summary, file, _, host', hplay, hfiles, hrows, hpage, ?_⟩
  intro σ answer context reference hserved n s
  have hgives : ResultReader.Gives answer context.job (fun _ => True) reference
      (Sink.textOf (rows.map (Record.ofFields columns))) :=
    fun s _ => ⟨_, Prod.ext (hserved s) rfl, trivial⟩
  have hread := ResultReader.play_fetches (s := s) (.cons hgives .nil) trivial n
  rw [hread, List.flatMap_singleton, Sink.records_textOf hcolumns hmark]

/-- Rows of one column: what needs quotes, a quote alone, nothing, and a line end alone. -/
def oddRows : List (List String) := [["a,b\r\n"], ["\""], [], ["\n", "surplus"]]

def oddRecords : List Record := oddRows.map (Record.ofFields ["x, \"y\""])

theorem written_read_back_odd :
    ∃ summary file page host',
      (play (S := services) (respond { stagedPlaces with compressed := true })
          (Engine.writeOut "Account" "r" [⟨oddRecords.take 1, 1⟩, ⟨[], 1⟩, ⟨oddRecords.drop 1, 4⟩])
          stagedHost).2 = (.ok summary, host') ∧
      summary.files = [file] ∧ summary.rows = 4 ∧
      Program.onDisk (Staging.openFile file) host'.2.disk = (.ok page, host'.2.disk) ∧
      ∀ (σ : Type) (answer : (r : Request) → σ → r.Reply × σ) (context : StreamContext)
        (reference : ResultReference),
        (∀ s, (answer (.openResult context.job reference) s).1 = .ok page) → ∀ n s,
          (play (S := services) answer ((ResultReader.start context [reference]).fetches n)
            s).2.1.1 = ResultReader.drained n oddRecords := by
  have hopen : (respond { stagedPlaces with compressed := true } (.openSink "Account" "r")
      stagedHost : Except ExtractError Unit × Host).1 = .ok () :=
    eq_ok_of_toOption (by decide +kernel)
  refine written_read_back (by decide) (by decide) oddRows ?_ hopen
  simp only [List.flatMap_cons, List.flatMap_nil, List.nil_append, List.append_nil,
    List.take_append_drop, oddRecords]

end Local

end Harvest
