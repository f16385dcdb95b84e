import Harvest.Proofs.Local.ReadBack
import Mathlib.Data.List.TakeWhile

/-!
# What batches leave in the file

The first record that is offered to a sink gives the header. From each batch the sink keeps the
records in front of the first one with a column that is not in the header (`Sink.kept`), and it
answers with that column (`Sink.verdict`). So whatever batches come, and whether or not some of them
are refused, the file has the header and a row for each record that was kept
(`Local.batches_filed`).
-/

namespace Harvest

open Program (play)

namespace Sink

/-- The first column of a record that is not in the header. -/
def unknown? (header : List String) (r : Record) : Option String :=
  r.columns.find? fun c => !header.contains c

/-- The records of a batch in front of the first one that is refused. -/
def kept (header : List String) (records : List Record) : List Record :=
  records.takeWhile fun r => (unknown? header r).isNone

/-- The answer to a batch. -/
def verdict (header : List String) (file : String) (records : List Record) :
    Except SinkFault Unit :=
  match records.findSome? (unknown? header) with
  | some column => .error (.unknownColumn column file)
  | none => .ok ()

/-- The columns of the first record that is offered. -/
def headerOf (batches : List Batch) : List String :=
  ((batches.flatMap (·.records)).head?.map Record.columns).getD []

/-- The records of batches that are kept. -/
def acceptedOf (batches : List Batch) : List Record :=
  batches.flatMap fun batch => kept (headerOf batches) batch.records

/-- The lines of the file: none, or the header and a row for each record that is kept. -/
def linesOf (batches : List Batch) : List (List String) :=
  if batches.flatMap (·.records) = [] then []
  else headerOf batches :: (acceptedOf batches).map (rowOf (headerOf batches))

section Keeping

variable {header : List String} {records more : List Record} {r : Record}

theorem unknown?_eq_none_iff : unknown? header r = none ↔ r.columns ⊆ header := by
  simp [unknown?, List.subset_def]

theorem subset_of_mem_kept (h : r ∈ kept header records) : r.columns ⊆ header := by
  have hknown := List.mem_takeWhile_imp (p := fun r => (unknown? header r).isNone) h
  exact unknown?_eq_none_iff.1 (Option.isNone_iff_eq_none.1 hknown)

theorem kept_cons_of_subset (h : r.columns ⊆ header) :
    kept header (r :: records) = r :: kept header records :=
  List.takeWhile_cons_of_pos (by rw [unknown?_eq_none_iff.2 h]; rfl)

theorem forall_head?_of_append {α : Type} {p : α → Prop} {l l' : List α}
    (h : ∀ first ∈ (l ++ l').head?, p first) : ∀ first ∈ l.head?, p first := by
  intro first hfirst
  refine h first ?_
  rw [List.head?_append, hfirst]
  rfl

/-- The record that gives the header is kept. -/
theorem head?_append_kept (h : ∀ first ∈ (records ++ more).head?, first.columns = header) :
    (records ++ kept header more).head? = (records ++ more).head? := by
  cases records with
  | cons first records => rfl
  | nil =>
    cases more with
    | nil => rfl
    | cons first more =>
      obtain rfl := h first rfl
      rw [kept_cons_of_subset (List.Subset.refl _)]
      rfl

theorem length_rowOf (header : List String) (r : Record) :
    (rowOf header r).length = header.length := by
  unfold rowOf
  split
  · rename_i hcolumns
    rw [List.length_map, r.length_values, hcolumns]
  · rw [List.length_map]

theorem length_of_mem_linesOf {batches : List Batch} {line : List String}
    (h : line ∈ linesOf batches) : line.length = (headerOf batches).length := by
  unfold linesOf at h
  split at h
  · cases h
  · rcases List.mem_cons.1 h with rfl | h
    · rfl
    · obtain ⟨r, -, rfl⟩ := List.mem_map.1 h
      exact length_rowOf _ r

end Keeping

end Sink

namespace Record

theorem lookup_zip_of_nodup {columns : List String} {values : List (Option String)}
    (hlength : values.length = columns.length) (hnodup : columns.Nodup) :
    columns.map (fun c => ((columns.zip values).lookup c).join) = values := by
  induction columns generalizing values with
  | nil => exact (List.length_eq_zero_iff.1 hlength).symm
  | cons column columns ih =>
    obtain ⟨value, values, rfl⟩ := List.exists_cons_of_length_eq_add_one hlength
    obtain ⟨hother, hnodup⟩ := List.nodup_cons.1 hnodup
    rw [List.map_cons, List.zip_cons_cons, List.lookup_cons_self, Option.join_some]
    refine congrArg _ ((List.map_congr_left fun c hc => ?_).trans
      (ih (Nat.succ.inj hlength) hnodup))
    have hne : (c == column) = false := beq_false_of_ne fun h => hother (h ▸ hc)
    rw [List.lookup_cons, hne]

end Record

namespace Sink

/-- Where no column is named twice, a row has under each column the value of that name. -/
theorem rowOf_eq_of_nodup {header : List String} (hnodup : header.Nodup) (r : Record) :
    rowOf header r = header.map fun c => (r.get? c).getD "" := by
  unfold rowOf
  split
  · rename_i hcolumns
    subst hcolumns
    conv_lhs => rw [← Record.lookup_zip_of_nodup r.length_values hnodup]
    rw [List.map_map]
    rfl
  · rfl

variable {s : Sink} {header : List String} {records more : List Record}

/-- Behind records of which the first gives the header, the sink keeps of a batch what it should,
and answers as it should. -/
theorem Holds.takeAll_kept (h : s.Holds records)
    (hheader : ∀ first ∈ (records ++ more).head?, first.columns = header) :
    ∃ s', s.takeAll more = (verdict header s.file more, s') ∧
      s'.Holds (records ++ kept header more) ∧ s'.file = s.file ∧ s'.compressed = s.compressed := by
  induction more generalizing s records with
  | nil => exact ⟨s, rfl, by rwa [kept, List.takeWhile_nil, List.append_nil], rfl, rfl⟩
  | cons r more ih =>
    have hown : s.header.getD r.columns = header := by
      rw [h.header]
      cases records with
      | nil => exact hheader r rfl
      | cons first records => exact hheader first rfl
    cases hr : unknown? header r with
    | some column =>
      have hoffer : s.offer r = .error (.unknownColumn column s.file) := by
        unfold Sink.offer
        dsimp only
        rw [hown, ← unknown?, hr]
      refine ⟨s, ?_, ?_, rfl, rfl⟩
      · rw [takeAll_cons, hoffer, verdict, List.findSome?_cons, hr]
      · rw [kept, List.takeWhile_cons, hr]
        rwa [Option.isNone_some, if_neg Bool.false_ne_true, List.append_nil]
    | none =>
      have hoffer : s.offer r = .ok { s with
          header := some header, accepted := project header r :: s.accepted } := by
        unfold Sink.offer
        dsimp only
        rw [hown, ← unknown?, hr]
      obtain ⟨hnext, hfile, hcompressed⟩ := h.offer hoffer
      obtain ⟨s', htaken, hlast, hfile', hcompressed'⟩ := ih hnext (by rwa [List.append_assoc])
      refine ⟨s', ?_, ?_, hfile'.trans hfile, hcompressed'.trans hcompressed⟩
      · rw [takeAll_cons, hoffer, verdict, List.findSome?_cons, hr]
        exact htaken
      · rwa [kept_cons_of_subset (unknown?_eq_none_iff.1 hr), List.append_cons]

/-- The first record that is kept is the first one that is offered. -/
theorem head?_append_flatMap_kept {batches : List Batch}
    (h : ∀ first ∈ (records ++ batches.flatMap (·.records)).head?, first.columns = header) :
    (records ++ batches.flatMap fun batch => kept header batch.records).head? =
      (records ++ batches.flatMap (·.records)).head? := by
  induction batches generalizing records with
  | nil => rfl
  | cons batch batches ih =>
    rw [List.flatMap_cons, ← List.append_assoc] at h ⊢
    have hbatch := head?_append_kept (forall_head?_of_append h)
    have hnext : ((records ++ kept header batch.records) ++ batches.flatMap (·.records)).head? =
        ((records ++ batch.records) ++ batches.flatMap (·.records)).head? := by
      rw [List.head?_append, hbatch, ← List.head?_append]
    rw [ih (by rwa [hnext]), hnext, List.flatMap_cons, ← List.append_assoc]

theorem columns_eq_headerOf {batches : List Batch} :
    ∀ first ∈ (batches.flatMap (·.records)).head?, first.columns = headerOf batches := by
  intro first hfirst
  rw [headerOf, hfirst]
  rfl

theorem head?_acceptedOf (batches : List Batch) :
    (acceptedOf batches).head? = (batches.flatMap (·.records)).head? := by
  have hfirst : ∀ first ∈ (([] : List Record) ++ batches.flatMap (·.records)).head?,
      first.columns = headerOf batches := columns_eq_headerOf
  exact head?_append_flatMap_kept hfirst

theorem table_acceptedOf (batches : List Batch) : table (acceptedOf batches) = linesOf batches := by
  have hhead := head?_acceptedOf batches
  rw [linesOf]
  cases haccepted : acceptedOf batches with
  | nil =>
    rw [haccepted] at hhead
    rw [if_pos (List.head?_eq_none_iff.1 hhead.symm)]
    rfl
  | cons first rest =>
    rw [haccepted] at hhead
    have hoffered : batches.flatMap (·.records) ≠ [] := by
      intro hnone
      rw [hnone] at hhead
      cases hhead
    rw [if_neg hoffered, table, columns_eq_headerOf first hhead.symm]

/-- Where no column is named twice, every row has under each column the value of that name. -/
theorem linesOf_eq_of_nodup {batches : List Batch} (h : (headerOf batches).Nodup) :
    (linesOf batches).tail = (acceptedOf batches).map fun r =>
      (headerOf batches).map fun c => (r.get? c).getD "" := by
  have hhead := head?_acceptedOf batches
  rw [linesOf]
  split
  · rename_i hnone
    rw [hnone] at hhead
    rw [List.head?_eq_none_iff.1 hhead]
    rfl
  · exact List.map_congr_left fun r _ => rowOf_eq_of_nodup h r

end Sink

/-- Gives batches to the open sink, and goes on behind one that is refused. -/
def Engine.writeEach (batches : List Batch) : Program services (List (Except ExtractError Unit)) :=
  Program.each (batches.map fun batch => (writeBatch batch).run)

namespace Local

variable {places : Places} {entity run : String} {header : List String} {records : List Record}
  {host : Host}

/-- A batch is kept as far as it should be. -/
theorem Taking.writeBatch_kept (h : Taking places entity run header records host) {batch : Batch}
    (hheader : ∀ first ∈ (records ++ batch.records).head?, first.columns = header) :
    ∃ host', respond places (.writeBatch batch) host =
        ((Sink.verdict header (Sink.start places.output entity run places.compressed).file
          batch.records).mapError .sink, host') ∧
      Taking places entity run header (records ++ Sink.kept header batch.records) host' := by
  obtain ⟨s, hsink, hholds, -, hfile, hcompressed⟩ := h.sink
  obtain ⟨s', htaken, hholds', hfile', hcompressed'⟩ := hholds.takeAll_kept hheader
  refine ⟨({ host.1 with sink := some s' }, host.2), ?_, ?_⟩
  · rw [respond_writeBatch places batch hsink, htaken, hfile]
  · refine ⟨⟨s', rfl, hholds', fun given hgiven => ?_, hfile'.trans hfile,
      hcompressed'.trans hcompressed⟩, h.file⟩
    rw [hholds'.header, Sink.head?_append_kept hheader] at hgiven
    obtain ⟨first, hfirst, rfl⟩ := Option.map_eq_some_iff.1 hgiven
    exact hheader first hfirst

theorem Taking.play_writeEach (h : Taking places entity run header records host)
    {batches : List Batch}
    (hheader : ∀ first ∈ (records ++ batches.flatMap (·.records)).head?, first.columns = header) :
    ∃ host', (play (respond places) (Engine.writeEach batches) host).2 =
        (batches.map fun batch => (Sink.verdict header
          (Sink.start places.output entity run places.compressed).file
            batch.records).mapError .sink, host') ∧
      Taking places entity run header
        (records ++ batches.flatMap fun batch => Sink.kept header batch.records) host' := by
  induction batches generalizing records host with
  | nil => exact ⟨host, rfl, by rwa [List.flatMap_nil, List.append_nil]⟩
  | cons batch batches ih =>
    rw [List.flatMap_cons, ← List.append_assoc] at hheader
    have hbatch := Sink.forall_head?_of_append hheader
    obtain ⟨middle, hreply, hmiddle⟩ := h.writeBatch_kept hbatch
    obtain ⟨last, hplay, hlast⟩ := ih hmiddle (by
      rwa [List.head?_append, Sink.head?_append_kept hbatch, ← List.head?_append])
    rw [List.append_assoc] at hlast
    have hstep : play (S := services) (respond places) (Engine.writeBatch batch).run host =
        ([_], _, middle) := Program.play_request (S := services) (respond places) hreply
    refine ⟨last, ?_, hlast⟩
    rw [Engine.writeEach] at hplay
    rw [Engine.writeEach, List.map_cons, Program.play_each_cons _ hstep, hplay]
    rfl

theorem Taking.finish (h : Taking places entity run header records host) :
    ∃ summary host', respond places .finishSink host = (.ok summary, host') ∧
      host'.2.disk.find (Sink.start places.output entity run places.compressed).file =
        .ok (.file (Sink.fileOf places.compressed records)) ∧
      summary.rows = records.length ∧
      summary.columns = (records.head?.map Record.columns).getD [] := by
  obtain ⟨s, hsink, hholds, -, hfile, hcompressed⟩ := h.sink
  have hempty := h.file
  rw [← hfile] at hempty
  obtain ⟨disk, hfinish, hwritten⟩ := Sink.exists_onDisk_finish hempty
  rw [hfile, hholds.content_eq, hcompressed] at hwritten
  refine ⟨⟨s.directory, [s.file], s.rows, s.content.length, s.header.getD []⟩,
    ({ host.1 with sink := none }, { host.2 with disk := disk }), ?_, hwritten, hholds.rows_eq,
    congrArg (·.getD []) hholds.header⟩
  rw [respond_finishSink places hsink]
  exact congrArg (fun finished => (finished.1, { host.1 with sink := none },
    { host.2 with disk := finished.2 })) hfinish

theorem Taking.drop (h : Taking places entity run header records host) :
    ∃ host', respond places .dropSink host = ((), host') ∧
      host'.2.disk.find (Sink.start places.output entity run places.compressed).file =
        .ok (.file (Sink.fileOf places.compressed records)) := by
  obtain ⟨s, hsink, hholds, -, hfile, hcompressed⟩ := h.sink
  have hempty := h.file
  rw [← hfile] at hempty
  obtain ⟨disk, happend, hwritten⟩ := Storing.onDisk_append hempty s.content
  rw [List.nil_append, hfile, hholds.content_eq, hcompressed] at hwritten
  refine ⟨({ host.1 with sink := none }, { host.2 with disk := disk }), ?_, hwritten⟩
  have hdrop : s.drop.onDisk host.2.disk = ((), disk) := by
    have happended : (Storing.append s.file s.content).run.onDisk host.2.disk = (.ok (), disk) :=
      happend
    rw [Sink.drop, Program.onDisk_bind, happended]
    rfl
  rw [respond_dropSink places hsink, hdrop]

/-- What a host has of batches that were offered to the open sink of a file: the answers, and the
file once the sink is finished or given up. -/
structure Filed (places : Places) (file : String) (batches : List Batch)
    (replies : List (Except ExtractError Unit)) (host : Host) : Prop where
  replies : replies = batches.map fun batch =>
    (Sink.verdict (Sink.headerOf batches) file batch.records).mapError .sink
  /-- The file has the lines, which is what a reader of it is shown, and it is the same whether the
  sink is finished or given up. -/
  written : ∃ bytes, Sink.Encodes places.compressed bytes (Sink.linesOf batches) ∧
    Sink.Shows places.compressed bytes ((Sink.linesOf batches).map Csv.shown) ∧
    (∃ summary host', respond places .finishSink host = (.ok summary, host') ∧
      host'.2.disk.find file = .ok (.file bytes) ∧
      summary.rows = (Sink.acceptedOf batches).length ∧
      summary.columns = Sink.headerOf batches) ∧
    ∃ host', respond places .dropSink host = ((), host') ∧
      host'.2.disk.find file = .ok (.file bytes)
  length : ∀ line ∈ Sink.linesOf batches, line.length = (Sink.headerOf batches).length
  /-- No value of a record that is kept is left out for want of a column. -/
  known : ∀ r ∈ Sink.acceptedOf batches, r.columns ⊆ Sink.headerOf batches
  /-- No value is written under the name of another column. -/
  named : (Sink.headerOf batches).Nodup → (Sink.linesOf batches).tail =
    (Sink.acceptedOf batches).map fun r =>
      (Sink.headerOf batches).map fun c => (r.get? c).getD ""

/-- Whatever batches are offered to a sink that could be opened, its file has the lines of the
records that were kept. -/
theorem batches_filed (places : Places) (entity run : String) (batches : List Batch) (host : Host)
    (hopen : (respond places (.openSink entity run) host).1 = .ok ()) :
    ∃ opened replies written, respond places (.openSink entity run) host = (.ok (), opened) ∧
      (play (respond places) (Engine.writeEach batches) opened).2 = (replies, written) ∧
      Filed places (Sink.start places.output entity run places.compressed).file batches replies
        written := by
  obtain ⟨opened, hopened, htaking⟩ := taking_of_openSink (Sink.headerOf batches) hopen
  obtain ⟨written, hplay, hwritten⟩ := htaking.play_writeEach Sink.columns_eq_headerOf
  rw [List.nil_append, ← Sink.acceptedOf] at hwritten
  obtain ⟨summary, finished, hfinish, hfile, hrows, hcolumns⟩ := hwritten.finish
  obtain ⟨dropped, hdrop, hleft⟩ := hwritten.drop
  rw [Sink.head?_acceptedOf, ← Sink.headerOf] at hcolumns
  have hencodes := Sink.encodes_fileOf places.compressed (Sink.acceptedOf batches)
  rw [Sink.table_acceptedOf] at hencodes
  refine ⟨opened, _, written, hopened, hplay, ⟨rfl, ⟨_, hencodes, hencodes.shows,
    ⟨summary, finished, hfinish, hfile, hrows, hcolumns⟩, dropped, hdrop, hleft⟩,
    fun _ => Sink.length_of_mem_linesOf, fun r hr => ?_, Sink.linesOf_eq_of_nodup⟩⟩
  obtain ⟨batch, -, hkept⟩ := List.mem_flatMap.1 hr
  exact Sink.subset_of_mem_kept hkept

/-- Records of two columns, of the same in the other order, of one of them, of none, and of one that
is not in the header. -/
def shapedBatches : List Batch :=
  [⟨[], 0⟩,
    ⟨[.ofFields ["A", "B"] ["1", "2"], .ofFields ["B", "A"] ["3", "4"]], 2⟩,
    ⟨[.ofFields ["B"] ["7"], .ofFields ["A", "C"] ["8", "9"], .ofFields ["A", "B"] ["5", "6"]], 5⟩,
    ⟨[.ofFields [] []], 6⟩]

theorem batches_filed_shaped :
    ∃ opened replies written,
      respond stagedPlaces (.openSink "Account" "r") stagedHost = (.ok (), opened) ∧
      (play (respond stagedPlaces) (Engine.writeEach shapedBatches) opened).2 =
        (replies, written) ∧
      replies = [.ok (), .ok (), .error (.sink (.unknownColumn "C"
        "/out/Account/run_id=r/part-00000.csv")), .ok ()] ∧
      (∃ summary host', respond stagedPlaces .finishSink written = (.ok summary, host') ∧
        host'.2.disk.find "/out/Account/run_id=r/part-00000.csv" =
          .ok (.file (Utf8.encodeString "A,B\n1,2\n4,3\n,7\n,\n")) ∧
        summary.rows = 4 ∧ summary.columns = ["A", "B"]) := by
  have hopen : (respond stagedPlaces (.openSink "Account" "r") stagedHost :
      Except ExtractError Unit × Host).1 = .ok () :=
    eq_ok_of_toOption (by decide +kernel)
  obtain ⟨opened, replies, written, hopened, hplay, hfiled⟩ :=
    batches_filed stagedPlaces "Account" "r" shapedBatches stagedHost hopen
  obtain ⟨bytes, hencodes, -, ⟨summary, host', hfinish, hfile, hrows, hcolumns⟩, -⟩ :=
    hfiled.written
  rw [hencodes.eq_of_plain] at hfile
  refine ⟨opened, replies, written, hopened, hplay, hfiled.replies.trans ?_, summary, host',
    hfinish, hfile.trans ?_, hrows, hcolumns⟩
  · decide +kernel
  · decide +kernel

end Local

end Harvest
