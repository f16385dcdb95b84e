import Harvest.Proofs.Csv.RoundTrip
import Harvest.Proofs.Disk.Frame
import Harvest.Proofs.Gzip.RoundTrip
import Harvest.Sink

/-!
# What a sink writes

The file of a sink has the columns of the first record that was taken and a row for each record
(`Sink.table`), whatever groups the records came in (`Sink.encodes_fileOf`); that is what a reader
of the file is shown (`Sink.Encodes.shows`). It is the only file that a sink writes. Nothing is said
of the bytes of a compressed file but what they are expanded to.
-/

namespace Harvest.Sink

open Program (WritesTo)

/-- The row of a record under a header: all values in their order, if the columns are those of the
header, and else under each name of the header the value of that name. An absent value gives an
empty field. -/
def rowOf (header : List String) (r : Record) : List String :=
  if r.columns = header then r.values.map (·.getD "") else header.map fun c => (r.get? c).getD ""

theorem rowOf_self (r : Record) : rowOf r.columns r = r.values.map (·.getD "") := if_pos rfl

theorem project_eq_rowOf (header : List String) (r : Record) :
    project header r = rowOf header r := by
  by_cases h : r.columns = header
  · rw [project, rowOf, if_pos h.symm, if_pos h]
  · rw [project, rowOf, if_neg (Ne.symm h), if_neg h]

/-- The rows of the file of records: a header, and a row for each record. -/
def table : List Record → List (List String)
  | [] => []
  | first :: rest => first.columns :: (first :: rest).map (rowOf first.columns)

/-- The bytes of the file of records. -/
def fileOf (compressed : Bool) (records : List Record) : List UInt8 :=
  let text := (table records).flatMap Csv.rowBytes
  if compressed then Gzip.compress text else text

/-- A file that is expanded, if it is compressed, ends without fault and has these rows. -/
def Shows (compressed : Bool) (bytes : List UInt8) (rows : List (List String)) : Prop :=
  ∃ text, (if compressed then Gzip.expand ⟨bytes, none⟩ else ⟨bytes, none⟩) = ⟨text, none⟩ ∧
    (text.foldl Csv.Reader.step (.initial 0)).finish.map Csv.Row.text = rows.map .ok

/-- The text of a file, expanded if it is compressed, is that of these rows. -/
def Encodes (compressed : Bool) (bytes : List UInt8) (rows : List (List String)) : Prop :=
  (if compressed then Gzip.expand ⟨bytes, none⟩ else ⟨bytes, none⟩) =
    ⟨rows.flatMap Csv.rowBytes, none⟩

theorem encodes_fileOf (compressed : Bool) (records : List Record) :
    Encodes compressed (fileOf compressed records) (table records) := by
  cases compressed with
  | false => rfl
  | true => exact Gzip.expand_compress _

theorem Encodes.shows {compressed : Bool} {bytes : List UInt8} {rows : List (List String)}
    (h : Encodes compressed bytes rows) : Shows compressed bytes (rows.map Csv.shown) :=
  ⟨rows.flatMap Csv.rowBytes, h, Csv.map_text_written rows 0⟩

/-- A file that is not compressed is the text itself. -/
theorem Encodes.eq_of_plain {bytes : List UInt8} {rows : List (List String)}
    (h : Encodes false bytes rows) : bytes = rows.flatMap Csv.rowBytes :=
  congrArg Page.bytes h

/-- There is a row behind the header for each record. -/
theorem length_tail_table (records : List Record) :
    (table records).tail.length = records.length := by
  cases records <;> simp [table]

theorem file_of_offer {s s' : Sink} {r : Record} (h : s.offer r = .ok s') : s'.file = s.file := by
  unfold offer at h
  dsimp only at h
  split at h
  · cases h
  · cases h
    rfl

theorem file_takeAll (s : Sink) (records : List Record) : (s.takeAll records).2.file = s.file := by
  induction records generalizing s with
  | nil => rfl
  | cons r records ih =>
    rw [takeAll_cons]
    cases hr : s.offer r with
    | error e => rfl
    | ok next => exact (ih next).trans (file_of_offer hr)

/-- The sink was given these records since it was opened, and refused none of them. -/
structure Holds (s : Sink) (records : List Record) : Prop where
  header : s.header = records.head?.map Record.columns
  accepted : s.accepted.reverse = records.map (rowOf (s.header.getD []))

theorem holds_start (root entity run : String) (compressed : Bool) :
    (start root entity run compressed).Holds [] :=
  ⟨rfl, rfl⟩

namespace Holds

variable {s s' : Sink} {records : List Record}

theorem offer {r : Record} (h : s.Holds records) (hr : s.offer r = .ok s') :
    s'.Holds (records ++ [r]) ∧ s'.file = s.file ∧ s'.compressed = s.compressed := by
  unfold Sink.offer at hr
  dsimp only at hr
  split at hr
  · cases hr
  · cases hr
    refine ⟨⟨?_, ?_⟩, rfl, rfl⟩
    · cases records with
      | nil => simp [h.header]
      | cons first rest => simp [h.header]
    · cases records with
      | nil =>
        simp [h.header, List.reverse_eq_nil_iff.1 (h.accepted.trans List.map_nil), project_eq_rowOf]
      | cons first rest => simp [h.header, h.accepted, project_eq_rowOf]

theorem takeAll {more : List Record} (h : s.Holds records)
    (htaken : s.takeAll more = (.ok (), s')) :
    s'.Holds (records ++ more) ∧ s'.file = s.file ∧ s'.compressed = s.compressed := by
  induction more generalizing s records with
  | nil =>
    cases htaken
    rw [List.append_nil]
    exact ⟨h, rfl, rfl⟩
  | cons r more ih =>
    rw [takeAll_cons] at htaken
    cases hr : s.offer r with
    | error e =>
      rw [hr] at htaken
      cases htaken
    | ok next =>
      rw [hr] at htaken
      obtain ⟨hnext, hfile, hcompressed⟩ := h.offer hr
      obtain ⟨hlast, hfile', hcompressed'⟩ := ih hnext htaken
      rw [List.append_assoc] at hlast
      exact ⟨hlast, hfile'.trans hfile, hcompressed'.trans hcompressed⟩

theorem lines_eq (h : s.Holds records) : s.lines = table records := by
  cases records with
  | nil => simp [lines, table, h.header, h.accepted]
  | cons first rest => simp [lines, table, h.header, h.accepted]

theorem rows_eq (h : s.Holds records) : s.rows = records.length := by
  rw [rows, ← List.length_reverse, h.accepted, List.length_map]

theorem content_eq (h : s.Holds records) : s.content = fileOf s.compressed records := by
  rw [content, text, h.lines_eq]
  rfl

end Holds

section Writing

variable (s : Sink)

theorem writesTo_append : WritesTo s.file (Storing.append s.file s.content) :=
  .ofReply _ _ (fun _ h => (Option.some.inj h).symm) fun _ => trivial

theorem writesTo_finish : WritesTo s.file s.finish :=
  .andThen (writesTo_append s) fun _ =>
    .andThen (.ofReply _ _ nofun fun _ => trivial) fun _ => trivial

theorem writesTo_drop : WritesTo s.file s.drop := .bind (writesTo_append s) fun _ => trivial

end Writing

end Harvest.Sink
