import Harvest.Catalog.Store
import Harvest.Proofs.Disk.Frame
import Harvest.Proofs.Document.Schema
import Harvest.Proofs.Json.RoundTrip

/-!
# The document of a catalog

The document to which a catalog is written is read back as the catalog that it was made from, and so
is the file (`Store.load_of_kept`).
-/

namespace Harvest

open Document Json

namespace Json

theorem string_text (s : String) : string leafReading (Value.text s) = .ok s := rfl

theorem each_map {α : Type} {decode : Decoder Leaf α} {encode : α → Value}
    (h : ∀ x, decode (encode x) = .ok x) (xs : List α) : each decode (xs.map encode) = .ok xs := by
  induction xs with
  | nil => rfl
  | cons x xs ih =>
    rw [List.map_cons, each, h x, ih]
    rfl

theorem list_array {α : Type} {decode : Decoder Leaf α} {encode : α → Value}
    (h : ∀ x, decode (encode x) = .ok x) (xs : List α) :
    list leafReading decode (Value.array (xs.map encode)) = .ok xs := by
  rw [Value.array, list, each_map h xs]
  rfl

theorem list_texts (xs : List String) :
    list leafReading (string leafReading) (Value.texts xs) = .ok xs :=
  list_array string_text xs

theorem written_texts (xs : List String) : Written (.texts xs) := by
  apply written_array
  intro v hv
  obtain ⟨s, -, rfl⟩ := List.mem_map.1 hv
  exact written_text s

end Json

namespace Catalog

theorem Table.decode_encode (t : Table) : Table.decode leafReading t.encode = .ok t := by
  have hreads := Schema.reads_pure Table.mk
    |>.required "database" (string_text t.database)
    |>.required "name" (string_text t.name)
    |>.required "location" (string_text t.location)
    |>.required "columns" (list_texts t.columns)
    |>.required "partition_keys" (list_texts t.partitionKeys)
  exact hreads.decode (by decide) leafReading

theorem Partition.decode_encode (p : Partition) :
    Partition.decode leafReading p.encode = .ok p := by
  have hreads := Schema.reads_pure Partition.mk
    |>.required "values" (list_texts p.values)
    |>.required "location" (string_text p.location)
  exact hreads.decode (by decide) leafReading

theorem Stored.decode_encode (s : Stored) : Stored.decode leafReading s.encode = .ok s := by
  have hreads := Schema.reads_pure Stored.mk
    |>.required "table" s.table.decode_encode
    |>.withDefault "partitions" [] (list_array Partition.decode_encode s.partitions)
  exact hreads.decode (by decide) leafReading

theorem Contents.decode_encode (c : Contents) : Contents.decode leafReading c.encode = .ok c := by
  have hreads := Schema.reads_pure id
    |>.withDefault "tables" [] (list_array Stored.decode_encode c)
  exact hreads.decode (by decide) leafReading

theorem Table.written_encode (t : Table) : Written t.encode := by
  apply written_object
  simp [written_text, written_texts]

theorem Partition.written_encode (p : Partition) : Written p.encode := by
  apply written_object
  simp [written_text, written_texts]

theorem Stored.written_encode (s : Stored) : Written s.encode := by
  apply written_object
  have hpartitions : Written (.array (s.partitions.map Partition.encode)) := by
    apply written_array
    intro v hv
    obtain ⟨p, -, rfl⟩ := List.mem_map.1 hv
    exact p.written_encode
  simp [s.table.written_encode, hpartitions]

theorem Contents.written_encode (c : Contents) : Written c.encode := by
  apply written_object
  have htables : Written (.array (c.map Stored.encode)) := by
    apply written_array
    intro v hv
    obtain ⟨s, -, rfl⟩ := List.mem_map.1 hv
    exact s.written_encode
  simp [htables]

namespace Store

variable {m m' : Disk.Memory}

theorem decodeText_text (s : Store) :
    decodeText (Contents.decode leafReading) s.text = .ok s.contents := by
  rw [text, s.contents.written_encode.decodeText, s.contents.decode_encode]

/-- The disk holds a catalog: in its file, or by there being no file as long as it is empty. -/
def Kept (s : Store) (m : Disk.Memory) : Prop :=
  m.find s.path = .ok (.file (Utf8.encodeString s.text)) ∨
    (∀ e, m.find s.path ≠ .ok e) ∧ s.contents = []

/-- A catalog that the disk holds is loaded as it is. -/
theorem load_of_kept (s : Store) (h : s.Kept m) :
    Program.onDisk (load s.path) m = (.ok s, m) := by
  rw [load, Storing.onDisk_bind_ok (Storing.onDisk_isFile s.path m),
    Storing.onDisk_bind_ok (Storing.onDisk_isDirectory s.path m)]
  rcases h with hfile | ⟨hmissing, hempty⟩
  · rw [hfile]
    simp only [Bool.true_or, if_true]
    rw [Storing.onDisk_bind_ok (Storing.onDisk_readText hfile), decodeText_text]
    rfl
  · cases hfind : m.find s.path with
    | ok e => exact absurd hfind (hmissing e)
    | error o =>
      simp only [Bool.or_false, Bool.false_eq_true, if_false]
      rw [← hempty]
      rfl

/-- A catalog is held once it was saved. -/
theorem kept_of_save (s : Store) (h : Program.onDisk s.save m = (.ok (), m')) : s.Kept m' := by
  suffices hwrite : ∃ middle, Program.onDisk
      (Storing.write s.path (Utf8.encodeString s.text)) middle = (.ok (), m') by
    obtain ⟨middle, hwrite⟩ := hwrite
    obtain ⟨_, -, hfind⟩ := Disk.Memory.find_of_writeFile (Storing.writeFile_of_write hwrite)
    exact .inl hfind
  rw [save] at h
  split at h
  · split at h
    · exact ⟨m, h⟩
    · obtain ⟨_, middle, -, hwrite⟩ := Storing.ok_of_onDisk_bind h
      exact ⟨middle, hwrite⟩
  · exact ⟨m, h⟩

end Store

end Catalog

end Harvest
