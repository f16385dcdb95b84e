import Harvest.Proofs.Sink
import Harvest.Proofs.Staging.File
import Harvest.Proofs.Stream.Draining

/-!
# What a sink has written is read back

The records that a reader makes of the file of a sink are those that the sink was given, if they
share one header of at least one column that does not begin with a byte-order mark
(`Sink.records_textOf`). An absent value is written as an empty field, which is read as an absent
value again; a row that would be an empty line is quoted, so it is not passed over.
-/

namespace Harvest

open Disk (Memory)

/-- Values that are written and read again. -/
theorem fieldValues_getD (columns fields : List String) :
    fieldValues columns ((fieldValues columns fields).map (·.getD "")) =
      fieldValues columns fields := by
  induction columns generalizing fields with
  | nil => rfl
  | cons column columns ih =>
    cases fields with
    | nil => simp [fieldValues, ih]
    | cons field fields =>
      simp only [fieldValues, List.map_cons, ih]
      cases hempty : field.isEmpty with
      | true => simp
      | false => simp [hempty]

namespace Csv

/-- A row that begins with a character that is neither a quote nor a comma begins as its first
field does. -/
theorem head?_of_rowText {first : String} {rest : List String} {c : Char} (hquote : c ≠ '"')
    (hcomma : c ≠ ',') (h : (rowText (first :: rest)).head? = some c) :
    first.toList.head? = some c := by
  have hfield (text : List Char) (others : List Char) (hothers : others.head? ≠ some c)
      (h : (fieldText text ++ others).head? = some c) : text.head? = some c := by
    unfold fieldText at h
    split at h
    · exact absurd (Option.some.inj h).symm hquote
    · cases text with
      | nil => exact absurd h hothers
      | cons d text => exact h
  have hjoined (others : List Char) (hothers : others.head? ≠ some c)
      (h : (joinFields ((first :: rest).map String.toList) ++ others).head? = some c) :
      first.toList.head? = some c := by
    cases rest with
    | nil => exact hfield first.toList others hothers h
    | cons next rest =>
      rw [List.map_cons, List.map_cons, joinFields_cons_cons, List.append_assoc] at h
      refine hfield first.toList _ ?_ h
      intro hhead
      exact hcomma (Option.some.inj hhead).symm
  unfold rowText at h
  split at h
  · exact absurd (Option.some.inj h).symm hquote
  · rename_i hne
    refine hjoined [] nofun ?_
    rw [List.append_nil]
    cases htext : joinFields ((first :: rest).map String.toList) with
    | nil => exact absurd htext hne
    | cons d text =>
      rw [htext] at h
      exact h

theorem flatMap_rowBytes (table : List (List String)) :
    table.flatMap rowBytes = Utf8.encode (table.flatMap rowText) := by
  rw [Utf8.encode, List.flatMap_assoc]
  rfl

/-- The rows of a table that was written are read back. -/
theorem table_ofList_flatMap {table : List (List String)} (hfields : ∀ row ∈ table, row ≠ [])
    (hmark : ¬ byteOrderMark <+: table.flatMap rowBytes) :
    Csv.table (String.ofList (table.flatMap rowText)) = table := by
  have hshown : table.map shown = table := by
    refine (List.map_congr_left fun row hrow => ?_).trans (List.map_id table)
    rw [shown, if_neg (hfields row hrow), id]
  have hwritten := map_text_written table 0
  have hrows : rows (table.flatMap rowBytes) =
      ((table.flatMap rowBytes).foldl Reader.step (.initial 0)).finish := by
    rw [rows, scan, if_neg (mt List.isPrefixOf_iff_prefix.1 hmark)]
  rw [hshown, ← hrows] at hwritten
  rw [Csv.table, Utf8.encodeString, String.toList_ofList, ← flatMap_rowBytes, texts]
  calc (rows (table.flatMap rowBytes)).filterMap (fun row => row.text.toOption)
      = ((rows (table.flatMap rowBytes)).map Row.text).filterMap Except.toOption := by
        rw [List.filterMap_map]
        rfl
    _ = table := by
        rw [hwritten, List.filterMap_map]
        exact List.filterMap_some

end Csv

namespace Sink

/-- The text of the file of records. -/
def textOf (records : List Record) : String := String.ofList ((table records).flatMap Csv.rowText)

/-- The file of records gives all of their text, once it is expanded if it is compressed. -/
theorem page_fileOf (compressed : Bool) (records : List Record) :
    (if compressed then Gzip.expand ⟨fileOf compressed records, none⟩
      else ⟨fileOf compressed records, none⟩) = Page.whole (textOf records) := by
  refine (encodes_fileOf compressed records).trans ?_
  rw [Page.whole, textOf, Utf8.encodeString, String.toList_ofList, Csv.flatMap_rowBytes]

variable {columns : List String}

/-- The records of one header are read back from their file. -/
theorem records_textOf (hcolumns : columns ≠ [])
    (hmark : ∀ first ∈ columns.head?, first.toList.head? ≠ some '\uFEFF')
    (rows : List (List String)) :
    Csv.records (textOf (rows.map (Record.ofFields columns))) =
      rows.map (Record.ofFields columns) := by
  cases rows with
  | nil => rfl
  | cons row rows =>
    have htable : table ((row :: rows).map (Record.ofFields columns)) =
        columns :: (row :: rows).map fun fields =>
          (fieldValues columns fields).map (·.getD "") := by
      rw [List.map_cons, table, ← List.map_cons, List.map_map]
      refine congrArg₂ List.cons rfl (List.map_congr_left fun fields _ => ?_)
      exact rowOf_self (Record.ofFields columns fields)
    have hfields : ∀ fields ∈ table ((row :: rows).map (Record.ofFields columns)), fields ≠ [] := by
      rw [htable]
      refine List.forall_mem_cons.2 ⟨hcolumns, fun values hvalues hnil => ?_⟩
      obtain ⟨fields, -, rfl⟩ := List.mem_map.1 hvalues
      have hlength := length_fieldValues columns fields
      rw [List.map_eq_nil_iff.1 hnil] at hlength
      exact hcolumns (List.length_eq_zero_iff.1 hlength.symm)
    have hbegins : ¬ Csv.byteOrderMark <+:
        (table ((row :: rows).map (Record.ofFields columns))).flatMap Csv.rowBytes := by
      intro hprefix
      rw [Csv.flatMap_rowBytes] at hprefix
      obtain ⟨rest, htext⟩ := Csv.exists_eq_cons_of_mark hprefix
      obtain ⟨first, others, rfl⟩ := List.exists_cons_of_ne_nil hcolumns
      have hhead := congrArg List.head? htext
      rw [htable, List.flatMap_cons, List.head?_append] at hhead
      have hfirst : (Csv.rowText (first :: others)).head? = some '\uFEFF' := by
        obtain ⟨c, line, hline⟩ := List.exists_cons_of_ne_nil (Csv.rowText_ne_nil (first :: others))
        rw [hline] at hhead ⊢
        exact hhead
      exact hmark first rfl (Csv.head?_of_rowText (by decide) (by decide) hfirst)
    have hread := Csv.table_ofList_flatMap hfields hbegins
    rw [htable] at hread
    rw [Csv.records, Csv.data, Csv.header, textOf, htable, hread]
    simp only [List.tail_cons, List.headD_cons, List.map_map]
    refine List.map_congr_left fun fields _ => ?_
    rw [Record.eq_iff]
    exact ⟨rfl, fieldValues_getD columns fields⟩

end Sink

end Harvest
