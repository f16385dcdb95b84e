import Harvest.Csv.Writer
import Harvest.Proofs.Csv.Cut

/-!
# What was written is read back

A row that was written is read back field by field (`Reader.Stands.row`), whatever commas, quotes
and line ends its fields hold, and so is a table, row by row (`map_text_written`). A row without
fields is read back as one empty field. A byte-order mark at the beginning is a part of the first
field here.
-/

namespace Harvest.Csv

open Utf8 (encode encodeString)

section Bytes

/-- A byte that a reader acts on outside of quotes. -/
def isSpecial (b : UInt8) : Bool := b == 44 || b == 34 || b == 13 || b == 10

theorem toNat_of_mem_encodeChar {c : Char} {b : UInt8} (h : b ∈ String.utf8EncodeChar c)
    (hb : b.toNat < 0x80) : c.toNat = b.toNat := by
  by_cases hc : c.toNat ≤ 0x7F
  · rw [Utf8.encodeChar_of_ascii c hc, List.mem_singleton] at h
    rw [h, Utf8.toNat_ofNat_of_lt _ (by omega)]
  · have := Utf8.le_of_mem_encodeChar c (by omega) b h
    omega

/-- A byte that is a character of its own is a byte of no other character. -/
theorem eq_of_mem_encodeChar {c d : Char} (hd : d.toNat ≤ 0x7F)
    (h : UInt8.ofNat d.toNat ∈ String.utf8EncodeChar c) : c = d := by
  have hbyte : (UInt8.ofNat d.toNat).toNat = d.toNat := Utf8.toNat_ofNat_of_lt _ (by omega)
  have hc := toNat_of_mem_encodeChar h (by omega)
  exact Char.toNat_inj.1 (hc.trans hbyte)

theorem isSpecial_of_mem_encode {s : List Char} (h : s.any needsQuotes = false) :
    ∀ b ∈ encode s, isSpecial b = false := by
  intro b hb
  obtain ⟨c, hc, hb⟩ := List.mem_flatMap.1 hb
  have hplain : ¬ needsQuotes c = true := List.any_eq_false.1 h c hc
  rw [← Bool.not_eq_true]
  intro hspecial
  refine hplain ?_
  simp only [isSpecial, Bool.or_eq_true, beq_iff_eq] at hspecial
  obtain ((rfl | rfl) | rfl) | rfl := hspecial
  · rw [eq_of_mem_encodeChar (d := ',') (by decide) hb]
    rfl
  · rw [eq_of_mem_encodeChar (d := '"') (by decide) hb]
    rfl
  · rw [eq_of_mem_encodeChar (d := '\r') (by decide) hb]
    rfl
  · rw [eq_of_mem_encodeChar (d := '\n') (by decide) hb]
    rfl

theorem eq_nil_of_encode {s : List Char} (h : encode s = []) : s = [] := by
  cases s with
  | nil => rfl
  | cons c s => exact absurd (List.append_eq_nil_iff.1 h).1 (String.utf8EncodeChar_ne_nil)

end Bytes

section Rows

theorem joinFields_cons_cons (text next : List Char) (texts : List (List Char)) :
    joinFields (text :: next :: texts) = fieldText text ++ ',' :: joinFields (next :: texts) := by
  rw [joinFields]
  exact List.cons_ne_nil _ _

theorem fieldText_eq_nil_iff {text : List Char} : fieldText text = [] ↔ text = [] := by
  unfold fieldText
  split
  · rename_i h
    refine iff_of_false (List.cons_ne_nil _ _) ?_
    rintro rfl
    cases h
  · rfl

/-- Only a row of nothing would be an empty line. -/
theorem eq_of_joinFields_eq_nil {texts : List (List Char)} (h : joinFields texts = []) :
    texts = [] ∨ texts = [[]] := by
  cases texts with
  | nil => exact .inl rfl
  | cons text texts =>
    cases texts with
    | nil => exact .inr (congrArg (fun t => [t]) (fieldText_eq_nil_iff.1 h))
    | cons next texts =>
      rw [joinFields_cons_cons] at h
      exact absurd (List.append_eq_nil_iff.1 h).2 (List.cons_ne_nil _ _)

end Rows

/-- A row as it is read back: one without fields has one empty field. -/
def shown (texts : List String) : List String := if texts = [] then [""] else texts

namespace Reader

/-- What a reader has taken, wherever it stands in the text. -/
structure Stands (r : Reader) (mode : Mode) (field : List UInt8) (fields : List (List UInt8))
    (rows : List (List (List UInt8))) : Prop where
  mode : r.mode = mode
  field : r.field.reverse = field
  fields : r.fields.reverse = fields
  rows : r.done.reverse.map Row.fields = rows

/-- What a reader has taken when the field at hand can end; `blank` has to hold where the reader
still stands before the first byte of a row. -/
def Closes (r : Reader) (blank : Prop) (field : List UInt8) (fields : List (List UInt8))
    (rows : List (List (List UInt8))) : Prop :=
  ∃ mode, r.Stands mode field fields rows ∧ mode ≠ .quoted ∧ (mode = .rowStart → blank)

variable {r : Reader} {mode : Mode} {field : List UInt8} {fields : List (List UInt8)}
  {rows : List (List (List UInt8))} {blank : Prop}

theorem step_of_not_special (hmode : r.mode ≠ .quoted) {b : UInt8} (hb : isSpecial b = false) :
    r.step b = (r.count b).push .plain b := by
  simp only [isSpecial, Bool.or_eq_false_iff, beq_eq_false_iff_ne] at hb
  obtain ⟨⟨⟨hcomma, hquote⟩, hreturn⟩, hfeed⟩ := hb
  have hend : isLineEnd b = false := by simp [isLineEnd, hreturn, hfeed]
  have hplain (q : Reader) : q.takePlain b = q.push .plain b := by simp [takePlain, hcomma, hend]
  have hfirst (q : Reader) : q.takeFirst b = q.push .plain b := by simp [takeFirst, hquote, hplain]
  unfold step take
  split
  · rw [hend, if_neg Bool.false_ne_true, hfirst]
  · exact hfirst _
  · exact hplain _
  · rename_i hquoted
    exact absurd hquoted hmode
  · rw [if_neg hquote, hplain]

theorem Stands.plainByte (h : r.Stands mode field fields rows) (hmode : mode ≠ .quoted) (b : UInt8)
    (hb : isSpecial b = false) : (r.step b).Stands .plain (field ++ [b]) fields rows := by
  obtain ⟨rfl, rfl, rfl, rfl⟩ := h
  rw [step_of_not_special hmode hb]
  exact ⟨rfl, List.reverse_cons, rfl, rfl⟩

theorem Stands.quotedByte (h : r.Stands .quoted field fields rows) (b : UInt8) (hb : b ≠ 34) :
    (r.step b).Stands .quoted (field ++ [b]) fields rows := by
  obtain ⟨hmode, rfl, rfl, rfl⟩ := h
  have hstep : r.step b = (r.count b).push .quoted b := by simp [step, take, count, hmode, hb]
  rw [hstep]
  exact ⟨rfl, List.reverse_cons, rfl, rfl⟩

theorem Stands.openQuote (h : r.Stands mode field fields rows)
    (hmode : mode = .rowStart ∨ mode = .fieldStart) :
    (r.step 34).Stands .quoted field fields rows := by
  obtain ⟨rfl, rfl, rfl, rfl⟩ := h
  have hstep : r.step 34 = { r.count 34 with mode := .quoted } := by
    rcases hmode with hmode | hmode
    · simp [step, take, takeFirst, isLineEnd, count, hmode]
    · simp [step, take, takeFirst, count, hmode]
  rw [hstep]
  exact ⟨rfl, rfl, rfl, rfl⟩

theorem Stands.closeQuote (h : r.Stands .quoted field fields rows) :
    (r.step 34).Stands .quotedQuote field fields rows := by
  obtain ⟨hmode, rfl, rfl, rfl⟩ := h
  have hstep : r.step 34 = { r.count 34 with mode := .quotedQuote } := by
    simp [step, take, count, hmode]
  rw [hstep]
  exact ⟨rfl, rfl, rfl, rfl⟩

theorem Stands.secondQuote (h : r.Stands .quotedQuote field fields rows) :
    (r.step 34).Stands .quoted (field ++ [34]) fields rows := by
  obtain ⟨hmode, rfl, rfl, rfl⟩ := h
  have hstep : r.step 34 = (r.count 34).push .quoted 34 := by simp [step, take, count, hmode]
  rw [hstep]
  exact ⟨rfl, List.reverse_cons, rfl, rfl⟩

theorem Closes.comma (h : r.Closes blank field fields rows) :
    (r.step 44).Stands .fieldStart [] (fields ++ [field]) rows := by
  obtain ⟨mode, ⟨rfl, rfl, rfl, rfl⟩, hquoted, -⟩ := h
  have hstep : r.step 44 = (r.count 44).endField .fieldStart := by
    unfold step take
    split
    · rfl
    · rfl
    · rfl
    · rename_i hmode
      exact absurd hmode hquoted
    · rfl
  rw [hstep]
  exact ⟨rfl, rfl, List.reverse_cons, rfl⟩

theorem Closes.lineFeed (h : r.Closes blank field fields rows) (hblank : ¬ blank) :
    (r.step 10).Stands .rowStart [] [] (rows ++ [fields ++ [field]]) := by
  obtain ⟨mode, ⟨rfl, rfl, rfl, rfl⟩, hquoted, hrow⟩ := h
  have hstep : r.step 10 = (r.count 10).endRow := by
    unfold step take
    split
    · rename_i hmode
      exact absurd (hrow hmode) hblank
    · rfl
    · rfl
    · rename_i hmode
      exact absurd hmode hquoted
    · rfl
  rw [hstep]
  exact ⟨rfl, rfl, rfl, by simp [endRow, count]⟩

theorem Stands.plainBytes (h : r.Stands mode field fields rows) (hmode : mode ≠ .quoted)
    (bytes : List UInt8) (hbytes : ∀ b ∈ bytes, isSpecial b = false) :
    (bytes.foldl step r).Closes (mode = .rowStart ∧ bytes = []) (field ++ bytes) fields rows := by
  induction bytes generalizing r mode field with
  | nil => exact ⟨mode, by simpa using h, hmode, fun hrow => ⟨hrow, rfl⟩⟩
  | cons b bytes ih =>
    obtain ⟨hb, hbytes⟩ := List.forall_mem_cons.1 hbytes
    obtain ⟨mode', hstands, hquoted, hrow⟩ := ih (h.plainByte hmode b hb) Mode.noConfusion hbytes
    rw [List.append_assoc] at hstands
    exact ⟨mode', hstands, hquoted, fun h => Mode.noConfusion (hrow h).1⟩

theorem Stands.quotedBytes (h : r.Stands .quoted field fields rows) (bytes : List UInt8)
    (hbytes : ∀ b ∈ bytes, b ≠ 34) :
    (bytes.foldl step r).Stands .quoted (field ++ bytes) fields rows := by
  induction bytes generalizing r field with
  | nil => simpa using h
  | cons b bytes ih =>
    obtain ⟨hb, hbytes⟩ := List.forall_mem_cons.1 hbytes
    have hstands := ih (h.quotedByte b hb) hbytes
    rwa [List.append_assoc] at hstands

/-- A text inside quotes is taken as it is. -/
theorem Stands.doubleQuotes (h : r.Stands .quoted field fields rows) (s : List Char) :
    ((encode (doubleQuotes s)).foldl step r).Stands .quoted (field ++ encode s) fields rows := by
  induction s generalizing r field with
  | nil => simpa using h
  | cons c s ih =>
    rw [doubleQuotes_cons, Utf8.encode_cons, ← List.append_assoc]
    split
    · rename_i hc
      subst hc
      exact ih h.closeQuote.secondQuote
    · rename_i hc
      rw [Utf8.encode_cons, List.foldl_append]
      refine ih (h.quotedBytes _ ?_)
      rintro _ hb rfl
      exact hc (eq_of_mem_encodeChar (d := '"') (by decide) hb)

theorem Stands.fieldText (h : r.Stands mode [] fields rows)
    (hmode : mode = .rowStart ∨ mode = .fieldStart) (s : List Char) :
    ((encode (fieldText s)).foldl step r).Closes (mode = .rowStart ∧ Csv.fieldText s = [])
      (encode s) fields rows := by
  unfold Csv.fieldText
  split
  · have hquoted := ((h.openQuote hmode).doubleQuotes s).closeQuote
    rw [Utf8.encode_append, List.foldl_append]
    exact ⟨.quotedQuote, hquoted, Mode.noConfusion, Mode.noConfusion⟩
  · rename_i hs
    have hquoted : mode ≠ .quoted := by rcases hmode with rfl | rfl <;> exact Mode.noConfusion
    obtain ⟨mode', hstands, hmode', hrow⟩ := h.plainBytes hquoted (encode s)
      (isSpecial_of_mem_encode (Bool.eq_false_iff.2 hs))
    refine ⟨mode', hstands, hmode', fun h => ⟨(hrow h).1, ?_⟩⟩
    exact eq_nil_of_encode (hrow h).2

/-- The fields of a row and its line end are taken, unless it is an empty line. -/
theorem Stands.joinFields (h : r.Stands mode [] fields rows)
    (hmode : mode = .rowStart ∨ mode = .fieldStart) (texts : List (List Char)) (htexts : texts ≠ [])
    (hblank : ¬ (mode = .rowStart ∧ Csv.joinFields texts = [])) :
    ((encode (Csv.joinFields texts ++ ['\n'])).foldl step r).Stands .rowStart [] []
      (rows ++ [fields ++ texts.map encode]) := by
  induction texts generalizing r mode fields with
  | nil => exact absurd rfl htexts
  | cons text texts ih =>
    cases texts with
    | nil =>
      rw [Utf8.encode_append, List.foldl_append]
      exact (h.fieldText hmode text).lineFeed hblank
    | cons next texts =>
      have hnext := ih (h.fieldText hmode text).comma (.inr rfl) (List.cons_ne_nil _ _)
        (fun hrow => Mode.noConfusion hrow.1)
      rw [List.append_assoc] at hnext
      rw [joinFields_cons_cons, List.append_assoc, Utf8.encode_append, List.foldl_append]
      exact hnext

/-- A written row is read back. -/
theorem Stands.row (h : r.Stands .rowStart [] [] rows) (texts : List String) :
    ((rowBytes texts).foldl step r).Stands .rowStart [] []
      (rows ++ [(shown texts).map encodeString]) := by
  unfold rowBytes rowText
  split
  · rename_i hempty
    have hshown : (shown texts).map encodeString = [[]] := by
      rcases eq_of_joinFields_eq_nil hempty with htexts | htexts
      · rw [List.map_eq_nil_iff.1 htexts]
        rfl
      · obtain ⟨text, rfl, htext⟩ := List.map_eq_singleton_iff.1 htexts
        rw [String.toList_eq_nil_iff.1 htext]
        rfl
    have hquotes := (h.openQuote (.inl rfl)).closeQuote
    rw [hshown]
    exact Closes.lineFeed ⟨.quotedQuote, hquotes, Mode.noConfusion, Mode.noConfusion⟩ not_false
  · rename_i htexts
    have hne : texts ≠ [] := by
      rintro rfl
      exact htexts rfl
    have hrow := h.joinFields (.inl rfl) (texts.map String.toList)
      (mt List.map_eq_nil_iff.1 hne) fun hblank => htexts hblank.2
    rw [List.map_map] at hrow
    rw [shown, if_neg hne]
    exact hrow

/-- Written rows are read back. -/
theorem Stands.table (h : r.Stands .rowStart [] [] rows) (table : List (List String)) :
    ((table.flatMap rowBytes).foldl step r).Stands .rowStart [] []
      (rows ++ (table.map shown).map fun texts => texts.map encodeString) := by
  induction table generalizing r rows with
  | nil => simpa using h
  | cons texts table ih =>
    have hrest := ih (h.row texts)
    rw [List.append_assoc] at hrest
    rw [List.flatMap_cons, List.foldl_append]
    exact hrest

end Reader

theorem decodeFields_encode (place : Place) (i : Nat) (texts : List String) :
    decodeFields place i (texts.map encodeString) = .ok texts := by
  induction texts generalizing i with
  | nil => rfl
  | cons text texts ih =>
    rw [List.map_cons, decodeFields, encodeString, Utf8.decodeString_encode, String.ofList_toList]
    simp [ih, Except.map]

theorem map_text_of_map_fields {rows : List Row} {table : List (List String)}
    (h : rows.map Row.fields = table.map fun texts => texts.map encodeString) :
    rows.map Row.text = table.map .ok := by
  induction rows generalizing table with
  | nil =>
    cases table with
    | nil => rfl
    | cons texts table => cases h
  | cons row rows ih =>
    cases table with
    | nil => cases h
    | cons texts table =>
      obtain ⟨hrow, hrows⟩ := List.cons.inj h
      rw [List.map_cons, List.map_cons, ih hrows, Row.text, hrow, decodeFields_encode]

/-- The written rows of a table are read back. -/
theorem map_text_written (table : List (List String)) (skipped : Nat) :
    ((table.flatMap rowBytes).foldl Reader.step (.initial skipped)).finish.map Row.text =
      (table.map shown).map .ok := by
  have hread := Reader.Stands.table (r := .initial skipped) ⟨rfl, rfl, rfl, rfl⟩ table
  rw [Reader.finish, hread.mode]
  exact map_text_of_map_fields hread.rows

end Harvest.Csv
