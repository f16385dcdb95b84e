import Harvest.Csv.Reader
import Harvest.Proofs.Text.Encoding

/-!
# Rows of a text that is cut off

Where a text ends early, the rows that were completed are the first rows of the whole text
(`completedRows_take_isPrefix`), wherever the cut falls: in the byte-order mark, in a quoted
field or in the middle of a character. The rows of a text have a decoding each
(`exists_text_of_mem_rows`), because the reader parts and drops bytes of the ASCII range only.
-/

namespace Harvest.Csv

open Utf8 (encode)

/-- Bytes that code a text. -/
def IsText (bytes : List UInt8) : Prop := ∃ s : List Char, bytes = encode s

theorem isText_nil : IsText [] := ⟨[], rfl⟩

theorem IsText.append {xs ys : List UInt8} (hx : IsText xs) (hy : IsText ys) :
    IsText (xs ++ ys) := by
  obtain ⟨s, rfl⟩ := hx
  obtain ⟨t, rfl⟩ := hy
  exact ⟨s ++ t, (Utf8.encode_append s t).symm⟩

theorem isText_encodeChar (c : Char) : IsText (String.utf8EncodeChar c) :=
  ⟨[c], by simp [encode]⟩

/-- A row all of whose fields code texts. -/
def Row.IsText (row : Row) : Prop := ∀ field ∈ row.fields, Csv.IsText field

theorem exists_decodeFields (place : Place) (i : Nat) (fields : List (List UInt8))
    (h : ∀ field ∈ fields, IsText field) :
    ∃ texts, decodeFields place i fields = .ok texts := by
  induction fields generalizing i with
  | nil => exact ⟨[], rfl⟩
  | cons field fields ih =>
    obtain ⟨s, rfl⟩ := h field List.mem_cons_self
    obtain ⟨texts, htexts⟩ := ih (i + 1) fun f hf => h f (List.mem_cons_of_mem _ hf)
    refine ⟨String.ofList s :: texts, ?_⟩
    rw [decodeFields, Utf8.decodeString_encode]
    simp [htexts, Except.map]

theorem Row.IsText.exists_text {row : Row} (h : row.IsText) :
    ∃ fields, row.text = .ok fields :=
  exists_decodeFields row.place 0 row.fields h

namespace Reader

/-- The bytes a reader has taken code texts, field by field. -/
structure Textual (r : Reader) : Prop where
  field : IsText r.field.reverse
  fields : ∀ f ∈ r.fields, IsText f
  done : ∀ row ∈ r.done, row.IsText

theorem textual_initial (skipped : Nat) : (initial skipped).Textual :=
  ⟨isText_nil, by simp [initial], by simp [initial]⟩

theorem Textual.count {r : Reader} (h : r.Textual) (b : UInt8) : (r.count b).Textual :=
  ⟨h.field, h.fields, h.done⟩

theorem Textual.mode {r : Reader} (h : r.Textual) (mode : Mode) :
    ({ r with mode := mode } : Reader).Textual :=
  ⟨h.field, h.fields, h.done⟩

theorem Textual.mem_endField {r : Reader} (h : r.Textual) (f : List UInt8)
    (hf : f ∈ r.field.reverse :: r.fields) : IsText f := by
  rcases List.mem_cons.1 hf with rfl | hf
  · exact h.field
  · exact h.fields f hf

theorem Textual.endField {r : Reader} (h : r.Textual) (mode : Mode) : (r.endField mode).Textual :=
  ⟨isText_nil, h.mem_endField, h.done⟩

theorem Textual.endRow {r : Reader} (h : r.Textual) : r.endRow.Textual := by
  refine ⟨isText_nil, by simp [Reader.endRow], ?_⟩
  intro row hrow
  rcases List.mem_cons.1 hrow with rfl | hrow
  · intro f hf
    exact h.mem_endField f (List.mem_reverse.1 hf)
  · exact h.done row hrow

theorem Textual.push {r : Reader} (h : r.Textual) (mode : Mode) (b : UInt8)
    (hb : IsText [b]) : (r.push mode b).Textual := by
  refine ⟨?_, h.fields, h.done⟩
  have hfield := h.field.append hb
  simpa [Reader.push] using hfield

theorem Textual.takePlain {r : Reader} (h : r.Textual) (b : UInt8) (hb : IsText [b]) :
    (r.takePlain b).Textual := by
  unfold Reader.takePlain
  split
  · exact h.endField .fieldStart
  · split
    · exact h.endRow
    · exact h.push .plain b hb

theorem Textual.takeFirst {r : Reader} (h : r.Textual) (b : UInt8) (hb : IsText [b]) :
    (r.takeFirst b).Textual := by
  unfold Reader.takeFirst
  split
  · exact h.mode .quoted
  · exact h.takePlain b hb

theorem Textual.step {r : Reader} (h : r.Textual) (b : UInt8) (hb : IsText [b]) :
    (r.step b).Textual := by
  have hcount := h.count b
  unfold Reader.step take
  split
  · split
    · exact hcount
    · exact hcount.takeFirst b hb
  · exact hcount.takeFirst b hb
  · exact hcount.takePlain b hb
  · split
    · exact hcount.mode .quotedQuote
    · exact hcount.push .quoted b hb
  · split
    · exact hcount.push .quoted b hb
    · exact hcount.takePlain b hb

/-- A byte above the ASCII range is added to the field at hand, wherever the reader stands. -/
theorem step_of_le (r : Reader) (b : UInt8) (h : 0x80 ≤ b.toNat) :
    ∃ mode, r.step b = (r.count b).push mode b := by
  have hne (n : UInt8) (hn : n.toNat < 0x80) : b ≠ n := by
    rintro rfl
    omega
  have hquote : b ≠ 34 := hne 34 (by decide)
  have hcomma : b ≠ 44 := hne 44 (by decide)
  have hend : isLineEnd b = false := by simp [isLineEnd, hne 10 (by decide), hne 13 (by decide)]
  have hplain (q : Reader) : q.takePlain b = q.push .plain b := by
    simp [Reader.takePlain, hcomma, hend]
  have hfirst (q : Reader) : q.takeFirst b = q.push .plain b := by
    simp [Reader.takeFirst, hquote, hplain]
  unfold Reader.step take
  split
  · exact ⟨.plain, by simp [hend, hfirst]⟩
  · exact ⟨.plain, hfirst _⟩
  · exact ⟨.plain, hplain _⟩
  · exact ⟨.quoted, by simp [hquote]⟩
  · exact ⟨.plain, by simp [hquote, hplain]⟩

theorem foldl_step_of_le (bytes : List UInt8) (r : Reader) (h : ∀ b ∈ bytes, 0x80 ≤ b.toNat) :
    (bytes.foldl Reader.step r).field = bytes.reverse ++ r.field ∧
      (bytes.foldl Reader.step r).fields = r.fields ∧
      (bytes.foldl Reader.step r).done = r.done := by
  induction bytes generalizing r with
  | nil => simp
  | cons b bytes ih =>
    obtain ⟨mode, hstep⟩ := step_of_le r b (h b List.mem_cons_self)
    have hrest := ih (r.step b) fun c hc => h c (List.mem_cons_of_mem _ hc)
    rw [List.foldl_cons]
    rw [hstep] at hrest ⊢
    simpa [Reader.push, Reader.count] using hrest

theorem Textual.foldl_encodeChar {r : Reader} (h : r.Textual) (c : Char) :
    ((String.utf8EncodeChar c).foldl Reader.step r).Textual := by
  by_cases hc : c.toNat ≤ 0x7F
  · have hb := isText_encodeChar c
    rw [Utf8.encodeChar_of_ascii c hc] at hb ⊢
    exact h.step (UInt8.ofNat c.toNat) hb
  · obtain ⟨hfield, hfields, hdone⟩ :=
      foldl_step_of_le _ r (Utf8.le_of_mem_encodeChar c (by omega))
    refine ⟨?_, hfields ▸ h.fields, hdone ▸ h.done⟩
    have htext := h.field.append (isText_encodeChar c)
    rw [hfield]
    simpa using htext

theorem Textual.foldl_encode (s : List Char) {r : Reader} (h : r.Textual) :
    ((encode s).foldl Reader.step r).Textual := by
  induction s generalizing r with
  | nil => exact h
  | cons c s ih =>
    rw [Utf8.encode_cons, List.foldl_append]
    exact ih (h.foldl_encodeChar c)

theorem Textual.finish {r : Reader} (h : r.Textual) : ∀ row ∈ r.finish, row.IsText := by
  intro row hrow
  unfold Reader.finish at hrow
  split at hrow
  · exact h.done row (List.mem_reverse.1 hrow)
  · exact h.endRow.done row (List.mem_reverse.1 hrow)

end Reader

/-- The byte-order mark is a character of its own. -/
theorem exists_eq_cons_of_mark {s : List Char} (h : byteOrderMark <+: encode s) :
    ∃ t, s = '\uFEFF' :: t := by
  obtain ⟨rest, hrest⟩ := h
  cases s with
  | nil => simp [byteOrderMark] at hrest
  | cons c s =>
    have hmark : byteOrderMark = String.utf8EncodeChar '\uFEFF' := by decide
    have hfirst := Utf8.decodeChar?_encodeChar '\uFEFF' rest
    rw [← hmark, hrest, Utf8.encode_cons, Utf8.decodeChar?_encodeChar] at hfirst
    obtain ⟨rfl, -⟩ := Prod.mk.inj (Option.some.inj hfirst)
    exact ⟨s, rfl⟩

/-- A text that starts with the byte-order mark goes on with a text. -/
theorem isText_drop_mark (s : List Char) (h : byteOrderMark <+: encode s) :
    IsText ((encode s).drop 3) := by
  obtain ⟨t, rfl⟩ := exists_eq_cons_of_mark h
  exact ⟨t, rfl⟩

theorem textual_scan (s : List Char) : (scan (encode s)).Textual := by
  unfold scan
  split
  · rename_i h
    obtain ⟨t, ht⟩ := isText_drop_mark s (List.isPrefixOf_iff_prefix.1 h)
    rw [ht]
    exact Reader.Textual.foldl_encode t (Reader.textual_initial 3)
  · exact Reader.Textual.foldl_encode s (Reader.textual_initial 0)

theorem isText_of_mem_rows (s : List Char) (row : Row) (h : row ∈ rows (encode s)) :
    row.IsText :=
  (textual_scan s).finish row h

/-- Every row of a text has a decoding. -/
theorem exists_text_of_mem_rows (s : List Char) (row : Row) (h : row ∈ rows (encode s)) :
    ∃ fields, row.text = .ok fields :=
  (isText_of_mem_rows s row h).exists_text

/-- Nothing is completed within the byte-order mark. -/
theorem completedRows_of_mark (n : Nat) (h : n < 3) :
    completedRows (byteOrderMark.take n) = [] := by
  have hn : n = 0 ∨ n = 1 ∨ n = 2 := by omega
  rcases hn with rfl | rfl | rfl <;> rfl

@[simp] theorem completedRows_mark : completedRows byteOrderMark = [] := rfl

/-- The rows completed before a cut are the first rows of the text. -/
theorem completedRows_take_isPrefix (bytes : List UInt8) (n : Nat) :
    completedRows (bytes.take n) <+: rows bytes := by
  have hcut (rest : List UInt8) (k skipped : Nat) :
      ((rest.take k).foldl Reader.step (.initial skipped)).done.reverse <+:
        (rest.foldl Reader.step (.initial skipped)).finish := by
    have hdone := Reader.done_suffix_foldl (rest.drop k)
      ((rest.take k).foldl Reader.step (.initial skipped))
    rw [← List.foldl_append, List.take_append_drop] at hdone
    exact (List.reverse_prefix.2 hdone).trans (Reader.done_prefix_finish _)
  unfold completedRows rows scan
  by_cases hmark : byteOrderMark <+: bytes
  · by_cases hn : n < 3
    · obtain ⟨rest, rfl⟩ := hmark
      have htake : (byteOrderMark ++ rest).take n = byteOrderMark.take n :=
        List.take_append_of_le_length (by simp [byteOrderMark]; omega)
      have hnone := completedRows_of_mark n hn
      unfold completedRows scan at hnone
      rw [htake, hnone]
      exact List.nil_prefix
    · have hcutMark : byteOrderMark <+: bytes.take n :=
        List.prefix_take_iff.2 ⟨hmark, by simp [byteOrderMark]; omega⟩
      rw [if_pos (List.isPrefixOf_iff_prefix.2 hmark),
        if_pos (List.isPrefixOf_iff_prefix.2 hcutMark), List.drop_take]
      exact hcut (bytes.drop 3) (n - 3) 3
  · have hcutMark : ¬ byteOrderMark <+: bytes.take n :=
      fun h => hmark (h.trans (List.take_prefix n bytes))
    rw [if_neg (mt List.isPrefixOf_iff_prefix.1 hmark),
      if_neg (mt List.isPrefixOf_iff_prefix.1 hcutMark)]
    exact hcut bytes n 0

end Harvest.Csv
