import Harvest.Proofs.Calendar.Order
import Harvest.Proofs.Text.Words
import Harvest.Proofs.Watermark

/-!
# Reading values that are written with fields of full width

A moment or a date that is written by a pattern is read back as its number, whatever follows it in
the value (`Watermark.readWatermark_moment`, `Watermark.readWatermark_date`), and such values are in
the order of their numbers (`Watermark.write_lt_of_stamp_lt`, `Watermark.lt_of_write_lt`). The same
holds of plain numbers with digits of one width (`Watermark.number_of_readWatermark`).
-/

namespace Harvest

open Text Calendar

namespace Watermark

section Reading

theorem exists_trimEnd_append (l s : List Char) {c : Char} (hc : isBlank c = false) :
    ∃ rest, trimEnd (l ++ c :: s) = l ++ c :: rest := by
  rw [trimEnd, List.reverse_append, List.reverse_cons, List.append_assoc, List.dropWhile_append]
  split
  · refine ⟨[], ?_⟩
    rw [List.singleton_append, List.dropWhile_cons_of_neg (by simp [hc])]
    simp
  · exact ⟨(s.reverse.dropWhile isBlank).reverse, by simp⟩

/-- What begins without a blank keeps all of that when it is trimmed. -/
theorem exists_trim_append {l : List Char} (hne : l ≠ []) (hl : ∀ c ∈ l, isBlank c = false)
    (s : List Char) : ∃ rest, trim (l ++ s) = l ++ rest := by
  have hstart : trimStart (l ++ s) = l ++ s := by
    obtain ⟨c, front, rfl⟩ := List.exists_cons_of_ne_nil hne
    rw [List.cons_append, trimStart_cons, if_neg (by simp [hl c List.mem_cons_self])]
  have hlast := hl _ (List.getLast_mem hne)
  obtain ⟨rest, hend⟩ := exists_trimEnd_append l.dropLast s hlast
  have hsplit (t : List Char) : l.dropLast ++ l.getLast hne :: t = l ++ t := by
    rw [← List.singleton_append, ← List.append_assoc, List.dropLast_append_getLast hne]
  rw [hsplit, hsplit] at hend
  exact ⟨rest, by rw [trim, hstart, hend]⟩

theorem trim_of_not_blank {l : List Char} (hl : ∀ c ∈ l, isBlank c = false) : trim l = l := by
  obtain ⟨before, after, hsplit, hbefore, hafter⟩ := exists_blanks_trim l
  have hnone (part : List Char) (hpart : ∀ c ∈ part, c ∈ l)
      (hblank : ∀ c ∈ part, isBlank c = true) :
      part = [] := by
    refine List.eq_nil_iff_forall_not_mem.2 fun c hc => ?_
    exact absurd (hblank c hc) (by simp [hl c (hpart c hc)])
  rw [hnone before (fun c hc => hsplit ▸ by simp [hc]) hbefore,
    hnone after (fun c hc => hsplit ▸ by simp [hc]) hafter] at hsplit
  simpa using hsplit.symm

theorem cutBytes?_append {l : List Char} (hl : ∀ c ∈ l, c.utf8Size = 1) (s : List Char) :
    cutBytes? l.length (l ++ s) = some l := by
  induction l with
  | nil => cases s <;> rfl
  | cons c l ih =>
    obtain ⟨hc, hrest⟩ := List.forall_mem_cons.1 hl
    rw [List.cons_append, List.length_cons, cutBytes?, hc, if_pos (by omega),
      Nat.add_sub_cancel, ih hrest]
    · rfl
    · exact Nat.succ_ne_zero _

variable {t u : DateTime} {value : String} {s : List Char}

theorem isPlain_momentLiteral : IsPlain momentLiteral := by
  intro c hc
  simp [momentLiteral, dateLiteral] at hc
  rcases hc with rfl | rfl | rfl <;> decide

theorem isPlain_dateLiteral : IsPlain dateLiteral :=
  fun c hc => isPlain_momentLiteral c (List.mem_append_left _ hc)

/-- What is kept of a value that begins with what a pattern writes, trimmed and cut behind it. -/
theorem cutBytes?_trim (ht : HasWidth t) {pattern : Pattern} (hpattern : IsPlain pattern)
    (hne : write pattern t ≠ []) (hvalue : value.toList = write pattern t ++ s) :
    cutBytes? (pattern.map Item.width).sum (trim value.toList) = some (write pattern t) := by
  have hplain := ht.plain_write hpattern
  obtain ⟨rest, htrim⟩ := exists_trim_append hne (fun c hc => (hplain c hc).1) s
  rw [hvalue, htrim, ← ht.length_write]
  exact cutBytes?_append (fun c hc => (hplain c hc).2) rest

theorem write_ne_nil (ht : HasWidth t) {pattern : Pattern}
    (hpattern : (pattern.map Item.width).sum ≠ 0) : write pattern t ≠ [] := by
  intro hnil
  rw [← ht.length_write, hnil] at hpattern
  exact hpattern rfl

theorem readWatermark_moment (ht : HasWidth t) (hvalue : value.toList = write momentLiteral t ++ s)
    {kind : WatermarkKind} (hkind : kind = .timestamp ∨ kind = .hour) :
    readWatermark value kind = .ok (stamp t) := by
  have hcut := cutBytes?_trim ht isPlain_momentLiteral (write_ne_nil ht (by decide)) hvalue
  have hread : read momentLiteral (write momentLiteral t) = .ok t :=
    read_write ht.valid ht.low ht.high momentLiteral ht.valid.1
  have hwidth : (momentLiteral.map Item.width).sum = 19 := rfl
  rw [hwidth] at hcut
  rcases hkind with rfl | rfl <;> simp only [readWatermark, hcut, Option.getD_some, hread]

/-- The first moment of the day. -/
def midnight (t : DateTime) : DateTime := { t with hour := 0, minute := 0, second := 0 }

theorem hasWidth_midnight (ht : HasWidth t) : HasWidth (midnight t) :=
  ⟨⟨ht.valid.1, show IsTime 0 0 0 by decide⟩, ht.low, ht.high⟩

theorem write_midnight (t : DateTime) :
    write momentLiteral (midnight t) = write dateLiteral t ++ "T00:00:00".toList := by
  have hzero : padded 2 0 = ['0', '0'] := by decide
  simp [momentLiteral, dateLiteral, write_cons_field, write_cons_literal, fieldText, midnight,
    hzero]

theorem readWatermark_date (ht : HasWidth t) (hvalue : value.toList = write dateLiteral t ++ s) :
    readWatermark value .date = .ok (stamp (midnight t)) := by
  have hcut := cutBytes?_trim ht isPlain_dateLiteral (write_ne_nil ht (by decide)) hvalue
  have hmidnight := hasWidth_midnight ht
  have hread : read momentLiteral (write momentLiteral (midnight t)) = .ok (midnight t) :=
    read_write hmidnight.valid hmidnight.low hmidnight.high momentLiteral hmidnight.valid.1
  have hwidth : (dateLiteral.map Item.width).sum = 10 := rfl
  rw [hwidth] at hcut
  rw [write_midnight] at hread
  simp only [readWatermark, hcut, Option.getD_some, hread]

end Reading

section Order

variable {t u : DateTime} {value other : String} {s s' : List Char}

theorem write_lt_of_stamp_lt (ht : HasWidth t) (hu : HasWidth u) (h : stamp t < stamp u) :
    write momentLiteral t < write momentLiteral u := by
  have hfields : fieldsOf momentLiteral = stampDigits := rfl
  have hnumber {v : DateTime} (hv : HasWidth v) :
      stamp v = unsignedStamp v ∧ unsignedStamp v < 10 ^ 14 := by
    obtain ⟨-, hwithin⟩ := withinYear_bounds hv.valid
    have hunsigned := unsignedStamp_eq hv.low
    refine ⟨by rw [stamp, if_neg (Int.not_lt.2 hv.low)], ?_⟩
    have hhigh := hv.high
    omega
  obtain ⟨hstamp, hsmall⟩ := hnumber ht
  obtain ⟨hstamp', hsmall'⟩ := hnumber hu
  refine write_lt_write ht hu ?_
  rw [hfields, write_stampDigits ht.valid ht.low ht.high, write_stampDigits hu.valid hu.low hu.high]
  refine fixedDigits_lt ?_
  rw [Nat.mod_eq_of_lt hsmall, Nat.mod_eq_of_lt hsmall']
  omega

theorem write_dateLiteral_lt (ht : HasWidth t) (hu : HasWidth u)
    (h : stamp (midnight t) < stamp (midnight u)) : write dateLiteral t < write dateLiteral u := by
  have hlt := write_lt_of_stamp_lt (hasWidth_midnight ht) (hasWidth_midnight hu) h
  have hlength : (write dateLiteral t).length = (write dateLiteral u).length := by
    rw [ht.length_write, hu.length_write]
  rw [write_midnight, write_midnight, append_lt_append_iff hlength] at hlt
  exact hlt.resolve_right fun h => lt_irrefl _ h.2

/-- What begins with texts of one pattern is in their order. -/
theorem lt_of_write_lt (ht : HasWidth t) (hu : HasWidth u) {pattern : Pattern}
    (hvalue : value.toList = write pattern t ++ s) (hother : other.toList = write pattern u ++ s')
    (h : write pattern t < write pattern u) : value < other := by
  have hlength : (write pattern t).length = (write pattern u).length := by
    rw [ht.length_write, hu.length_write]
  rw [String.lt_iff_toList_lt, hvalue, hother, append_lt_append_iff hlength]
  exact .inl h

theorem eq_of_readDigits {bound : Nat} {fault : IntegerFault} {w acc n k : Nat}
    (h : readDigits bound fault acc (fixedDigits w n) = .ok k) : k = acc * 10 ^ w + n % 10 ^ w := by
  induction w generalizing acc with
  | zero =>
    cases h
    simp [Nat.mod_one]
  | succ w ih =>
    rw [fixedDigits, readDigits, digitValue?_digitChar _ (Nat.mod_lt _ (by decide))] at h
    dsimp only at h
    split at h
    · rw [ih h, Nat.mod_pow_succ]
      ring
    · cases h

theorem number_of_readWatermark {w n : Nat} {v : Int} (hvalue : value.toList = fixedDigits w n)
    (h : readWatermark value .simple = .ok v) : v = (n % 10 ^ w : Nat) := by
  have htrim : trim value.toList = fixedDigits w n := by
    rw [hvalue]
    refine trim_of_not_blank fun c hc => ?_
    obtain ⟨d, hd⟩ := allDigits_fixedDigits w n c hc
    exact (plain_of_digit hd).1
  cases w with
  | zero =>
    rw [readWatermark, htrim] at h
    cases h
  | succ w =>
    have hdigit := digitValue?_digitChar (n / 10 ^ w % 10) (Nat.mod_lt _ (by decide))
    have hread := readInt64_of_readWatermark v value h
    rw [htrim, fixedDigits, readInt64_of_digit hdigit, ← fixedDigits, map_eq_ok_iff] at hread
    obtain ⟨k, hk, rfl⟩ := hread
    rw [eq_of_readDigits hk, Nat.zero_mul, Nat.zero_add]
    rfl

end Order

end Watermark

end Harvest
