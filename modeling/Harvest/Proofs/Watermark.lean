import Harvest.Watermark
import Harvest.Proofs.Calendar.RoundTrip

/-!
# The watermark of one run as the bound of the next

A run reports the largest value of its watermark column as a number, and the next run takes that
number for its lower bound. The number of a moment always has the digits `yyyyMMddHHmmss`, without
the zeros in front. A bound reads a timestamp from these digits, and gets the moment back exactly
if its year has four digits of its own. Of a date it expects `yyyyMMdd` and of an hour
`yyyyMMddHH`, so that the number is refused there.
-/

namespace Harvest.Watermark

open Harvest.Text Harvest.Calendar

/-- What a watermark value stands for. -/
inductive Meaning
  | moment (t : DateTime)
  | date (year : Int) (month day : Nat)
  | hour (hour : Nat)
  | number (n : Int)
  deriving DecidableEq, Repr

/-- The moment that the source answered with, up to its second or its day. -/
def moment (value : String) (kind : WatermarkKind) : Except Fault DateTime :=
  let text := trim value.toList
  match kind with
  | .date => read momentLiteral ((cutBytes? 10 text).getD text ++ "T00:00:00".toList)
  | _ => read momentLiteral ((cutBytes? 19 text).getD text)

/-- What a value of the source stands for. -/
def answerMeaning? (value : String) (kind : WatermarkKind) : Option Meaning :=
  match kind with
  | .timestamp => (moment value kind).toOption.map .moment
  | .date => (moment value kind).toOption.map fun t => .date t.year t.month t.day
  | .hour => (moment value kind).toOption.map fun t => .hour t.hour
  | .simple => (readInt64 (trim value.toList)).toOption.map .number

/-- What a literal of a condition stands for. -/
def literalMeaning? (text : List Char) (kind : WatermarkKind) : Option Meaning :=
  match kind with
  | .timestamp => (read stampLiteral text).toOption.map .moment
  | .date => (read dateLiteral text).toOption.map fun t => .date t.year t.month t.day
  | .hour => (read [.field .hour] text).toOption.map fun t => .hour t.hour
  | .simple => (readInt64 text).toOption.map .number

/-- The number `v` is accepted as a lower bound, and the literal of the condition means what the
value of the source does. -/
def Closes (column value : String) (kind : WatermarkKind) (v : Int) : Prop :=
  ∃ text meaning,
    (Bound.mk column v ">=" kind).condition =
      .ok (column ++ " " ++ ">=" ++ " " ++ String.ofList text) ∧
    literalMeaning? text kind = some meaning ∧ answerMeaning? value kind = some meaning

section Stamp

variable {t : DateTime} (ht : t.Valid)

/-- The number of what follows the year. -/
def withinYear (t : DateTime) : Nat :=
  t.month * 100000000 + t.day * 1000000 + t.hour * 10000 + t.minute * 100 + t.second

include ht

theorem withinYear_bounds : 10 ^ 8 ≤ withinYear t ∧ withinYear t < 10 ^ 10 := by
  obtain ⟨⟨-, hday₁, hday₂⟩, hhour, hminute, hsecond⟩ := ht
  have hmonth := month_le_of_le_daysInMonth t.year t.month t.day hday₁ hday₂
  have hday := hday₂.trans (daysInMonth_le t.year t.month)
  simp only [withinYear]
  omega

theorem decimal_stamp_of_neg (hyear : t.year < 0) :
    decimal (stamp t) = '-' :: digits (unsignedStamp t) := by
  obtain ⟨k, hk⟩ : ∃ k, unsignedStamp t = k + 1 := by
    have hlow := (withinYear_bounds ht).1
    refine Nat.exists_eq_add_one.2 ?_
    simp only [withinYear, unsignedStamp] at hlow ⊢
    omega
  rw [stamp, if_pos hyear, hk]
  rfl

omit ht in
theorem decimal_stamp_of_nonneg (hyear : 0 ≤ t.year) :
    decimal (stamp t) = digits (unsignedStamp t) := by
  rw [stamp, if_neg (by omega)]
  rfl

omit ht in
theorem unsignedStamp_eq (hyear : 0 ≤ t.year) :
    (unsignedStamp t : Int) = t.year * 10 ^ 10 + withinYear t := by
  simp only [unsignedStamp, withinYear]
  omega

/-- The digits of a moment whose year has four digits stand at their places. -/
theorem write_stampDigits (hlow : 0 ≤ t.year) (hhigh : t.year ≤ 9999) :
    write stampDigits t = fixedDigits 14 (unsignedStamp t) := by
  obtain ⟨y, hy, hyear, htext⟩ := exists_value ht hlow hhigh .year
  obtain ⟨m, hm, hmonth, hmonthText⟩ := exists_value ht hlow hhigh .month
  obtain ⟨d, hd, hday, hdayText⟩ := exists_value ht hlow hhigh .day
  obtain ⟨h, hh, hhour, hhourText⟩ := exists_value ht hlow hhigh .hour
  obtain ⟨i, hi, hminute, hminuteText⟩ := exists_value ht hlow hhigh .minute
  obtain ⟨s, hs, hsecond, hsecondText⟩ := exists_value ht hlow hhigh .second
  simp only [Field.value, Field.width] at *
  have hnumber : unsignedStamp t =
      ((((y * 10 ^ 2 + m) * 10 ^ 2 + d) * 10 ^ 2 + h) * 10 ^ 2 + i) * 10 ^ 2 + s := by
    simp only [unsignedStamp]
    omega
  rw [hnumber, fixedDigits_add 12 2 _ _ hsecond, fixedDigits_add 10 2 _ _ hminute,
    fixedDigits_add 8 2 _ _ hhour, fixedDigits_add 6 2 _ _ hday, fixedDigits_add 4 2 _ _ hmonth]
  simp only [stampDigits, dateDigits, List.cons_append, List.nil_append, write_cons_field,
    write_nil, List.append_nil, List.append_assoc, htext, hmonthText, hdayText, hhourText,
    hminuteText, hsecondText]

/-- A moment with a year of four digits is read back from its number. -/
theorem read_stampDigits (hlow : 1000 ≤ t.year) (hhigh : t.year ≤ 9999) :
    read stampDigits (decimal (stamp t)) = .ok t := by
  have hnumber := unsignedStamp_eq (t := t) (by omega)
  have hwithin := withinYear_bounds ht
  rw [decimal_stamp_of_nonneg (by omega),
    digits_eq_fixedDigits 13 _ (by omega) (by omega), ← write_stampDigits ht (by omega) hhigh]
  exact read_write ht (by omega) hhigh stampDigits ht.1

end Stamp

/-- A text of more digits than a number of the width has is none of its numbers. -/
theorem lt_of_length_digits_le (w n : Nat) (h : (digits n).length ≤ w) : n < 10 ^ w := by
  by_cases hn : n = 0
  · subst hn
    positivity
  · obtain ⟨v, -, hhigh, hdigits⟩ := exists_digits_eq_fixedDigits n hn
    rw [hdigits, length_fixedDigits] at h
    exact lt_of_lt_of_le hhigh (Nat.pow_le_pow_right (by decide) h)

theorem le_of_lt_length_digits (w n : Nat) (hw : w ≠ 0) (h : w < (digits n).length) :
    10 ^ w ≤ n := by
  by_contra hlt
  have hle : (digits n).length ≤ w :=
    (Nat.length_toDigits_le_iff (by decide) (Nat.pos_of_ne_zero hw)).2 (not_le.1 hlt)
  exact absurd h (not_lt.2 hle)

/-- A pattern without the year leaves it as it was. -/
theorem year_of_readItems (pattern : Pattern) (hpattern : .field .year ∉ pattern)
    (t₀ t : DateTime) (s rest : List Char) (h : readItems pattern t₀ s = .ok (t, rest)) :
    t.year = t₀.year := by
  have hset (f : Field) (hf : f ≠ .year) (v : Int) (t₀ t₁ : DateTime)
      (h : setField f v t₀ = .ok t₁) : t₁.year = t₀.year := by
    cases f <;> simp only [setField] at h <;> split at h <;> cases h <;> first | rfl | contradiction
  induction pattern generalizing t₀ s with
  | nil =>
    cases h
    rfl
  | cons item pattern ih =>
    rw [List.mem_cons, not_or] at hpattern
    cases item with
    | literal c =>
      cases s with
      | nil => cases h
      | cons d s =>
        rw [readItems] at h
        split at h
        · exact ih hpattern.2 t₀ s h
        · cases h
    | field f =>
      obtain ⟨v, rest', t₁, -, hfield, hrest⟩ := (readItems_field_iff f pattern t₀ s _).1 h
      have hf : f ≠ .year := fun hf => hpattern.1 (hf ▸ rfl)
      exact (ih hpattern.2 t₁ rest' hrest).trans (hset f hf v t₀ t₁ hfield)

/-- The first four digits are the year. -/
theorem year_of_read_fixedDigits (w n : Nat) (hn : n < 10 ^ (w + 4)) (pattern : Pattern)
    (hpattern : .field .year ∉ pattern) (t : DateTime)
    (h : read (.field .year :: pattern) (fixedDigits (4 + w) n) = .ok t) :
    t.year = (n / 10 ^ w : Nat) := by
  obtain ⟨hitems, -⟩ := (read_eq_ok_iff _ _ t).1 h
  obtain ⟨v, rest, t₁, hread, hset, hrest⟩ :=
    (readItems_field_iff .year pattern origin _ _).1 hitems
  have hyear : n / 10 ^ w < 10 ^ Field.year.width := by
    rw [Nat.div_lt_iff_lt_mul (by positivity), Field.width, ← pow_add, Nat.add_comm]
    exact hn
  have hfirst : fixedDigits (4 + w) n =
      fixedDigits Field.year.width (n / 10 ^ w) ++ fixedDigits w n := fixedDigits_append 4 w n
  rw [hfirst, readField_fixedDigits .year _ _ hyear] at hread
  cases hread
  simp only [setField] at hset
  split at hset
  · cases hset
    exact year_of_readItems pattern hpattern _ t _ [] hrest
  · cases hset

section Stamp

variable {t : DateTime} (ht : t.Valid)

include ht

/-- From the number of a moment with another year, another moment is read if any. -/
theorem year_of_read_stampDigits (hyear : ¬(1000 ≤ t.year ∧ t.year ≤ 9999)) (t' : DateTime)
    (h : read stampDigits (decimal (stamp t)) = .ok t') :
    0 ≤ t'.year ∧ t'.year ≤ 9999 ∧ t'.year ≠ t.year := by
  have hwithin := withinYear_bounds ht
  have hnonneg : 0 ≤ t.year := by
    by_contra hneg
    rw [decimal_stamp_of_neg ht (by omega)] at h
    obtain ⟨fault, hfault⟩ :=
      read_minus .month (stampDigits.drop 2) _ (allDigits_digits (unsignedStamp t))
    cases hfault.symm.trans h
  have hnumber := unsignedStamp_eq hnonneg
  rw [decimal_stamp_of_nonneg hnonneg] at h
  have hlength := length_of_read_fields [.year, .month, .day, .hour, .minute, .second]
    (List.cons_ne_nil _ _) _ t' (allDigits_digits _) h
  have hlow := le_of_lt_length_digits 12 _ (by decide) hlength.1
  have hhigh := lt_of_length_digits_le 14 _ hlength.2
  -- thirteen digits are left, and the year takes four of them
  have hshort : unsignedStamp t < 10 ^ 13 := by omega
  rw [digits_eq_fixedDigits 12 _ hlow hshort] at h
  have hfirst := year_of_read_fixedDigits 9 _ hshort (stampDigits.drop 1) (by decide) t' h
  omega

theorem read_dateDigits_stamp :
    ∃ fault, read dateDigits (decimal (stamp t)) = .error fault := by
  have hwithin := withinYear_bounds ht
  rcases lt_or_ge t.year 0 with hneg | hnonneg
  · rw [decimal_stamp_of_neg ht hneg]
    exact read_minus .month [.field .day] _ (allDigits_digits _)
  · have hnumber := unsignedStamp_eq hnonneg
    rw [decimal_stamp_of_nonneg hnonneg]
    cases hread : read dateDigits (digits (unsignedStamp t)) with
    | error fault => exact ⟨fault, rfl⟩
    | ok t' =>
      have hlength := length_of_read_fields [.year, .month, .day] (List.cons_ne_nil _ _) _ t'
        (allDigits_digits _) hread
      have hhigh := lt_of_length_digits_le 8 _ hlength.2
      omega

theorem read_stampDigits_hour (hyear : t.year ≠ 0) :
    ∃ fault, read stampDigits (decimal (stamp t) ++ "0000".toList) = .error fault := by
  have hzeros : AllDigits "0000".toList := allDigits_fixedDigits 4 0
  have hall := (allDigits_digits (unsignedStamp t)).append hzeros
  rcases lt_or_ge t.year 0 with hneg | hnonneg
  · rw [decimal_stamp_of_neg ht hneg, List.cons_append]
    exact read_minus .month (stampDigits.drop 2) _ hall
  · have hnumber := unsignedStamp_eq hnonneg
    rw [decimal_stamp_of_nonneg hnonneg]
    generalize unsignedStamp t = n at hall hnumber ⊢
    cases hread : read stampDigits (digits n ++ "0000".toList) with
    | error fault => exact ⟨fault, rfl⟩
    | ok t' =>
      have hlength := (length_of_read_fields [.year, .month, .day, .hour, .minute, .second]
        (List.cons_ne_nil _ _) _ t' hall hread).2
      have hzeros : "0000".toList.length = 4 := rfl
      have hten : (digits n).length ≤ 10 := by
        rw [List.length_append, hzeros] at hlength
        exact Nat.le_of_add_le_add_right hlength
      have hhigh := lt_of_length_digits_le 10 n hten
      omega

end Stamp

section Closing

variable (column : String) (v : Int) (kind : WatermarkKind)

theorem condition_eq_ok_iff (text : List Char) :
    (Bound.mk column v ">=" kind).condition =
        .ok (column ++ " " ++ ">=" ++ " " ++ String.ofList text) ↔
      (Bound.mk column v ">=" kind).literal = .ok text := by
  rw [Bound.condition, map_eq_ok_iff]
  constructor
  · rintro ⟨text', hliteral, htext⟩
    have hsame := String.ofList_injective ((String.append_right_inj _).1 htext)
    rw [hliteral, hsame]
  · intro hliteral
    exact ⟨text, hliteral, rfl⟩

theorem condition_eq_error (fault : QueryFault)
    (h : (Bound.mk column v ">=" kind).literal = .error fault) :
    (Bound.mk column v ">=" kind).condition = .error fault := by
  rw [Bound.condition, h]
  rfl

theorem recast_eq_ok_iff (label : String) (raw text : List Char) (source target : Pattern) :
    Bound.recast label raw source target = .ok text ↔
      ∃ t, read source raw = .ok t ∧ write target t = text := by
  rw [Bound.recast]
  cases read source raw with
  | error fault => simp
  | ok t => simp

theorem recast_eq_error (label : String) (raw : List Char) (source target : Pattern) (fault : Fault)
    (h : read source raw = .error fault) :
    ∃ fault, Bound.recast label raw source target = .error fault := by
  rw [Bound.recast, h]
  exact ⟨_, rfl⟩

theorem exists_moment_of_read (s text : List Char)
    (h : (match read momentLiteral s with
      | .ok t => .ok (stamp t)
      | .error fault => .error (.moment (String.ofList text) fault) :
        Except WatermarkFault Int) = .ok v) :
    ∃ t, read momentLiteral s = .ok t ∧ t.Valid ∧ v = stamp t := by
  cases hmoment : read momentLiteral s with
  | error fault =>
    rw [hmoment] at h
    cases h
  | ok t =>
    rw [hmoment] at h
    cases h
    exact ⟨t, rfl, valid_of_read _ _ _ hmoment, rfl⟩

/-- A number of a moment was read from it. -/
theorem exists_moment (value : String) (hkind : kind ≠ .simple)
    (h : readWatermark value kind = .ok v) :
    ∃ t, moment value kind = .ok t ∧ t.Valid ∧ v = stamp t := by
  cases kind with
  | timestamp => exact exists_moment_of_read _ _ _ h
  | date => exact exists_moment_of_read _ _ _ h
  | hour => exact exists_moment_of_read _ _ _ h
  | simple => exact absurd rfl hkind

omit column in
theorem readInt64_of_readWatermark (value : String) (h : readWatermark value .simple = .ok v) :
    readInt64 (trim value.toList) = .ok v := by
  cases hread : readInt64 (trim value.toList) with
  | error fault =>
    simp only [readWatermark, hread] at h
    cases h
  | ok n =>
    simp only [readWatermark, hread] at h
    cases h
    rfl

theorem closes_simple (value : String) (h : readWatermark value .simple = .ok v) :
    Closes column value .simple v := by
  have hread := readInt64_of_readWatermark v value h
  obtain ⟨hlow, hhigh⟩ := bounds_of_readInt64 _ v hread
  refine ⟨decimal v, .number v, (condition_eq_ok_iff column v .simple _).2 rfl, ?_, ?_⟩
  · rw [literalMeaning?, readInt64_decimal v hlow hhigh]
    rfl
  · rw [answerMeaning?, hread]
    rfl

/-- A bound on a timestamp means the moment that its number is read as. -/
theorem closes_timestamp_iff (value : String) (t : DateTime)
    (hmoment : moment value .timestamp = .ok t) (ht : t.Valid) :
    Closes column value .timestamp (stamp t) ↔ 1000 ≤ t.year ∧ t.year ≤ 9999 := by
  have hmeaning (t' : DateTime) (ht' : t'.Valid) (hlow : 0 ≤ t'.year) (hhigh : t'.year ≤ 9999) :
      literalMeaning? (write stampLiteral t') .timestamp = some (.moment t') := by
    rw [literalMeaning?, read_write ht' hlow hhigh stampLiteral ht'.1]
    rfl
  have hanswer : answerMeaning? value .timestamp = some (.moment t) := by
    rw [answerMeaning?, hmoment]
    rfl
  constructor
  · rintro ⟨text, meaning, hcondition, hliteral, hsame⟩
    by_contra hyear
    obtain ⟨t', hread, rfl⟩ := (recast_eq_ok_iff _ _ _ _ _).1
      ((condition_eq_ok_iff column _ .timestamp _).1 hcondition)
    obtain ⟨hlow, hhigh, hne⟩ := year_of_read_stampDigits ht hyear t' hread
    rw [hmeaning t' (valid_of_read _ _ _ hread) hlow hhigh, ← hsame, hanswer] at hliteral
    cases hliteral
    exact hne rfl
  · rintro ⟨hlow, hhigh⟩
    refine ⟨write stampLiteral t, .moment t, (condition_eq_ok_iff column _ .timestamp _).2 ?_,
      hmeaning t ht (by omega) hhigh, hanswer⟩
    exact (recast_eq_ok_iff _ _ _ _ _).2 ⟨t, read_stampDigits ht hlow hhigh, rfl⟩

/-- The number of a watermark as the bound of the next run: a plain number closes the loop, a
timestamp exactly with a year of four digits of its own, and the numbers of a date or an hour are
refused. In the year zero alone an hour may find digits that can be read. -/
theorem bound_of_readWatermark (value : String) (h : readWatermark value kind = .ok v) :
    match kind with
    | .simple => Closes column value kind v
    | .timestamp => ∃ t, moment value kind = .ok t ∧
        (Closes column value kind v ↔ 1000 ≤ t.year ∧ t.year ≤ 9999)
    | .date => ∃ fault, (Bound.mk column v ">=" kind).condition = .error fault
    | .hour => ∃ t, moment value kind = .ok t ∧
        (t.year ≠ 0 → ∃ fault, (Bound.mk column v ">=" kind).condition = .error fault) := by
  cases kind with
  | simple => exact closes_simple column v value h
  | timestamp =>
    obtain ⟨t, hmoment, ht, rfl⟩ := exists_moment v .timestamp value (by decide) h
    exact ⟨t, hmoment, closes_timestamp_iff column value t hmoment ht⟩
  | date =>
    obtain ⟨t, -, ht, rfl⟩ := exists_moment v .date value (by decide) h
    obtain ⟨fault, hread⟩ := read_dateDigits_stamp ht
    obtain ⟨fault, hliteral⟩ := recast_eq_error "date watermark" _ _ dateLiteral fault hread
    exact ⟨fault, condition_eq_error column _ .date fault hliteral⟩
  | hour =>
    obtain ⟨t, hmoment, ht, rfl⟩ := exists_moment v .hour value (by decide) h
    refine ⟨t, hmoment, fun hyear => ?_⟩
    obtain ⟨fault, hread⟩ := read_stampDigits_hour ht hyear
    obtain ⟨fault, hliteral⟩ := recast_eq_error "watermark" _ _ [.field .hour] fault hread
    exact ⟨fault, condition_eq_error column _ .hour fault hliteral⟩

end Closing

/-- A date that was answered, read and used as the next bound: the number is refused. -/
theorem date_bound_refused :
    readWatermark "2024-01-15" .date = .ok 20240115000000 ∧
      (Bound.mk "CloseDate" 20240115000000 ">=" .date).condition =
        .error (.watermark "invalid date watermark 20240115000000: trailing input") ∧
      ¬Closes "CloseDate" "2024-01-15" .date 20240115000000 := by
  have hcondition : (Bound.mk "CloseDate" 20240115000000 ">=" .date).condition =
      .error (.watermark "invalid date watermark 20240115000000: trailing input") := by
    decide +kernel
  refine ⟨by decide +kernel, hcondition, ?_⟩
  rintro ⟨text, meaning, haccepted, -⟩
  cases hcondition.symm.trans haccepted

theorem timestamp_bound_accepted :
    readWatermark "2024-01-15T10:30:00.000+0000" .timestamp = .ok 20240115103000 ∧
      Closes "SystemModstamp" "2024-01-15T10:30:00.000+0000" .timestamp 20240115103000 := by
  have hread : readWatermark "2024-01-15T10:30:00.000+0000" .timestamp = .ok 20240115103000 := by
    decide +kernel
  obtain ⟨t, hmoment, hcloses⟩ :=
    bound_of_readWatermark "SystemModstamp" 20240115103000 .timestamp _ hread
  have hvalue : moment "2024-01-15T10:30:00.000+0000" .timestamp =
      .ok ⟨2024, 1, 15, 10, 30, 0⟩ := by
    decide +kernel
  cases hvalue.symm.trans hmoment
  exact ⟨hread, hcloses.2 (by decide)⟩

end Harvest.Watermark
