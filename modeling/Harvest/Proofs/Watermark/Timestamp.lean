import Harvest.Proofs.Watermark.Reading

/-!
# Timestamps of fourteen digits

A number of fourteen digits has the digits `yyyyMMddHHmmss` of a moment (`momentOf`), which need not
be one of the calendar. Read by fields it is cut at their widths and nowhere else
(`readItems_digitsOf`), so a bound on it is accepted exactly if there is that moment. The literal of
the bound is then the same digits, punctuated, from which the number is read back, and literals are
in the order of their numbers (`timestamp_literal_faithful`).
-/

namespace Harvest.Watermark

open Text Calendar

/-- The moment whose digits `yyyyMMddHHmmss` a number has. -/
def momentOf (v : Int) : DateTime where
  year := (v.toNat / 10 ^ 10 : Nat)
  month := v.toNat / 10 ^ 8 % 100
  day := v.toNat / 10 ^ 6 % 100
  hour := v.toNat / 10 ^ 4 % 100
  minute := v.toNat / 10 ^ 2 % 100
  second := v.toNat % 100

/-- The digits `yyyyMMddHHmmss` as the source writes them: `yyyy-MM-ddTHH:mm:ss`. -/
def punctuated (digits : List Char) : List Char :=
  let part (start width : Nat) := (digits.drop start).take width
  part 0 4 ++ '-' :: part 4 2 ++ '-' :: part 6 2 ++ 'T' :: part 8 2 ++ ':' :: part 10 2 ++
    ':' :: part 12 2

/-- The digits of a number as the source writes a moment. -/
def momentText (v : Int) : String := String.ofList (punctuated (decimal v))

/-- The fields of a moment, from the year to the second. -/
def stampFields : List Field := [.year, .month, .day, .hour, .minute, .second]

/-- The digits of a field by its width. -/
def digitsOf (t : DateTime) (f : Field) : List Char := fixedDigits f.width (f.value t).toNat

section Fields

variable {t : DateTime}

/-- Every field of `t` is a number of at most as many digits as the field is wide. -/
def FitsWidth (t : DateTime) : Prop :=
  ∀ f : Field, 0 ≤ f.value t ∧ (f.value t).toNat < 10 ^ f.width

theorem eq_copy_of_setField {f : Field} {t₀ t₁ : DateTime}
    (h : setField f (f.value t) t₀ = .ok t₁) : t₁ = f.copy t t₀ := by
  cases f <;> simp only [setField] at h <;> split at h <;> cases h <;> rfl

/-- Digits that stand side by side by the widths of fields are read as these fields, if at all. -/
theorem readItems_digitsOf (ht : FitsWidth t) (fs : List Field) {t₀ t₁ : DateTime}
    {s rest : List Char}
    (h : readItems (fs.map Item.field) t₀ (fs.flatMap (digitsOf t) ++ s) = .ok (t₁, rest)) :
    t₁ = copyFields t (fs.map Item.field) t₀ := by
  induction fs generalizing t₀ with
  | nil =>
    cases h
    rfl
  | cons f fs ih =>
    obtain ⟨hnonneg, hsmall⟩ := ht f
    rw [List.map_cons, List.flatMap_cons, List.append_assoc] at h
    obtain ⟨v, behind, t', hread, hset, hrest⟩ := (readItems_field_iff f _ t₀ _ _).1 h
    rw [digitsOf, readField_fixedDigits f _ _ hsmall, Int.toNat_of_nonneg hnonneg] at hread
    cases hread
    rw [eq_copy_of_setField hset] at hrest
    exact ih hrest

end Fields

section Number

variable {n : Nat} (hlow : 10 ^ 13 ≤ n) (hhigh : n < 10 ^ 14)

theorem stamp_momentOf (n : Nat) : stamp (momentOf n) = n := by
  have hnumber : unsignedStamp (momentOf n) = n := by
    simp only [unsignedStamp, momentOf, Int.natAbs_natCast, Int.toNat_natCast]
    omega
  have hyear : ¬ (momentOf n).year < 0 := Int.not_lt.2 (Int.natCast_nonneg _)
  rw [stamp, if_neg hyear, hnumber]

theorem decimal_natCast (n : Nat) : decimal n = digits n := rfl

include hhigh

theorem fitsWidth_momentOf : FitsWidth (momentOf n) := by
  intro f
  cases f <;> simp only [momentOf, Field.value, Field.width, Int.toNat_natCast] <;> omega

/-- The digits of a number are those of the fields, side by side. -/
theorem fixedDigits_eq_flatMap :
    fixedDigits 14 n = stampFields.flatMap (digitsOf (momentOf n)) := by
  have hnumber : n = ((((n / 10 ^ 10 * 10 ^ 2 + n / 10 ^ 8 % 100) * 10 ^ 2 + n / 10 ^ 6 % 100) *
      10 ^ 2 + n / 10 ^ 4 % 100) * 10 ^ 2 + n / 10 ^ 2 % 100) * 10 ^ 2 + n % 100 := by
    omega
  have hpair (k : Nat) : k % 100 < 10 ^ 2 := Nat.mod_lt k (by decide)
  conv_lhs => rw [hnumber]
  rw [fixedDigits_add 12 2 _ _ (hpair _), fixedDigits_add 10 2 _ _ (hpair _),
    fixedDigits_add 8 2 _ _ (hpair _), fixedDigits_add 6 2 _ _ (hpair _),
    fixedDigits_add 4 2 _ _ (hpair _)]
  simp only [stampFields, List.flatMap_cons, List.flatMap_nil, List.append_nil, List.append_assoc]
  rfl

theorem hasWidth_momentOf (hvalid : (momentOf n).Valid) : HasWidth (momentOf n) where
  valid := hvalid
  low := Int.natCast_nonneg _
  high := by
    simp only [momentOf, Int.toNat_natCast]
    omega

include hlow

/-- A number of fourteen digits is read as the moment of its digits, exactly if there is one. -/
theorem read_decimal_eq_ok_iff (t : DateTime) :
    read stampDigits (decimal n) = .ok t ↔ t = momentOf n ∧ (momentOf n).Valid := by
  constructor
  · intro h
    have hsame : t = momentOf n := by
      obtain ⟨hitems, -⟩ := (read_eq_ok_iff _ _ t).1 h
      rw [decimal_natCast, digits_eq_fixedDigits 13 n hlow hhigh, fixedDigits_eq_flatMap hhigh,
        ← List.append_nil (stampFields.flatMap _)] at hitems
      exact readItems_digitsOf (fitsWidth_momentOf hhigh) stampFields hitems
    exact ⟨hsame, hsame ▸ valid_of_read _ _ t h⟩
  · rintro ⟨rfl, hvalid⟩
    have hread := read_stampDigits hvalid (by simp only [momentOf, Int.toNat_natCast]; omega)
      (hasWidth_momentOf hhigh hvalid).high
    rwa [stamp_momentOf] at hread

/-- A moment is written as its digits are punctuated. -/
theorem write_momentLiteral (hvalid : (momentOf n).Valid) :
    write momentLiteral (momentOf n) = punctuated (decimal n) := by
  have hwidth := hasWidth_momentOf hhigh hvalid
  have htext (f : Field) : fieldText (momentOf n) f = digitsOf (momentOf n) f := by
    obtain ⟨k, hvalue, -, htext⟩ := exists_value hvalid hwidth.low hwidth.high f
    rw [htext, digitsOf, hvalue, Int.toNat_natCast]
  rw [decimal_natCast, digits_eq_fixedDigits 13 n hlow hhigh, fixedDigits_eq_flatMap hhigh]
  simp [momentLiteral, dateLiteral, write_cons_field, write_cons_literal, htext, punctuated,
    stampFields, digitsOf, fixedDigits, Field.width]

theorem condition_eq_ok_iff_valid (column operator text : String) :
    (Bound.mk column n operator .timestamp).condition = .ok text ↔ (momentOf n).Valid ∧
      text = column ++ " " ++ operator ++ " " ++ (momentText n ++ ".000Z") := by
  have hzone : write (".000Z".toList.map Item.literal) (momentOf n) = ".000Z".toList := rfl
  have hwrite (hvalid : (momentOf n).Valid) : String.ofList (write stampLiteral (momentOf n)) =
      momentText n ++ ".000Z" := by
    have hsplit : write stampLiteral (momentOf n) =
        write momentLiteral (momentOf n) ++ write (".000Z".toList.map Item.literal) (momentOf n) :=
      List.flatMap_append
    rw [hsplit, hzone, write_momentLiteral hlow hhigh hvalid, String.ofList_append, momentText,
      String.ofList_toList]
  rw [Bound.condition, map_eq_ok_iff]
  constructor
  · rintro ⟨literal, hliteral, rfl⟩
    obtain ⟨t, hread, rfl⟩ := (recast_eq_ok_iff _ _ _ _ _).1 hliteral
    obtain ⟨rfl, hvalid⟩ := (read_decimal_eq_ok_iff hlow hhigh t).1 hread
    exact ⟨hvalid, by rw [hwrite hvalid]⟩
  · rintro ⟨hvalid, rfl⟩
    have hread := (read_decimal_eq_ok_iff hlow hhigh _).2 ⟨rfl, hvalid⟩
    exact ⟨_, (recast_eq_ok_iff _ _ _ _ _).2 ⟨_, hread, rfl⟩, by rw [hwrite hvalid]⟩

theorem toList_momentText (hvalid : (momentOf n).Valid) (suffix : String) :
    (momentText n ++ suffix).toList = write momentLiteral (momentOf n) ++ suffix.toList := by
  rw [String.toList_append, momentText, String.toList_ofList,
    write_momentLiteral hlow hhigh hvalid]

end Number

/-- Texts of moments are in the order of their numbers, whatever follows. -/
theorem momentText_lt {m n : Nat} (hm : 10 ^ 13 ≤ m) (hm' : m < 10 ^ 14) (hn : 10 ^ 13 ≤ n)
    (hn' : n < 10 ^ 14) (hvalid : (momentOf m).Valid) (hvalid' : (momentOf n).Valid) (h : m < n)
    (suffix : String) : momentText m ++ suffix < momentText n ++ suffix := by
  have hwidth := hasWidth_momentOf hm' hvalid
  have hwidth' := hasWidth_momentOf hn' hvalid'
  refine lt_of_write_lt hwidth hwidth' (toList_momentText hm hm' hvalid suffix)
    (toList_momentText hn hn' hvalid' suffix) (write_lt_of_stamp_lt hwidth hwidth' ?_)
  rw [stamp_momentOf, stamp_momentOf]
  exact Int.ofNat_lt.2 h

/-- A bound on a number of fourteen digits is accepted exactly if these are the digits of a moment.
Its literal has the same digits, the number is read back from it, whatever comes behind the second,
and of two such literals the smaller text is that of the smaller number. -/
theorem timestamp_literal_faithful (column operator : String) (v : Int) (hlow : 10 ^ 13 ≤ v)
    (hhigh : v < 10 ^ 14) :
    ((∃ text, (Bound.mk column v operator .timestamp).condition = .ok text) ↔
      (momentOf v).Valid) ∧
    ((momentOf v).Valid →
      (Bound.mk column v operator .timestamp).condition =
        .ok (column ++ " " ++ operator ++ " " ++ (momentText v ++ ".000Z")) ∧
      (∀ suffix, readWatermark (momentText v ++ suffix) .timestamp = .ok v) ∧
      ∀ w, 10 ^ 13 ≤ w → w < 10 ^ 14 → (momentOf w).Valid →
        (v < w ↔ momentText v ++ ".000Z" < momentText w ++ ".000Z")) := by
  obtain ⟨n, rfl⟩ := Int.eq_ofNat_of_zero_le (show 0 ≤ v by omega)
  have hn : 10 ^ 13 ≤ n := by omega
  have hn' : n < 10 ^ 14 := by omega
  have hcondition := condition_eq_ok_iff_valid hn hn' column operator
  refine ⟨⟨fun ⟨text, h⟩ => ((hcondition text).1 h).1, fun h => ⟨_, (hcondition _).2 ⟨h, rfl⟩⟩⟩,
    fun hvalid => ⟨(hcondition _).2 ⟨hvalid, rfl⟩, fun suffix => ?_, fun w hw hw' hvalid' => ?_⟩⟩
  · have hread := readWatermark_moment (hasWidth_momentOf hn' hvalid)
      (toList_momentText hn hn' hvalid suffix) (.inl rfl)
    rwa [stamp_momentOf] at hread
  · obtain ⟨k, rfl⟩ := Int.eq_ofNat_of_zero_le (show 0 ≤ w by omega)
    have hk : 10 ^ 13 ≤ k := by omega
    have hk' : k < 10 ^ 14 := by omega
    rcases Nat.lt_trichotomy n k with hlt | rfl | hgt
    · exact iff_of_true (Int.ofNat_lt.2 hlt)
        (momentText_lt hn hn' hk hk' hvalid hvalid' hlt ".000Z")
    · exact iff_of_false (lt_irrefl _) (lt_irrefl _)
    · exact iff_of_false (Int.not_lt.2 (Int.ofNat_le.2 hgt.le))
        (momentText_lt hk hk' hn hn' hvalid' hvalid hgt ".000Z").asymm

/-- A leap second on a leap day, and the first moment behind it. -/
theorem timestamp_literal_faithful_leap :
    (momentOf 20240229235960).Valid ∧ ¬ (momentOf 20230229235960).Valid ∧
      (Bound.mk "Modified" 20240229235960 ">=" .timestamp).condition =
        .ok "Modified >= 2024-02-29T23:59:60.000Z" ∧
      readWatermark "2024-02-29T23:59:60+0100" .timestamp = .ok 20240229235960 ∧
      "2024-02-29T23:59:60.000Z" < "2024-03-01T00:00:00.000Z" := by
  have hvalid : (momentOf 20240229235960).Valid := by decide +kernel
  have htext : momentText 20240229235960 = "2024-02-29T23:59:60" := by decide +kernel
  have htext' : momentText 20240301000000 = "2024-03-01T00:00:00" := by decide +kernel
  obtain ⟨-, h⟩ :=
    timestamp_literal_faithful "Modified" ">=" 20240229235960 (by decide) (by decide)
  obtain ⟨hcondition, hread, horder⟩ := h hvalid
  have hlt := (horder 20240301000000 (by decide) (by decide) (by decide +kernel)).1 (by decide)
  rw [htext] at hcondition hread hlt
  rw [htext'] at hlt
  exact ⟨hvalid, by decide +kernel, hcondition, hread "+0100", hlt⟩

end Harvest.Watermark
