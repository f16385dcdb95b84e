import Harvest.Calendar.Pattern
import Harvest.Proofs.Text.Digits

/-!
# Reading back what a pattern writes

A moment whose year has at most four digits is written by fields of fixed width, so what is
written by a pattern is read back by it: the fields of the pattern are those of the moment
(`read_write`). A text of digits alone has no other way to be cut into fields: each field takes
its full width, up to the last one (`readItems_fields`).
-/

namespace Harvest.Calendar

open Harvest.Text

/-- The value of a field. -/
def Field.value (t : DateTime) : Field → Int
  | .year => t.year
  | .month => t.month
  | .day => t.day
  | .hour => t.hour
  | .minute => t.minute
  | .second => t.second

/-- `t` with one field of `source`. -/
def Field.copy (source t : DateTime) : Field → DateTime
  | .year => { t with year := source.year }
  | .month => { t with month := source.month }
  | .day => { t with day := source.day }
  | .hour => { t with hour := source.hour }
  | .minute => { t with minute := source.minute }
  | .second => { t with second := source.second }

/-- `t` with the fields of a pattern taken from `source`. -/
def copyFields (source : DateTime) : Pattern → DateTime → DateTime
  | [], t => t
  | .literal _ :: pattern, t => copyFields source pattern t
  | .field f :: pattern, t => copyFields source pattern (f.copy source t)

/-- What it takes to read a field and then the rest of a pattern. -/
theorem readItems_field_iff (f : Field) (pattern : Pattern) (t₀ : DateTime) (s : List Char)
    (r : DateTime × List Char) :
    readItems (.field f :: pattern) t₀ s = .ok r ↔
      ∃ v rest t₁, readField f s = .ok (v, rest) ∧ setField f v t₀ = .ok t₁ ∧
        readItems pattern t₁ rest = .ok r := by
  rw [readItems, bind_eq_ok_iff]
  simp only [bind_eq_ok_iff, Prod.exists, exists_and_left]

theorem read_eq_ok_iff (pattern : Pattern) (s : List Char) (t : DateTime) :
    read pattern s = .ok t ↔
      readItems pattern origin s = .ok (t, []) ∧ IsDate t.year t.month t.day := by
  constructor
  · intro h
    obtain ⟨⟨t', rest⟩, hitems, hrest⟩ := (bind_eq_ok_iff _ _ t).1 h
    simp only at hrest
    split at hrest
    · cases hrest
    · rename_i hnone
      split at hrest
      · rename_i hdate
        cases hrest
        exact ⟨by rw [hitems, not_not.1 hnone], hdate⟩
      · cases hrest
  · rintro ⟨hitems, hdate⟩
    exact read_eq_ok pattern s t hitems hdate

theorem takeDigits_fixedDigits (w acc n : Nat) (s : List Char) :
    takeDigits w acc (fixedDigits w n ++ s) = (acc * 10 ^ w + n % 10 ^ w, s) := by
  induction w generalizing acc with
  | zero => simp [fixedDigits, takeDigits, Nat.mod_one]
  | succ w ih =>
    have hdigit := digitValue?_digitChar (n / 10 ^ w % 10) (Nat.mod_lt _ (by decide))
    have hsum : (acc * 10 + n / 10 ^ w % 10) * 10 ^ w + n % 10 ^ w =
        acc * 10 ^ (w + 1) + n % 10 ^ (w + 1) := by
      rw [Nat.mod_pow_succ]
      ring
    rw [fixedDigits, List.cons_append, takeDigits, hdigit]
    simp only [ih, hsum]

theorem readNumber_fixedDigits (w n : Nat) (s : List Char) (h : n < 10 ^ (w + 1)) :
    readNumber (w + 1) (fixedDigits (w + 1) n ++ s) = .ok (n, s) := by
  have htake := takeDigits_fixedDigits (w + 1) 0 n s
  rw [Nat.mod_eq_of_lt h, Nat.zero_mul, Nat.zero_add] at htake
  have hdigit := digitValue?_digitChar (n / 10 ^ w % 10) (Nat.mod_lt _ (by decide))
  rw [← htake, fixedDigits, List.cons_append, readNumber, hdigit]
  rfl

theorem readYear_of_digit (c : Char) (s : List Char) (d : Nat) (h : digitValue? c = some d) :
    readYear (c :: s) = (readNumber 4 (c :: s)).map fun p => ((p.1 : Int), p.2) := by
  have hplus : c ≠ '+' := by
    rintro rfl
    cases h
  have hminus : c ≠ '-' := by
    rintro rfl
    cases h
  unfold readYear
  split
  · rename_i heq
    exact absurd (List.cons.inj heq).1 hminus
  · rename_i heq
    exact absurd (List.cons.inj heq).1 hplus
  · rfl

/-- On a text that starts with a digit every field is read alike. -/
theorem readField_of_digit (f : Field) (c : Char) (s : List Char) (d : Nat)
    (h : digitValue? c = some d) :
    readField f (c :: s) = (readNumber f.width (c :: s)).map fun p => ((p.1 : Int), p.2) := by
  have htrim := trimStart_of_digit c s d h
  cases f with
  | year => rw [readField, htrim, readYear_of_digit c s d h, Field.width]
  | month => simp only [readField, htrim]
  | day => simp only [readField, htrim]
  | hour => simp only [readField, htrim]
  | minute => simp only [readField, htrim]
  | second => simp only [readField, htrim]

theorem readField_fixedDigits (f : Field) (n : Nat) (s : List Char) (h : n < 10 ^ f.width) :
    readField f (fixedDigits f.width n ++ s) = .ok ((n : Int), s) := by
  obtain ⟨w, hw⟩ : ∃ w, f.width = w + 1 := by cases f <;> exact ⟨_, rfl⟩
  have hdigit := digitValue?_digitChar (n / 10 ^ w % 10) (Nat.mod_lt _ (by decide))
  have hread := readNumber_fixedDigits w n s (hw ▸ h)
  rw [hw]
  rw [fixedDigits, List.cons_append] at hread ⊢
  rw [readField_of_digit f _ _ _ hdigit, hw, hread]
  rfl

section Written

variable {t : DateTime} (ht : t.Valid) (hlow : 0 ≤ t.year) (hhigh : t.year ≤ 9999)

include ht hlow hhigh

theorem exists_value (f : Field) :
    ∃ n : Nat, f.value t = n ∧ n < 10 ^ f.width ∧ fieldText t f = fixedDigits f.width n := by
  obtain ⟨⟨-, hday₁, hday₂⟩, hhour, hminute, hsecond⟩ := ht
  have hmonth := (month_le_of_le_daysInMonth t.year t.month t.day hday₁ hday₂).2
  have hday := hday₂.trans (daysInMonth_le t.year t.month)
  have hpair (n : Nat) (hn : n < 100) : n < 10 ^ 2 ∧ padded 2 n = fixedDigits 2 n :=
    ⟨hn, padded_eq_fixedDigits 1 n hn⟩
  cases f with
  | year =>
    have hyear : t.year.toNat < 10 ^ (3 + 1) := by omega
    refine ⟨t.year.toNat, (Int.toNat_of_nonneg hlow).symm, hyear, ?_⟩
    rw [fieldText, yearText, if_pos ⟨hlow, hhigh⟩]
    exact padded_eq_fixedDigits 3 _ hyear
  | month => exact ⟨t.month, rfl, hpair _ (by omega)⟩
  | day => exact ⟨t.day, rfl, hpair _ (by omega)⟩
  | hour => exact ⟨t.hour, rfl, hpair _ (by omega)⟩
  | minute => exact ⟨t.minute, rfl, hpair _ (by omega)⟩
  | second => exact ⟨t.second, rfl, hpair _ (by omega)⟩

theorem setField_value (f : Field) (t₀ : DateTime) :
    setField f (f.value t) t₀ = .ok (f.copy t t₀) := by
  obtain ⟨⟨-, hday₁, hday₂⟩, hhour, hminute, hsecond⟩ := ht
  have hmonth := month_le_of_le_daysInMonth t.year t.month t.day hday₁ hday₂
  have hday := hday₂.trans (daysInMonth_le t.year t.month)
  cases f <;> exact if_pos (by simp only [Field.value]; omega)

/-- What a pattern writes is read back by it, whatever follows. -/
theorem readItems_write (pattern : Pattern) (t₀ : DateTime) (s : List Char) :
    readItems pattern t₀ (write pattern t ++ s) = .ok (copyFields t pattern t₀, s) := by
  induction pattern generalizing t₀ with
  | nil => rfl
  | cons item pattern ih =>
    cases item with
    | literal c =>
      rw [write_cons_literal, List.cons_append, readItems, if_pos rfl]
      exact ih t₀
    | field f =>
      obtain ⟨n, hvalue, hn, htext⟩ := exists_value ht hlow hhigh f
      have hset := setField_value ht hlow hhigh f t₀
      rw [hvalue] at hset
      rw [write_cons_field, List.append_assoc, readItems, htext, readField_fixedDigits f n _ hn]
      simp only [bind, Except.bind, hset]
      exact ih _

theorem read_write (pattern : Pattern)
    (hdate : IsDate (copyFields t pattern origin).year (copyFields t pattern origin).month
      (copyFields t pattern origin).day) :
    read pattern (write pattern t) = .ok (copyFields t pattern origin) := by
  have hitems := readItems_write ht hlow hhigh pattern origin []
  rw [List.append_nil] at hitems
  exact read_eq_ok pattern _ _ hitems hdate

end Written

/-- A time of day stays one as fields are set. -/
theorem isTime_of_readItems (pattern : Pattern) (t₀ t : DateTime) (s rest : List Char)
    (h : readItems pattern t₀ s = .ok (t, rest)) (ht : IsTime t₀.hour t₀.minute t₀.second) :
    IsTime t.hour t.minute t.second := by
  have hset (f : Field) (v : Int) (t₀ t₁ : DateTime) (h : setField f v t₀ = .ok t₁)
      (ht : IsTime t₀.hour t₀.minute t₀.second) : IsTime t₁.hour t₁.minute t₁.second := by
    unfold IsTime at *
    cases f <;> simp only [setField] at h <;> split at h <;> cases h <;> simp only <;> omega
  induction pattern generalizing t₀ s with
  | nil =>
    cases h
    exact ht
  | cons item pattern ih =>
    cases item with
    | literal c =>
      cases s with
      | nil => cases h
      | cons d s =>
        rw [readItems] at h
        split at h
        · exact ih t₀ s h ht
        · cases h
    | field f =>
      obtain ⟨v, rest', t₁, -, hfield, hrest⟩ := (readItems_field_iff f pattern t₀ s _).1 h
      exact ih t₁ rest' hrest (hset f v t₀ t₁ hfield ht)

theorem valid_of_read (pattern : Pattern) (s : List Char) (t : DateTime)
    (h : read pattern s = .ok t) : t.Valid := by
  obtain ⟨hitems, hdate⟩ := (read_eq_ok_iff pattern s t).1 h
  exact ⟨hdate, isTime_of_readItems pattern origin t s [] hitems (by decide)⟩

section DigitsOnly

theorem takeDigits_of_allDigits (w acc : Nat) (s : List Char) (hs : AllDigits s) :
    ∃ n, takeDigits w acc s = (n, s.drop w) := by
  induction w generalizing acc s with
  | zero => exact ⟨acc, rfl⟩
  | succ w ih =>
    cases s with
    | nil => exact ⟨acc, rfl⟩
    | cons c s =>
      obtain ⟨⟨d, hd⟩, hrest⟩ := List.forall_mem_cons.1 hs
      obtain ⟨n, hn⟩ := ih (acc * 10 + d) s hrest
      exact ⟨n, by rw [takeDigits, hd]; exact hn⟩

theorem readField_of_allDigits (f : Field) (s rest : List Char) (v : Int) (hs : AllDigits s)
    (h : readField f s = .ok (v, rest)) : s ≠ [] ∧ rest = s.drop f.width := by
  cases s with
  | nil => cases f <;> cases h
  | cons c s =>
    obtain ⟨d, hd⟩ := hs c List.mem_cons_self
    obtain ⟨n, hn⟩ := takeDigits_of_allDigits f.width 0 (c :: s) hs
    rw [readField_of_digit f c s d hd, readNumber, hd, Option.isSome_some, if_pos rfl, hn] at h
    cases h
    exact ⟨List.cons_ne_nil c s, rfl⟩

/-- The width of fields side by side. -/
def fieldsWidth (fs : List Field) : Nat := (fs.map Field.width).sum

/-- Of digits alone every field takes its full width, but the last one may find less. -/
theorem readItems_fields (fs : List Field) (t₀ t : DateTime) (s rest : List Char)
    (hs : AllDigits s) (h : readItems (fs.map Item.field) t₀ s = .ok (t, rest)) :
    rest = s.drop (fieldsWidth fs) ∧ (fs ≠ [] → fieldsWidth fs.dropLast < s.length) := by
  induction fs generalizing t₀ s with
  | nil =>
    cases h
    exact ⟨rfl, fun hne => absurd rfl hne⟩
  | cons f fs ih =>
    obtain ⟨v, rest', t₁, hread, -, htail⟩ := (readItems_field_iff f _ t₀ s _).1 h
    obtain ⟨hne, rfl⟩ := readField_of_allDigits f s rest' v hs hread
    obtain ⟨hbehind, hlength⟩ := ih t₁ _ (fun c hc => hs c (List.mem_of_mem_drop hc)) htail
    refine ⟨by rw [hbehind, List.drop_drop]; rfl, fun _ => ?_⟩
    cases fs with
    | nil => exact List.length_pos_iff.2 hne
    | cons g fs =>
      have hlt := hlength (List.cons_ne_nil g fs)
      rw [List.length_drop] at hlt
      simp only [fieldsWidth, List.dropLast_cons_cons, List.map_cons, List.sum_cons] at hlt ⊢
      omega

theorem length_of_read_fields (fs : List Field) (hfs : fs ≠ []) (s : List Char) (t : DateTime)
    (hs : AllDigits s) (h : read (fs.map Item.field) s = .ok t) :
    fieldsWidth fs.dropLast < s.length ∧ s.length ≤ fieldsWidth fs := by
  obtain ⟨hitems, -⟩ := (read_eq_ok_iff _ s t).1 h
  obtain ⟨hrest, hlength⟩ := readItems_fields fs origin t s [] hs hitems
  exact ⟨hlength hfs, List.drop_eq_nil_iff.1 hrest.symm⟩

/-- Behind a minus the year takes all digits, and nothing is left for other fields. -/
theorem read_minus (f : Field) (pattern : Pattern) (s : List Char) (hs : AllDigits s) :
    ∃ fault, read (.field .year :: .field f :: pattern) ('-' :: s) = .error fault := by
  obtain ⟨n, hn⟩ := takeDigits_of_allDigits s.length 0 s hs
  rw [List.drop_length] at hn
  have hyear : (∃ fault, readField .year ('-' :: s) = .error fault) ∨
      ∃ v, readField .year ('-' :: s) = .ok (v, []) := by
    cases s with
    | nil => exact .inl ⟨_, rfl⟩
    | cons c s =>
      obtain ⟨d, hd⟩ := hs c List.mem_cons_self
      have hnumber : readNumber (c :: s).length (c :: s) = .ok (n, []) := by
        rw [readNumber, hd, hn]
        rfl
      refine .inr ⟨-(n : Int), ?_⟩
      have htrim : trimStart ('-' :: c :: s) = '-' :: c :: s := rfl
      rw [readField, htrim, readYear, hnumber]
      rfl
  have hshort : readField f [] = .error .tooShort := by cases f <;> rfl
  rw [read, readItems]
  rcases hyear with ⟨fault, h⟩ | ⟨v, h⟩
  · rw [h]
    exact ⟨fault, rfl⟩
  · rw [h]
    cases hset : setField .year v origin with
    | error fault => exact ⟨fault, by simp [hset, bind, Except.bind]⟩
    | ok t => exact ⟨.tooShort, by simp [hset, readItems, hshort, bind, Except.bind]⟩

end DigitsOnly

end Harvest.Calendar
