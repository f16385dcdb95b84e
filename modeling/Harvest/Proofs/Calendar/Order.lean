import Harvest.Proofs.Calendar.RoundTrip
import Mathlib.Data.String.Basic

/-!
# The order of what a pattern writes

Digits of one width are in the order of texts as their numbers are (`Text.fixedDigits_lt`). What
stands between the fields of a pattern makes no difference to the order of what it writes for
moments whose year has at most four digits (`write_lt_write`), nor does what is put behind.
-/

namespace Harvest

namespace Text

/-- Of texts that begin with parts of one length the first parts decide, unless they are the
same. -/
theorem append_lt_append_iff {a b s t : List Char} (h : a.length = b.length) :
    a ++ s < b ++ t ↔ a < b ∨ a = b ∧ s < t := by
  induction a generalizing b with
  | nil =>
    rw [List.length_nil, eq_comm, List.length_eq_zero_iff] at h
    subst h
    simp
  | cons c a ih =>
    cases b with
    | nil => cases h
    | cons d b =>
      rw [List.cons_append, List.cons_append, List.cons_lt_cons_iff, List.cons_lt_cons_iff,
        ih (Nat.succ.inj h), List.cons.injEq]
      tauto

theorem digitChar_lt {d e : Nat} (h : d < e) (he : e < 10) :
    Nat.digitChar d < Nat.digitChar e := by
  have hall : ∀ e < 10, ∀ d < e, Nat.digitChar d < Nat.digitChar e := by decide
  exact hall e he d h

theorem fixedDigits_lt {w n k : Nat} (h : n % 10 ^ w < k % 10 ^ w) :
    fixedDigits w n < fixedDigits w k := by
  induction w with
  | zero => simp [Nat.mod_one] at h
  | succ w ih =>
    rw [fixedDigits, fixedDigits, List.cons_lt_cons_iff]
    rw [Nat.mod_pow_succ, Nat.mod_pow_succ] at h
    have hn : n % 10 ^ w < 10 ^ w := Nat.mod_lt _ (by positivity)
    have hk : k % 10 ^ w < 10 ^ w := Nat.mod_lt _ (by positivity)
    rcases Nat.lt_trichotomy (n / 10 ^ w % 10) (k / 10 ^ w % 10) with hlt | heq | hgt
    · exact .inl (digitChar_lt hlt (Nat.mod_lt _ (by decide)))
    · rw [heq] at h
      exact .inr ⟨by rw [heq], ih (by omega)⟩
    · -- a larger digit in front makes the number larger
      have hle := Nat.mul_le_mul_left (10 ^ w) (Nat.succ_le_of_lt hgt)
      rw [Nat.mul_succ] at hle
      omega

/-- A digit is no blank and takes one byte. -/
theorem plain_of_digit {c : Char} {d : Nat} (h : digitValue? c = some d) :
    isBlank c = false ∧ c.utf8Size = 1 := by
  have hblank : isBlank c = false := by
    by_contra hnot
    have htrim := trimStart_of_digit c [] d h
    rw [trimStart_cons, if_pos (by simpa using hnot)] at htrim
    cases htrim
  have hhigh : c ≤ '9' := by
    by_contra hnot
    simp [digitValue?, hnot] at h
  refine ⟨hblank, Char.utf8Size_eq_one_iff.2 ?_⟩
  exact UInt32.le_trans hhigh (by decide)

end Text

namespace Calendar

open Text

/-- A moment that is written by fields of fixed width, as its year has at most four digits. -/
structure HasWidth (t : DateTime) : Prop where
  valid : t.Valid
  low : 0 ≤ t.year
  high : t.year ≤ 9999

/-- The fields of a pattern, without what stands between them. -/
def fieldsOf : Pattern → Pattern
  | [] => []
  | .literal _ :: pattern => fieldsOf pattern
  | .field f :: pattern => .field f :: fieldsOf pattern

/-- The width of one element. -/
def Item.width : Item → Nat
  | .field f => f.width
  | .literal _ => 1

/-- What a pattern has between its fields is no blank and takes one byte. -/
def IsPlain (pattern : Pattern) : Prop :=
  ∀ c, .literal c ∈ pattern → isBlank c = false ∧ c.utf8Size = 1

section Writing

variable {t u : DateTime}

theorem HasWidth.exists_text (ht : HasWidth t) (f : Field) :
    ∃ n, fieldText t f = fixedDigits f.width n := by
  obtain ⟨n, -, -, htext⟩ := exists_value ht.valid ht.low ht.high f
  exact ⟨n, htext⟩

theorem HasWidth.length_write (ht : HasWidth t) (pattern : Pattern) :
    (write pattern t).length = (pattern.map Item.width).sum := by
  induction pattern with
  | nil => rfl
  | cons item pattern ih =>
    rw [List.map_cons, List.sum_cons, ← ih]
    cases item with
    | literal c => rw [write_cons_literal, List.length_cons, Nat.add_comm]; rfl
    | field f =>
      obtain ⟨n, htext⟩ := ht.exists_text f
      rw [write_cons_field, List.length_append, htext, length_fixedDigits]
      rfl

theorem HasWidth.plain_write (ht : HasWidth t) {pattern : Pattern} (hpattern : IsPlain pattern) :
    ∀ c ∈ write pattern t, isBlank c = false ∧ c.utf8Size = 1 := by
  induction pattern with
  | nil => exact nofun
  | cons item pattern ih =>
    have hrest := ih fun c hc => hpattern c (List.mem_cons_of_mem _ hc)
    cases item with
    | literal c =>
      rw [write_cons_literal]
      exact List.forall_mem_cons.2 ⟨hpattern c List.mem_cons_self, hrest⟩
    | field f =>
      obtain ⟨n, htext⟩ := ht.exists_text f
      rw [write_cons_field, htext]
      refine List.forall_mem_append.2 ⟨fun c hc => ?_, hrest⟩
      obtain ⟨d, hd⟩ := allDigits_fixedDigits _ _ c hc
      exact plain_of_digit hd

/-- What stands between the fields makes no difference to the order. -/
theorem write_lt_write (ht : HasWidth t) (hu : HasWidth u) {pattern : Pattern}
    (h : write (fieldsOf pattern) t < write (fieldsOf pattern) u) :
    write pattern t < write pattern u := by
  induction pattern with
  | nil => exact h
  | cons item pattern ih =>
    cases item with
    | literal c =>
      rw [write_cons_literal, write_cons_literal]
      exact List.cons_lt_cons_self.2 (ih h)
    | field f =>
      obtain ⟨n, hn⟩ := ht.exists_text f
      obtain ⟨k, hk⟩ := hu.exists_text f
      have hlength : (fieldText t f).length = (fieldText u f).length := by
        rw [hn, hk, length_fixedDigits, length_fixedDigits]
      rw [fieldsOf, write_cons_field, write_cons_field, append_lt_append_iff hlength] at h
      rw [write_cons_field, write_cons_field, append_lt_append_iff hlength]
      exact h.imp_right fun h => ⟨h.1, ih h.2⟩

end Writing

end Calendar

end Harvest
