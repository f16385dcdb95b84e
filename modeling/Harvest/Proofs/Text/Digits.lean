import Harvest.Text.Blank
import Harvest.Text.Integer
import Mathlib.Data.Nat.Log
import Mathlib.Tactic.IntervalCases
import Mathlib.Tactic.Positivity
import Mathlib.Tactic.Ring

/-!
# Digits of a given width

`fixedDigits w n` are the last `w` decimal digits of `n`, zeros in front included. The digits of
a number and its padded digits are of this form, and digits of one width stand side by side as
those of one number (`fixedDigits_append`), so a text made of fields of fixed width can be taken
for the digits of a number and back.
-/

namespace Harvest.Text

/-- The last `w` decimal digits of a number, from the left. -/
def fixedDigits : (w n : Nat) → List Char
  | 0, _ => []
  | w + 1, n => Nat.digitChar (n / 10 ^ w % 10) :: fixedDigits w n

/-- A text of digits only. -/
def AllDigits (s : List Char) : Prop := ∀ c ∈ s, ∃ d, digitValue? c = some d

@[simp] theorem length_fixedDigits (w n : Nat) : (fixedDigits w n).length = w := by
  induction w with
  | zero => rfl
  | succ w ih => simp [fixedDigits, ih]

theorem digitValue?_digitChar (d : Nat) (h : d < 10) : digitValue? (Nat.digitChar d) = some d := by
  interval_cases d <;> decide

theorem allDigits_fixedDigits (w n : Nat) : AllDigits (fixedDigits w n) := by
  induction w with
  | zero => simp [AllDigits, fixedDigits]
  | succ w ih =>
    refine List.forall_mem_cons.2 ⟨⟨n / 10 ^ w % 10, ?_⟩, ih⟩
    exact digitValue?_digitChar _ (Nat.mod_lt _ (by decide))

theorem AllDigits.append {s t : List Char} (hs : AllDigits s) (ht : AllDigits t) :
    AllDigits (s ++ t) :=
  List.forall_mem_append.2 ⟨hs, ht⟩

/-- A digit is no blank, so nothing is trimmed in front of one. -/
theorem trimStart_of_digit (c : Char) (s : List Char) (d : Nat) (h : digitValue? c = some d) :
    trimStart (c :: s) = c :: s := by
  have hrange : '0' ≤ c ∧ c ≤ '9' := by
    by_contra hnot
    simp [digitValue?, hnot] at h
  have hlow : 48 ≤ c.toNat := UInt32.le_iff_toNat_le.1 hrange.1
  have hhigh : c.toNat ≤ 57 := UInt32.le_iff_toNat_le.1 hrange.2
  have hblank : isBlank c = false := by
    simp only [isBlank, Bool.or_eq_false_iff, Bool.and_eq_false_iff, decide_eq_false_iff_not,
      beq_eq_false_iff_ne]
    omega
  rw [trimStart_cons, hblank]
  rfl

/-- Digits of two widths side by side. -/
theorem fixedDigits_append (v w n : Nat) :
    fixedDigits (v + w) n = fixedDigits v (n / 10 ^ w) ++ fixedDigits w n := by
  induction v with
  | zero => simp [fixedDigits]
  | succ v ih =>
    have hdiv : n / 10 ^ w / 10 ^ v = n / 10 ^ (v + w) := by
      rw [Nat.div_div_eq_div_mul, ← pow_add, Nat.add_comm w v]
    rw [Nat.add_right_comm, fixedDigits, fixedDigits, ih, hdiv]
    rfl

/-- Only the last digits count. -/
theorem fixedDigits_mul_add (w a b : Nat) : fixedDigits w (a * 10 ^ w + b) = fixedDigits w b := by
  induction w generalizing a with
  | zero => rfl
  | succ w ih =>
    have hpow : a * 10 ^ (w + 1) + b = a * 10 * 10 ^ w + b := by ring
    have hdigit : (a * 10 * 10 ^ w + b) / 10 ^ w % 10 = b / 10 ^ w % 10 := by
      rw [Nat.add_comm, Nat.add_mul_div_right _ _ (by positivity), Nat.add_mul_mod_self_right]
    rw [hpow, fixedDigits, ih, hdigit]
    rfl

theorem fixedDigits_add (v w a b : Nat) (hb : b < 10 ^ w) :
    fixedDigits (v + w) (a * 10 ^ w + b) = fixedDigits v a ++ fixedDigits w b := by
  have hdiv : (a * 10 ^ w + b) / 10 ^ w = a := by
    rw [Nat.add_comm, Nat.add_mul_div_right _ _ (by positivity), Nat.div_eq_of_lt hb, Nat.zero_add]
  rw [fixedDigits_append, hdiv, fixedDigits_mul_add]

theorem fixedDigits_zero (w : Nat) : fixedDigits w 0 = List.replicate w '0' := by
  induction w with
  | zero => rfl
  | succ w ih => simp [fixedDigits, ih, List.replicate_succ]

theorem digits_eq_fixedDigits (w n : Nat) (hlow : 10 ^ w ≤ n) (hhigh : n < 10 ^ (w + 1)) :
    digits n = fixedDigits (w + 1) n := by
  induction w generalizing n with
  | zero =>
    have hlt : n < 10 := hhigh
    rw [digits, Nat.toDigits_of_lt_base hlt]
    simp [fixedDigits, Nat.mod_eq_of_lt hlt]
  | succ w ih =>
    have hten : 10 ≤ n := le_trans (Nat.le_self_pow (by omega) 10) hlow
    have hfirst : digits (n / 10) = fixedDigits (w + 1) (n / 10) := by
      apply ih
      · rw [Nat.le_div_iff_mul_le (by decide), ← pow_succ]
        exact hlow
      · rw [Nat.div_lt_iff_lt_mul (by decide), ← pow_succ]
        exact hhigh
    calc digits n = digits (n / 10) ++ [Nat.digitChar (n % 10)] :=
          Nat.toDigits_of_base_le (by decide) hten
      _ = fixedDigits (w + 1) (n / 10 ^ 1) ++ fixedDigits 1 n := by
          rw [hfirst]
          simp [fixedDigits]
      _ = fixedDigits (w + 1 + 1) n := (fixedDigits_append (w + 1) 1 n).symm

theorem exists_digits_eq_fixedDigits (n : Nat) (hn : n ≠ 0) :
    ∃ w, 10 ^ w ≤ n ∧ n < 10 ^ (w + 1) ∧ digits n = fixedDigits (w + 1) n := by
  have hlow := Nat.pow_log_le_self 10 hn
  have hhigh := Nat.lt_pow_succ_log_self (show 1 < 10 by decide) n
  exact ⟨Nat.log 10 n, hlow, hhigh, digits_eq_fixedDigits _ n hlow hhigh⟩

theorem allDigits_digits (n : Nat) : AllDigits (digits n) := by
  by_cases hn : n = 0
  · subst hn
    exact List.forall_mem_singleton.2 ⟨0, by decide⟩
  · obtain ⟨w, -, -, h⟩ := exists_digits_eq_fixedDigits n hn
    exact h ▸ allDigits_fixedDigits (w + 1) n

/-- A number is padded to its digits of that width. -/
theorem padded_eq_fixedDigits (w n : Nat) (h : n < 10 ^ (w + 1)) :
    padded (w + 1) n = fixedDigits (w + 1) n := by
  by_cases hn : n = 0
  · subst hn
    rw [fixedDigits_zero, padded, digits, Nat.toDigits_zero, List.replicate_succ']
    rfl
  · obtain ⟨v, hlow, hhigh, hdigits⟩ := exists_digits_eq_fixedDigits n hn
    have hv : v < w + 1 := (Nat.pow_lt_pow_iff_right (by decide)).1 (lt_of_le_of_lt hlow h)
    obtain ⟨k, rfl⟩ : ∃ k, w = k + v := ⟨w - v, by omega⟩
    have hdiv : n / 10 ^ (v + 1) = 0 := Nat.div_eq_of_lt hhigh
    rw [padded, hdigits, length_fixedDigits, Nat.add_assoc, Nat.add_sub_cancel,
      fixedDigits_append k, hdiv, fixedDigits_zero]

section Reading

variable (bound : Nat) (fault : IntegerFault)

/-- The digits of a number are read as it. -/
theorem readDigits_fixedDigits (w acc n : Nat) (h : acc * 10 ^ w + n % 10 ^ w ≤ bound) :
    readDigits bound fault acc (fixedDigits w n) = .ok (acc * 10 ^ w + n % 10 ^ w) := by
  induction w generalizing acc with
  | zero => simp [fixedDigits, readDigits, Nat.mod_one]
  | succ w ih =>
    have hsum : acc * 10 ^ (w + 1) + n % 10 ^ (w + 1) =
        (acc * 10 + n / 10 ^ w % 10) * 10 ^ w + n % 10 ^ w := by
      rw [Nat.mod_pow_succ]
      ring
    rw [hsum] at h ⊢
    have hpos : 0 < 10 ^ w := by positivity
    have hacc : acc * 10 + n / 10 ^ w % 10 ≤ bound :=
      le_trans (Nat.le_mul_of_pos_right _ hpos) (le_trans (Nat.le_add_right _ _) h)
    rw [fixedDigits, readDigits_cons bound fault acc (n / 10 ^ w % 10) _ _
      (digitValue?_digitChar _ (Nat.mod_lt _ (by decide))) hacc]
    exact ih _ h

theorem readDigits_digits (n : Nat) (h : n ≤ bound) :
    readDigits bound fault 0 (digits n) = .ok n := by
  by_cases hn : n = 0
  · subst hn
    exact readDigits_cons bound fault 0 0 '0' [] (by decide) (Nat.zero_le _)
  · obtain ⟨w, -, hhigh, hdigits⟩ := exists_digits_eq_fixedDigits n hn
    have hmod : n % 10 ^ (w + 1) = n := Nat.mod_eq_of_lt hhigh
    rw [hdigits, readDigits_fixedDigits bound fault (w + 1) 0 n (by rw [hmod]; omega), hmod,
      Nat.zero_mul, Nat.zero_add]

end Reading

theorem exists_digits_eq_cons (n : Nat) :
    ∃ c s d, digits n = c :: s ∧ digitValue? c = some d := by
  have hall := allDigits_digits n
  cases hdigits : digits n with
  | nil => exact absurd hdigits Nat.toDigits_ne_nil
  | cons c s =>
    obtain ⟨d, hd⟩ := hall c (hdigits ▸ List.mem_cons_self)
    exact ⟨c, s, d, rfl, hd⟩

theorem map_eq_ok_iff {ε α β : Type} (x : Except ε α) (f : α → β) (b : β) :
    x.map f = .ok b ↔ ∃ a, x = .ok a ∧ f a = b := by
  cases x with
  | error fault => simp [Except.map]
  | ok a => simp [Except.map]

theorem bind_eq_ok_iff {ε α β : Type} (x : Except ε α) (f : α → Except ε β) (b : β) :
    x >>= f = .ok b ↔ ∃ a, x = .ok a ∧ f a = .ok b := by
  cases x with
  | error fault => simp [bind, Except.bind]
  | ok a => simp [bind, Except.bind]

theorem bounds_of_readInt64 (s : List Char) (v : Int) (h : readInt64 s = .ok v) :
    -(maxInt64 + 1 : Nat) ≤ v ∧ v ≤ maxInt64 := by
  unfold readInt64 at h
  split at h
  · cases h
  · cases h
  · cases h
  · obtain ⟨n, hn, rfl⟩ := (map_eq_ok_iff _ _ _).1 h
    have hle := le_of_readDigits _ _ 0 n _ (Nat.zero_le _) hn
    exact ⟨by simp only [Int.ofNat_eq_natCast]; omega, Int.ofNat_le.2 hle⟩
  · rename_i s _
    obtain ⟨m, hm, rfl⟩ := (map_eq_ok_iff _ _ _).1 h
    cases hn : readDigits (maxInt64 + 1) .tooSmall 0 s with
    | error fault =>
      rw [hn] at hm
      cases hm
    | ok n =>
      rw [hn] at hm
      cases hm
      have hle := le_of_readDigits _ _ 0 n _ (Nat.zero_le _) hn
      exact ⟨by omega, by omega⟩
  · obtain ⟨n, hn, rfl⟩ := (map_eq_ok_iff _ _ _).1 h
    have hle := le_of_readDigits _ _ 0 n _ (Nat.zero_le _) hn
    exact ⟨by simp only [Int.ofNat_eq_natCast]; omega, Int.ofNat_le.2 hle⟩

/-- A text that starts with a digit has no sign. -/
theorem readInt64_of_digit {c : Char} {d : Nat} (h : digitValue? c = some d) (s : List Char) :
    readInt64 (c :: s) = (readDigits maxInt64 .tooLarge 0 (c :: s)).map Int.ofNat := by
  rw [readInt64]
  all_goals
    intros
    simp_all [digitValue?]

/-- A number of 64 bits is read back from its decimal text. -/
theorem readInt64_decimal (v : Int) (hlow : -(maxInt64 + 1 : Nat) ≤ v) (hhigh : v ≤ maxInt64) :
    readInt64 (decimal v) = .ok v := by
  cases v with
  | ofNat n =>
    have hread := readDigits_digits maxInt64 .tooLarge n (Int.ofNat_le.1 hhigh)
    obtain ⟨c, s, d, hdigits, hd⟩ := exists_digits_eq_cons n
    rw [decimal, hdigits, readInt64_of_digit hd, ← hdigits, hread]
    rfl
  | negSucc n =>
    have hread := readDigits_digits (maxInt64 + 1) .tooSmall (n + 1) (by omega)
    obtain ⟨c, s, d, hdigits, -⟩ := exists_digits_eq_cons (n + 1)
    rw [decimal, hdigits, readInt64, ← hdigits, hread]
    · rfl
    · simp

end Harvest.Text
