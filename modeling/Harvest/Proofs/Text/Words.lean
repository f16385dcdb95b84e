import Harvest.Text.Blank
import Harvest.Text.Folded

/-!
# Words and searches

Words are what blanks separate. A keyword set in blanks that is found in a text is one of its
words, so a text that does not have the word is not cut at it.
-/

namespace Harvest.Text

/-- The parts of a text between blanks. -/
def words (s : List Char) : List (List Char) := s.splitOnP isBlank

/-- The word stands in the text between blanks, whatever the case of its letters. -/
def HasWord (word : List Char) (text : String) : Prop :=
  word ∈ words (text.toList.map Char.toLower)

instance (word : List Char) (text : String) : Decidable (HasWord word text) :=
  inferInstanceAs (Decidable (word ∈ words (text.toList.map Char.toLower)))

/-- A word that stands between two blanks. -/
theorem mem_words (before word after : List Char) (a b : Char) (ha : isBlank a = true)
    (hb : isBlank b = true) (hword : ∀ c ∈ word, isBlank c = false) :
    word ∈ words (before ++ a :: (word ++ b :: after)) := by
  rw [words, List.splitOnP_append_cons before _ ha,
    List.splitOnP_append_cons_of_forall_mem hword b hb]
  simp

theorem toLower_of_not_upper (c : Char) (h : ¬ (65 ≤ c.toNat ∧ c.toNat ≤ 90)) :
    c.toLower = c := by
  unfold Char.toLower
  split
  · rename_i hupper
    exact absurd ⟨UInt32.le_iff_toNat_le.1 hupper.1, UInt32.le_iff_toNat_le.1 hupper.2⟩ h
  · rfl

theorem toNat_toLower_of_upper (c : Char) (h : 65 ≤ c.toNat ∧ c.toNat ≤ 90) :
    c.toLower.toNat = c.toNat + 32 := by
  have hupper : c.val ≥ 'A'.val ∧ c.val ≤ 'Z'.val :=
    ⟨UInt32.le_iff_toNat_le.2 h.1, UInt32.le_iff_toNat_le.2 h.2⟩
  have hbound : c.val.toNat ≤ 90 := h.2
  unfold Char.toLower
  rw [dif_pos hupper]
  change (c.val + 32).toNat = c.val.toNat + 32
  rw [UInt32.toNat_add]
  change (c.val.toNat + 32) % 4294967296 = c.val.toNat + 32
  omega

theorem isBlank_toLower (c : Char) : isBlank c.toLower = isBlank c := by
  by_cases hupper : 65 ≤ c.toNat ∧ c.toNat ≤ 90
  · have hlower := toNat_toLower_of_upper c hupper
    have hnot (d : Char) (h : 65 ≤ d.toNat ∧ d.toNat ≤ 122) : isBlank d = false := by
      rw [← Bool.not_eq_true]
      intro hblank
      simp only [isBlank, Bool.or_eq_true, Bool.and_eq_true, decide_eq_true_eq,
        beq_iff_eq] at hblank
      omega
    rw [hnot c (by omega), hnot c.toLower (by omega)]
  · rw [toLower_of_not_upper c hupper]

theorem toLower_of_isBlank (c : Char) (h : isBlank c = true) : c.toLower = c := by
  apply toLower_of_not_upper
  intro hupper
  simp only [isBlank, Bool.or_eq_true, Bool.and_eq_true, decide_eq_true_eq, beq_iff_eq] at h
  omega

theorem toLower_of_isDigit (c : Char) (h : c.isDigit = true) : c.toLower = c := by
  apply toLower_of_not_upper
  intro hupper
  simp only [Char.isDigit, Bool.and_eq_true, decide_eq_true_eq] at h
  have hhigh : c.toNat ≤ 57 := UInt32.le_iff_toNat_le.1 h.2
  omega

theorem isBlank_of_isDigit (c : Char) (h : c.isDigit = true) : isBlank c = false := by
  simp only [Char.isDigit, Bool.and_eq_true, decide_eq_true_eq] at h
  have hlow : 48 ≤ c.toNat := UInt32.le_iff_toNat_le.1 h.1
  have hhigh : c.toNat ≤ 57 := UInt32.le_iff_toNat_le.1 h.2
  simp only [isBlank, Bool.or_eq_false_iff, Bool.and_eq_false_iff, decide_eq_false_iff_not,
    beq_eq_false_iff_ne]
  omega

theorem startsFolded_of_splitFirst? (word s before rest : List Char)
    (h : splitFirst? word s = some (before, rest)) : startsFolded word rest = true := by
  induction s generalizing before rest with
  | nil =>
    unfold splitFirst? at h
    split at h
    · rename_i hstart
      cases h
      exact hstart
    · cases h
  | cons c s ih =>
    unfold splitFirst? at h
    split at h
    · rename_i hstart
      cases h
      exact hstart
    · obtain ⟨parts, hparts, heq⟩ := Option.map_eq_some_iff.1 h
      cases heq
      exact ih parts.1 parts.2 hparts

theorem startsFolded_of_splitLast? (word s before rest : List Char)
    (h : splitLast? word s = some (before, rest)) : startsFolded word rest = true := by
  induction s generalizing before rest with
  | nil =>
    unfold splitLast? at h
    split at h
    · rename_i hstart
      cases h
      exact hstart
    · cases h
  | cons c s ih =>
    unfold splitLast? at h
    split at h
    · rename_i parts hparts
      cases h
      exact ih parts.1 parts.2 hparts
    · split at h
      · rename_i hstart
        cases h
        exact hstart
      · cases h

theorem startsFolded_append (word s t : List Char) (h : startsFolded word s = true) :
    startsFolded word (s ++ t) = true := by
  rw [startsFolded_iff] at h ⊢
  rw [List.map_append]
  exact h.trans (List.prefix_append _ _)

theorem occurs_of_startsFolded (word before rest : List Char)
    (h : startsFolded word rest = true) : occurs word (before ++ rest) = true := by
  induction before with
  | nil =>
    cases rest with
    | nil => simp [occurs, splitFirst?, h]
    | cons c s => simp [occurs, splitFirst?, h]
  | cons c before ih =>
    rw [occurs, List.cons_append, splitFirst?]
    split
    · rfl
    · rw [Option.isSome_map]
      exact ih

theorem occurs_iff_isInfix (word s : List Char) :
    occurs word s = true ↔ word <:+: s.map Char.toLower := by
  constructor
  · intro h
    obtain ⟨⟨before, rest⟩, hsplit⟩ := Option.isSome_iff_exists.1 h
    obtain ⟨after, hafter⟩ :=
      (startsFolded_iff word rest).1 (startsFolded_of_splitFirst? word s before rest hsplit)
    refine ⟨before.map Char.toLower, after, ?_⟩
    rw [← append_of_splitFirst? word s before rest hsplit, List.map_append, ← hafter,
      List.append_assoc]
  · rintro ⟨before, after, h⟩
    obtain ⟨front, rest, rfl, rfl, hrest⟩ := List.map_eq_append_iff.1 (h.symm.trans
      (List.append_assoc _ _ _))
    exact occurs_of_startsFolded word front rest
      ((startsFolded_iff word rest).2 ⟨after, hrest.symm⟩)

theorem occurs_append_left (word s t : List Char) (h : occurs word s = true) :
    occurs word (s ++ t) = true := by
  rw [occurs_iff_isInfix] at h ⊢
  rw [List.map_append]
  exact h.trans (List.prefix_append _ _).isInfix

theorem splitLast?_append (word s t before rest : List Char)
    (h : splitLast? word t = some (before, rest)) :
    splitLast? word (s ++ t) = some (s ++ before, rest) := by
  induction s with
  | nil => exact h
  | cons c s ih => rw [List.cons_append, splitLast?, ih, List.cons_append]

/-- A text without one of its letters has no keyword. -/
theorem splitLast?_eq_none (word s : List Char) (letter : Char) (hletter : letter ∈ word)
    (h : ∀ c ∈ s, c.toLower ≠ letter) : splitLast? word s = none := by
  have hstart (t : List Char) (ht : ∀ c ∈ t, c.toLower ≠ letter) :
      startsFolded word t = false := by
    rw [← Bool.not_eq_true, startsFolded_iff]
    intro hword
    obtain ⟨c, hc, heq⟩ := List.mem_map.1 (hword.subset hletter)
    exact ht c hc heq
  induction s with
  | nil => rw [splitLast?, hstart [] h]; rfl
  | cons c s ih =>
    rw [splitLast?, ih fun d hd => h d (List.mem_cons_of_mem c hd), hstart (c :: s) h]
    rfl

/-- A keyword that occurs set in blanks is a word of the text. -/
theorem mem_words_of_startsFolded (word before rest : List Char) (b : Char)
    (hb : isBlank b = true) (hword : word.any isBlank = false)
    (h : startsFolded (' ' :: (word ++ [b])) rest = true) :
    word ∈ words ((before ++ rest).map Char.toLower) := by
  have hunbroken : ∀ c ∈ word, isBlank c = false := by
    intro c hc
    exact Bool.eq_false_iff.2 (List.any_eq_false.1 hword c hc)
  obtain ⟨after, hafter⟩ := (startsFolded_iff _ rest).1 h
  have hmap : (before ++ rest).map Char.toLower =
      before.map Char.toLower ++ ' ' :: (word ++ b :: after) := by
    rw [List.map_append, ← hafter]
    simp
  rw [hmap]
  exact mem_words _ word after ' ' b (by decide) hb hunbroken

/-- Trimming takes blanks away only. -/
theorem exists_blanks_trim (s : List Char) :
    ∃ before after, s = before ++ trim s ++ after ∧ (∀ b ∈ before, isBlank b = true) ∧
      ∀ b ∈ after, isBlank b = true := by
  refine ⟨s.takeWhile isBlank, ((trimStart s).reverse.takeWhile isBlank).reverse, ?_, ?_, ?_⟩
  · have hend : trim s ++ ((trimStart s).reverse.takeWhile isBlank).reverse = trimStart s := by
      rw [trim, trimEnd, ← List.reverse_append, List.takeWhile_append_dropWhile,
        List.reverse_reverse]
    rw [List.append_assoc, hend, takeWhile_append_trimStart]
  · intro b hb
    exact List.all_eq_true.1 List.all_takeWhile b hb
  · intro b hb
    exact List.all_eq_true.1 List.all_takeWhile b (List.mem_reverse.1 hb)

/-- A word is what is left when the blanks around it are trimmed. -/
theorem trim_append_blanks {gap word rest : List Char} (hne : word ≠ [])
    (hgap : ∀ c ∈ gap, isBlank c = true) (hword : ∀ c ∈ word, isBlank c = false)
    (hrest : ∀ c ∈ rest, isBlank c = true) : trim (gap ++ word ++ rest) = word := by
  have hkept (s : List Char) (hs : ∀ c ∈ s, isBlank c = false) : s.dropWhile isBlank = s := by
    cases s with
    | nil => rfl
    | cons c s => exact List.dropWhile_cons_of_neg (by simp [hs c])
  have hstart : trimStart (gap ++ word ++ rest) = word ++ rest := by
    obtain ⟨c, others, rfl⟩ := List.exists_cons_of_ne_nil hne
    rw [trimStart, List.append_assoc, List.dropWhile_append_of_pos hgap]
    exact List.dropWhile_cons_of_neg (by simp [hword c])
  rw [trim, hstart, trimEnd, List.reverse_append, List.dropWhile_append_of_pos fun c hc =>
    hrest c (List.mem_reverse.1 hc), hkept _ fun c hc => hword c (List.mem_reverse.1 hc),
    List.reverse_reverse]

end Harvest.Text
