import Harvest.Json.Printer
import Harvest.Json.Reader

/-!
# Reading back what was written

A value that is made of texts, lists and maps is read back from the lines to which it was written,
whatever follows them (`Written`). The fuel that a reading takes is bounded by the length of what
was written.
-/

namespace Harvest.Json

open Harvest.Document Harvest.Text

section Texts

variable (fuel : Nat) (acc : List Char) (s : List Char)

theorem hex4?_append {digits : List Char} {n : Nat} (h : hex4? digits = some (n, [])) :
    hex4? (digits ++ s) = some (n, s) := by
  match digits, h with
  | a :: b :: c :: d :: rest, h =>
    simp only [hex4?, List.cons_append, Option.bind_eq_bind, Option.bind_eq_some_iff,
      Option.pure_def, Option.some.injEq, Prod.mk.injEq] at h ⊢
    obtain ⟨a', ha, b', hb, c', hc, d', hd, hn, rfl⟩ := h
    exact ⟨a', ha, b', hb, c', hc, d', hd, hn, rfl⟩

theorem hex4?_digit : ∀ n < 0x10, hex4? ('0' :: '0' :: '0' :: hexDigits n) = some (n, []) := by
  decide

theorem hex4?_digits :
    ∀ n < 0x20, ¬ n < 0x10 → hex4? ('0' :: '0' :: hexDigits n) = some (n, []) := by
  decide

/-- A character has a short escape or, as a control, one by its code, or it is not escaped. -/
theorem escaped_cases (c : Char) :
    (∃ d, escaped c = ['\\', d] ∧ d ≠ 'u' ∧ shortEscape? d = some c) ∨
      (∃ digits, escaped c = '\\' :: 'u' :: digits ∧ hex4? digits = some (c.toNat, []) ∧
        c.toNat < 0x20) ∨
      escaped c = [c] ∧ c ≠ '"' ∧ c ≠ '\\' ∧ ¬ c.toNat < 0x20 := by
  unfold escaped
  -- the characters with a short escape
  iterate 7
    split
    · subst_vars
      exact .inl ⟨_, rfl, by decide, rfl⟩
  split
  · rename_i hlow
    exact .inr (.inl ⟨_, rfl, hex4?_digit c.toNat hlow, by omega⟩)
  split
  · rename_i hhigh hlow
    exact .inr (.inl ⟨_, rfl, hex4?_digits c.toNat hlow hhigh, hlow⟩)
  · rename_i hquote hback _ _ _ _ _ _ hlow
    exact .inr (.inr ⟨rfl, hquote, hback, hlow⟩)

theorem readText_escaped (c : Char) :
    readText (fuel + 1) (some acc) (escaped c ++ s) = readText fuel (some (c :: acc)) s := by
  rcases escaped_cases c with
    ⟨d, h, hd, hshort⟩ | ⟨digits, h, hdigits, hlow⟩ | ⟨h, hquote, hback, hlow⟩
  · rw [h, List.cons_append, List.cons_append, readText.eq_def]
    simp [hshort]
  · -- a control is no half of a pair
    have hhigh : isHighHalf c.toNat = false := by
      simp only [isHighHalf, Bool.and_eq_false_iff, decide_eq_false_iff_not]
      omega
    have hlow : isLowHalf c.toNat = false := by
      simp only [isLowHalf, Bool.and_eq_false_iff, decide_eq_false_iff_not]
      omega
    rw [h, List.cons_append, List.cons_append, readText, hex4?_append s hdigits]
    simp [hhigh, hlow, Char.ofNat_toNat]
  · rw [h, List.cons_append, readText.eq_def]
    simp [hback, hlow]

theorem length_escaped_pos (c : Char) : 0 < (escaped c).length := by
  rcases escaped_cases c with ⟨d, h, -⟩ | ⟨digits, h, -⟩ | ⟨h, -⟩ <;> simp [h]

theorem readText_flatMap (cs : List Char) (hfuel : (cs.flatMap escaped).length < fuel) :
    readText fuel (some acc) (cs.flatMap escaped ++ '"' :: s) =
      some (.text (String.ofList (acc.reverse ++ cs)), s) := by
  induction cs generalizing fuel acc with
  | nil =>
    obtain ⟨fuel, rfl⟩ := Nat.exists_eq_succ_of_ne_zero (Nat.ne_of_gt hfuel)
    simp [readText]
  | cons c cs ih =>
    rw [List.flatMap_cons, List.length_append] at hfuel
    have hpos := length_escaped_pos c
    obtain ⟨fuel, rfl⟩ := Nat.exists_eq_succ_of_ne_zero (Nat.ne_of_gt (Nat.zero_lt_of_lt hfuel))
    rw [List.flatMap_cons, List.append_assoc, readText_escaped, ih fuel (c :: acc) (by omega)]
    simp

end Texts

theorem readLeaf_quotedText (text : String) (s : List Char) :
    readLeaf (quotedText text ++ s) = some (.text text, s) := by
  have h := readText_flatMap ((text.toList.flatMap escaped ++ '"' :: s).length + 1) [] s
    text.toList (by rw [List.length_append]; omega)
  simpa [quotedText, readLeaf] using h

theorem readName_nameText (name : String) (s : List Char) :
    readName (nameText (some name) ++ ':' :: s) = some (some name, some s) := by
  have h := readText_flatMap ((name.toList.flatMap escaped ++ '"' :: ':' :: s).length + 1) []
    (':' :: s) name.toList (by rw [List.length_append]; omega)
  rw [List.reverse_nil, List.nil_append, String.ofList_toList] at h
  simp only [nameText, quotedText, Option.getD_some, List.cons_append, List.append_assoc,
    List.nil_append, readName]
  rw [h]
  rfl

section Blanks

variable (s : List Char)

theorem skipBlanks_of_not_blank {c : Char} (h : c ∉ [' ', '\n', '\t', '\r']) :
    skipBlanks (c :: s) = c :: s := by
  simp only [List.mem_cons, List.not_mem_nil, or_false] at h
  simp [skipBlanks, h]

theorem skipBlanks_blank : skipBlanks (' ' :: s) = skipBlanks s := by
  simp [skipBlanks]

theorem skipBlanks_newLine (level : Nat) : skipBlanks (newLine level ++ s) = skipBlanks s := by
  have hblanks (n : Nat) : skipBlanks (List.replicate n ' ' ++ s) = skipBlanks s := by
    induction n with
    | zero => rfl
    | succ n ih => rw [List.replicate_succ, List.cons_append, skipBlanks_blank, ih]
  rw [← hblanks (2 * level)]
  simp [newLine, skipBlanks]

/-- Blanks in front of a value do not count. -/
theorem readValue_congr {s t : List Char} (fuel : Nat) (h : skipBlanks s = skipBlanks t) :
    readValue fuel s = readValue fuel t := by
  cases fuel with
  | zero => simp [readValue]
  | succ fuel => simp only [readValue, h]

end Blanks

/-- Whatever follows it, the value is read back from its lines, and these start with a character
by which they are told from the end of a list or map. -/
structure Written (v : Value) : Prop where
  opens : ∀ level, ∃ c s, prettyText level v = c :: s ∧
    c ∉ [' ', '\n', '\t', '\r'] ∧ c ≠ ']'
  reads : ∀ level fuel rest, (prettyText level v).length ≤ fuel →
    readValue fuel (prettyText level v ++ rest) = ⟨v, rest, true⟩

section Lists

variable {v : Value}

theorem Written.skipBlanks (h : Written v) (level : Nat) (rest : List Char) :
    skipBlanks (prettyText level v ++ rest) = prettyText level v ++ rest := by
  obtain ⟨c, s, htext, hblank, -⟩ := h.opens level
  rw [htext, List.cons_append, skipBlanks_of_not_blank _ hblank]

theorem written_text (text : String) : Written (.text text) where
  opens level := ⟨'"', text.toList.flatMap escaped ++ ['"'],
    by simp [prettyText, Value.text, leafText, quotedText], by decide, by decide⟩
  reads level fuel rest hfuel := by
    simp only [Value.text, prettyText, leafText] at hfuel ⊢
    have hleaf := readLeaf_quotedText text rest
    simp only [quotedText, List.cons_append, List.length_cons] at hfuel hleaf ⊢
    obtain ⟨fuel, rfl⟩ := Nat.exists_eq_succ_of_ne_zero (Nat.ne_of_gt (Nat.zero_lt_of_lt hfuel))
    rw [readValue, skipBlanks_of_not_blank _ (by decide)]
    split
    · simp_all
    · simp_all
    · rw [hleaf]

/-- The items of a list are read one after the other. -/
theorem readItems_written (level low fuel : Nat) (acc : List Value) (vs : List Value)
    (rest : List Char) (hv : Written v) (hvs : ∀ w ∈ vs, Written w)
    (hfuel : (prettyText level v).length + (prettyItems level vs).length < fuel) :
    readItems fuel acc
        (prettyText level v ++ (prettyItems level vs ++ (newLine low ++ ']' :: rest))) =
      ⟨.list (acc.reverse ++ v :: vs) true, rest, true⟩ := by
  induction vs generalizing fuel acc v with
  | nil =>
    obtain ⟨fuel, rfl⟩ := Nat.exists_eq_succ_of_ne_zero (Nat.ne_of_gt (Nat.zero_lt_of_lt hfuel))
    rw [readItems, hv.reads level fuel _ (by omega), prettyItems, List.nil_append,
      skipBlanks_newLine, skipBlanks_of_not_blank _ (by decide)]
    simp
  | cons w ws ih =>
    obtain ⟨fuel, rfl⟩ := Nat.exists_eq_succ_of_ne_zero (Nat.ne_of_gt (Nat.zero_lt_of_lt hfuel))
    obtain ⟨hw, hws⟩ := List.forall_mem_cons.1 hvs
    obtain ⟨c, s, htext, hblank, hclose⟩ := hw.opens level
    rw [readItems, hv.reads level fuel _ (by omega), prettyItems]
    simp only [prettyItems, List.length_append, List.length_cons] at hfuel
    have hrest := ih fuel (v :: acc) hw hws (by omega)
    simp only [List.cons_append, List.append_assoc]
    rw [skipBlanks_of_not_blank _ (by decide)]
    simp only [skipBlanks_newLine, hw.skipBlanks]
    rw [htext] at hrest ⊢
    simp [hclose] at hrest ⊢
    exact hrest

theorem written_array (vs : List Value) (h : ∀ v ∈ vs, Written v) : Written (.array vs) where
  opens level := by
    cases vs with
    | nil => exact ⟨'[', [']'], by simp [Value.array, prettyText], by decide, by decide⟩
    | cons v vs => exact ⟨'[', _, by simp [Value.array, prettyText]; rfl, by decide, by decide⟩
  reads level fuel rest hfuel := by
    cases vs with
    | nil =>
      simp only [Value.array, prettyText, List.length_cons] at hfuel ⊢
      obtain ⟨fuel, rfl⟩ := Nat.exists_eq_succ_of_ne_zero (Nat.ne_of_gt (Nat.zero_lt_of_lt hfuel))
      rw [readValue]
      rfl
    | cons v vs =>
      obtain ⟨hv, hvs⟩ := List.forall_mem_cons.1 h
      obtain ⟨c, s, htext, hblank, hclose⟩ := hv.opens (level + 1)
      simp only [Value.array, prettyText, List.length_append, List.length_cons] at hfuel ⊢
      obtain ⟨fuel, rfl⟩ := Nat.exists_eq_succ_of_ne_zero (Nat.ne_of_gt (Nat.zero_lt_of_lt hfuel))
      have hitems := readItems_written (level + 1) level fuel [] vs rest hv hvs (by omega)
      simp only [List.cons_append, List.append_assoc, List.nil_append]
      rw [readValue, skipBlanks_of_not_blank _ (by decide)]
      simp only [skipBlanks_newLine, hv.skipBlanks]
      rw [htext] at hitems ⊢
      simp [hclose] at hitems ⊢
      exact hitems

end Lists

section Maps

/-- The members of a map, each with a name. -/
def named (ms : List (String × Value)) : List (Option String × Value) :=
  ms.map fun m => (some m.1, m.2)

@[simp] theorem named_nil : named [] = [] := rfl

@[simp] theorem named_cons (m : String × Value) (ms : List (String × Value)) :
    named (m :: ms) = (some m.1, m.2) :: named ms := rfl

variable {v : Value}

/-- The members of a map are read one after the other. -/
theorem readMembers_written (level low fuel : Nat) (acc : List (Option String × Value))
    (name : String) (ms : List (String × Value)) (rest : List Char) (hv : Written v)
    (hms : ∀ m ∈ ms, Written m.2)
    (hfuel : (prettyText level v).length + (prettyMembers level (named ms)).length < fuel) :
    readMembers fuel acc (nameText (some name) ++ ':' :: ' ' :: (prettyText level v ++
      (prettyMembers level (named ms) ++ (newLine low ++ '\x7d' :: rest)))) =
      ⟨.map (acc.reverse ++ (some name, v) :: named ms) true, rest, true⟩ := by
  induction ms generalizing fuel acc name v with
  | nil =>
    obtain ⟨fuel, rfl⟩ := Nat.exists_eq_succ_of_ne_zero (Nat.ne_of_gt (Nat.zero_lt_of_lt hfuel))
    rw [readMembers, readName_nameText]
    simp only [readValue_congr fuel (skipBlanks_blank _)]
    rw [hv.reads level fuel _ (by omega)]
    simp only [named_nil, prettyMembers, List.nil_append, skipBlanks_newLine]
    rw [skipBlanks_of_not_blank _ (by decide)]
    simp
  | cons m ms ih =>
    obtain ⟨fuel, rfl⟩ := Nat.exists_eq_succ_of_ne_zero (Nat.ne_of_gt (Nat.zero_lt_of_lt hfuel))
    obtain ⟨hm, hms⟩ := List.forall_mem_cons.1 hms
    rw [readMembers, readName_nameText]
    simp only [readValue_congr fuel (skipBlanks_blank _)]
    rw [hv.reads level fuel _ (by omega)]
    simp only [named_cons, prettyMembers, List.length_append, List.length_cons] at hfuel
    have hrest := ih fuel ((some name, v) :: acc) m.1 hm hms (by omega)
    simp only [named_cons, prettyMembers, List.cons_append, List.append_assoc]
    rw [skipBlanks_of_not_blank _ (by decide)]
    simp only [skipBlanks_newLine]
    simp only [nameText, quotedText, List.cons_append] at hrest ⊢
    rw [skipBlanks_of_not_blank _ (by decide)]
    simpa using hrest

theorem written_object (ms : List (String × Value)) (h : ∀ m ∈ ms, Written m.2) :
    Written (.object ms) where
  opens level := by
    cases ms with
    | nil => exact ⟨'\x7b', ['\x7d'], by simp [Value.object, prettyText], by decide, by decide⟩
    | cons m ms => exact ⟨'\x7b', _, by simp [Value.object, prettyText]; rfl, by decide, by decide⟩
  reads level fuel rest hfuel := by
    change (prettyText level (.map (named ms) true)).length ≤ fuel at hfuel
    change readValue fuel (prettyText level (.map (named ms) true) ++ rest) =
      ⟨.map (named ms) true, rest, true⟩
    cases ms with
    | nil =>
      simp only [named_nil, prettyText, List.length_cons] at hfuel ⊢
      obtain ⟨fuel, rfl⟩ := Nat.exists_eq_succ_of_ne_zero (Nat.ne_of_gt (Nat.zero_lt_of_lt hfuel))
      rw [readValue]
      rfl
    | cons m ms =>
      obtain ⟨hm, hms⟩ := List.forall_mem_cons.1 h
      simp only [named_cons, prettyText, List.length_append, List.length_cons] at hfuel ⊢
      obtain ⟨fuel, rfl⟩ := Nat.exists_eq_succ_of_ne_zero (Nat.ne_of_gt (Nat.zero_lt_of_lt hfuel))
      have hmembers := readMembers_written (level + 1) level fuel [] m.1 ms rest hm hms (by omega)
      simp only [List.cons_append, List.append_assoc, List.nil_append]
      rw [readValue, skipBlanks_of_not_blank _ (by decide)]
      simp only [skipBlanks_newLine]
      simp only [nameText, quotedText, List.cons_append] at hmembers ⊢
      rw [skipBlanks_of_not_blank _ (by decide)]
      simpa using hmembers

end Maps

/-- What is written and read as a document is decoded like the value itself. -/
theorem Written.decodeText {α : Type} {v : Value} (h : Written v) (decode : Decoder Leaf α) :
    decodeText decode (pretty v) = decode v := by
  have htext : (pretty v).toList = prettyText 0 v := String.toList_ofList
  have hread := h.reads 0 (2 * (prettyText 0 v).length + 2) [] (by omega)
  rw [List.append_nil] at hread
  simp only [Json.decodeText, htext, hread]
  cases decode v <;> rfl

end Harvest.Json
