import Harvest.Proofs.Text.Encoding
import Harvest.Proofs.Text.Words

/-!
# Where characters begin

A byte of the ASCII range is a character of its own, so a text of such characters that is found
among the bytes of another text begins and ends where characters do (`Utf8.exists_of_encode_eq`). A
letter takes as many bytes in lower case, so this holds as well of a keyword whose letters may be in
any case (`Text.exists_of_encode_lower_eq`): a byte offset that is computed in the lower-case text
may be used in the text itself.
-/

namespace Harvest

namespace Utf8

/-- A byte of the ASCII range among the bytes of a text is one of its characters. -/
theorem exists_of_encode_eq_cons {s : List Char} {before after : List UInt8} {b : UInt8}
    (hb : b.toNat ≤ 0x7F) (h : encode s = before ++ b :: after) :
    ∃ front c back, s = front ++ c :: back ∧ encode front = before ∧
      String.utf8EncodeChar c = [b] ∧ encode back = after := by
  induction s generalizing before with
  | nil => exact absurd h (by simp)
  | cons c s ih =>
    rw [encode_cons] at h
    by_cases hascii : c.toNat ≤ 0x7F
    · rw [encodeChar_of_ascii c hascii] at h
      cases before with
      | nil =>
        obtain ⟨rfl, hrest⟩ := List.cons.inj h
        exact ⟨[], c, s, rfl, rfl, encodeChar_of_ascii c hascii, hrest⟩
      | cons first before =>
        obtain ⟨rfl, hrest⟩ := List.cons.inj h
        obtain ⟨front, d, back, rfl, rfl, hd, hback⟩ := ih hrest
        exact ⟨c :: front, d, back, rfl, by rw [encode_cons, encodeChar_of_ascii c hascii]; rfl,
          hd, hback⟩
    · -- the byte is not one of those of another character
      have hlarge (x : UInt8) (hx : x ∈ String.utf8EncodeChar c) : x ≠ b := by
        rintro rfl
        exact absurd (le_of_mem_encodeChar c (by omega) x hx) (by omega)
      rcases List.append_eq_append_iff.1 h with ⟨middle, rfl, hrest⟩ | ⟨middle, hchar, hrest⟩
      · obtain ⟨front, d, back, rfl, rfl, hd, hback⟩ := ih hrest
        exact ⟨c :: front, d, back, rfl, encode_cons _ _, hd, hback⟩
      · cases middle with
        | nil =>
          rw [List.append_nil] at hchar
          have hhere : encode s = [] ++ b :: after := hrest.symm
          obtain ⟨front, d, back, rfl, hfront, hd, hback⟩ := ih hhere
          exact ⟨c :: front, d, back, rfl, by rw [encode_cons, hfront, hchar]; simp, hd, hback⟩
        | cons x middle =>
          obtain ⟨rfl, -⟩ := List.cons.inj hrest
          exact absurd rfl (hlarge b (hchar ▸ by simp))

theorem encode_injective {s t : List Char} (h : encode s = encode t) : s = t :=
  Except.ok.inj ((decode_encode s).symm.trans ((congrArg decode h).trans (decode_encode t)))

/-- A text of ASCII characters that is found among the bytes of another one is found there in it. -/
theorem exists_of_encode_eq {s word : List Char} {before after : List UInt8}
    (hword : ∀ c ∈ word, c.toNat ≤ 0x7F) (hne : word ≠ [])
    (h : encode s = before ++ encode word ++ after) :
    ∃ front back, s = front ++ word ++ back ∧ encode front = before ∧ encode back = after := by
  induction word generalizing s before with
  | nil => exact absurd rfl hne
  | cons c word ih =>
    obtain ⟨hc, hothers⟩ := List.forall_mem_cons.1 hword
    have hbyte := encodeChar_of_ascii c hc
    rw [encode_cons, hbyte, List.append_assoc] at h
    obtain ⟨front, d, back, rfl, rfl, hd, hback⟩ :=
      exists_of_encode_eq_cons (by rw [toNat_ofNat_of_lt _ (by omega)]; exact hc) h
    obtain rfl : d = c := by
      have hsame : encode [d] = encode [c] := by
        rw [encode_cons, encode_cons, hd, hbyte]
      exact List.cons.inj (encode_injective hsame) |>.1
    cases word with
    | nil => exact ⟨front, back, by simp, rfl, hback⟩
    | cons e word =>
      have hhere : encode back = [] ++ encode (e :: word) ++ after := hback
      obtain ⟨middle, rest, rfl, hmiddle, hrest⟩ := ih hothers (List.cons_ne_nil e word) hhere
      obtain rfl : middle = [] := encode_injective hmiddle
      exact ⟨front, rest, by simp, rfl, hrest⟩

end Utf8

namespace Text

open Utf8

/-- A letter takes as many bytes in lower case. -/
theorem length_encode_map_toLower (s : List Char) :
    (encode (s.map Char.toLower)).length = (encode s).length := by
  induction s with
  | nil => rfl
  | cons c s ih =>
    have hchar : (String.utf8EncodeChar c.toLower).length = (String.utf8EncodeChar c).length := by
      by_cases hupper : 65 ≤ c.toNat ∧ c.toNat ≤ 90
      · have hlower := toNat_toLower_of_upper c hupper
        rw [encodeChar_of_ascii c (by omega), encodeChar_of_ascii c.toLower (by omega)]
        rfl
      · rw [toLower_of_not_upper c hupper]
    rw [List.map_cons, encode_cons, encode_cons, List.length_append, List.length_append, ih, hchar]

/-- Where the bytes of a keyword are found in the lower-case text, the keyword is found in the text
itself, behind as many bytes. -/
theorem exists_of_encode_lower_eq {word : List Char} (hword : ∀ c ∈ word, c.toNat ≤ 0x7F)
    (hne : word ≠ []) {text : String} {before after : List UInt8}
    (h : encodeString (lower text) = before ++ encode word ++ after) :
    ∃ front keyword back : String, front ++ keyword ++ back = text ∧
      keyword.toList.map Char.toLower = word ∧
      (encodeString front).length = before.length ∧
      (encodeString keyword).length = (encode word).length := by
  rw [encodeString, lower, String.toList_ofList] at h
  obtain ⟨front, back, hsplit, rfl, -⟩ := exists_of_encode_eq hword hne h
  obtain ⟨rest, last, htext, hrest, -⟩ := List.map_eq_append_iff.1 hsplit
  obtain ⟨first, keyword, rfl, rfl, rfl⟩ := List.map_eq_append_iff.1 hrest
  refine ⟨.ofList first, .ofList keyword, .ofList last, ?_, ?_, ?_, ?_⟩
  · rw [← String.toList_inj]
    simp [htext]
  · rw [String.toList_ofList]
  · rw [encodeString, String.toList_ofList, length_encode_map_toLower]
  · rw [encodeString, String.toList_ofList, length_encode_map_toLower]

end Text

end Harvest
