import Harvest.Text.Utf8

/-!
# Reading back what was encoded

Every text is read back from its bytes (`decode_encode`), character by character. What a
reader of tables needs beside that is the shape of the bytes: a character of the ASCII
range is one byte and every other one consists of bytes above that range, so a byte that a
reader acts on is a character of its own.
-/

namespace Harvest.Utf8

theorem toNat_ofNat_of_lt (n : Nat) (h : n < 256) : (UInt8.ofNat n).toNat = n := by
  rw [UInt8.toNat_ofNat']
  omega

theorem charFrom?_toNat (low : Nat) (c : Char) (h : low ≤ c.toNat) :
    charFrom? low c.toNat = some c := by
  have hvalid : c.toNat.isValidChar := c.valid
  simp [charFrom?, hvalid, h, Char.ofNat_toNat]

theorem continuation?_ofNat (n : Nat) (h : n < 64) :
    continuation? (UInt8.ofNat (n + 0x80)) = some n := by
  have hbyte : (UInt8.ofNat (n + 0x80)).toNat = n + 0x80 := toNat_ofNat_of_lt _ (by omega)
  unfold continuation?
  rw [hbyte, if_pos (by omega), Nat.add_sub_cancel]

theorem toNat_lt (c : Char) : c.toNat < 0x110000 := by
  have hvalue : c.toNat = c.val.toNat := rfl
  rcases c.valid with h | h <;> omega

/-- The bytes of a character, in the four lengths they can have. -/
theorem encodeChar_eq (c : Char) :
    String.utf8EncodeChar c =
      if c.toNat ≤ 0x7F then [UInt8.ofNat c.toNat]
      else if c.toNat ≤ 0x7FF then
        [UInt8.ofNat (c.toNat / 64 % 32 + 0xC0), UInt8.ofNat (c.toNat % 64 + 0x80)]
      else if c.toNat ≤ 0xFFFF then
        [UInt8.ofNat (c.toNat / 4096 % 16 + 0xE0), UInt8.ofNat (c.toNat / 64 % 64 + 0x80),
          UInt8.ofNat (c.toNat % 64 + 0x80)]
      else
        [UInt8.ofNat (c.toNat / 262144 % 8 + 0xF0), UInt8.ofNat (c.toNat / 4096 % 64 + 0x80),
          UInt8.ofNat (c.toNat / 64 % 64 + 0x80), UInt8.ofNat (c.toNat % 64 + 0x80)] := rfl

/-- A character is read back from its bytes, whatever follows them. -/
theorem decodeChar?_encodeChar (c : Char) (rest : List UInt8) :
    decodeChar? (String.utf8EncodeChar c ++ rest) = some (c, rest) := by
  have hbound := toNat_lt c
  rw [encodeChar_eq]
  split
  · have hlead := toNat_ofNat_of_lt c.toNat (by omega)
    simp only [List.cons_append, List.nil_append, decodeChar?, hlead]
    rw [if_pos (by omega), charFrom?_toNat 0 c (by omega)]
    rfl
  · split
    · have hlead := toNat_ofNat_of_lt (c.toNat / 64 % 32 + 0xC0) (by omega)
      have hvalue : (c.toNat / 64 % 32 + 0xC0 - 0xC0) * 64 + c.toNat % 64 = c.toNat := by omega
      simp only [List.cons_append, List.nil_append, decodeChar?, hlead]
      rw [if_neg (by omega), if_pos (by omega), continuation?_ofNat _ (by omega)]
      simp only [Option.bind_eq_bind, Option.bind_some, hvalue]
      rw [charFrom?_toNat 0x80 c (by omega)]
      rfl
    · split
      · have hlead := toNat_ofNat_of_lt (c.toNat / 4096 % 16 + 0xE0) (by omega)
        have hvalue : ((c.toNat / 4096 % 16 + 0xE0 - 0xE0) * 64 + c.toNat / 64 % 64) * 64 +
            c.toNat % 64 = c.toNat := by omega
        simp only [List.cons_append, List.nil_append, decodeChar?, hlead]
        rw [if_neg (by omega), if_neg (by omega), if_pos (by omega),
          continuation?_ofNat _ (by omega), continuation?_ofNat _ (by omega)]
        simp only [Option.bind_eq_bind, Option.bind_some, hvalue]
        rw [charFrom?_toNat 0x800 c (by omega)]
        rfl
      · have hlead := toNat_ofNat_of_lt (c.toNat / 262144 % 8 + 0xF0) (by omega)
        have hvalue : (((c.toNat / 262144 % 8 + 0xF0 - 0xF0) * 64 + c.toNat / 4096 % 64) * 64 +
            c.toNat / 64 % 64) * 64 + c.toNat % 64 = c.toNat := by omega
        simp only [List.cons_append, List.nil_append, decodeChar?, hlead]
        rw [if_neg (by omega), if_neg (by omega), if_neg (by omega), if_pos (by omega),
          continuation?_ofNat _ (by omega), continuation?_ofNat _ (by omega),
          continuation?_ofNat _ (by omega)]
        simp only [Option.bind_eq_bind, Option.bind_some, hvalue]
        rw [charFrom?_toNat 0x10000 c (by omega)]
        rfl

theorem decodeFrom_encode (pos : Nat) (acc s : List Char) :
    decodeFrom pos acc (encode s) = .ok (acc.reverse ++ s) := by
  induction s generalizing pos acc with
  | nil =>
    rw [decodeFrom]
    simp [decodeChar?]
  | cons c s ih =>
    rw [decodeFrom, encode_cons]
    split
    · rename_i d rest h
      rw [decodeChar?_encodeChar] at h
      obtain ⟨rfl, rfl⟩ := Prod.mk.inj (Option.some.inj h)
      rw [ih]
      simp
    · rename_i h
      rw [decodeChar?_encodeChar] at h
      simp at h

/-- Every text is read back from its bytes. -/
theorem decode_encode (s : List Char) : decode (encode s) = .ok s := by
  rw [decode, decodeFrom_encode, List.reverse_nil, List.nil_append]

/-- Every string is read back from its bytes. -/
theorem decodeString_encode (s : List Char) :
    decodeString (encode s) = .ok (String.ofList s) := by
  rw [decodeString, decode_encode]
  rfl

/-- A character of the ASCII range is one byte. -/
theorem encodeChar_of_ascii (c : Char) (h : c.toNat ≤ 0x7F) :
    String.utf8EncodeChar c = [UInt8.ofNat c.toNat] := by
  rw [encodeChar_eq, if_pos h]

/-- Every other character consists of bytes above the ASCII range. -/
theorem le_of_mem_encodeChar (c : Char) (h : 0x7F < c.toNat) (b : UInt8)
    (hb : b ∈ String.utf8EncodeChar c) : 0x80 ≤ b.toNat := by
  rw [encodeChar_eq, if_neg (by omega)] at hb
  split at hb
  · simp only [List.mem_cons, List.not_mem_nil, or_false] at hb
    rcases hb with rfl | rfl <;> rw [toNat_ofNat_of_lt] <;> omega
  · split at hb
    · simp only [List.mem_cons, List.not_mem_nil, or_false] at hb
      rcases hb with rfl | rfl | rfl <;> rw [toNat_ofNat_of_lt] <;> omega
    · simp only [List.mem_cons, List.not_mem_nil, or_false] at hb
      rcases hb with rfl | rfl | rfl | rfl <;> rw [toNat_ofNat_of_lt] <;> omega

end Harvest.Utf8
