/-!
# UTF-8

`decodeChar?` reads the one character that a sequence of bytes starts with, in its
shortest form. `decode` reads characters to the end of the sequence or answers how
many bytes it read before the first sequence that is no character. `encode` is its
inverse on the texts.
-/

namespace Harvest.Utf8

/-- The six bits that a continuation byte carries. -/
def continuation? (b : UInt8) : Option Nat :=
  if 0x80 ≤ b.toNat ∧ b.toNat ≤ 0xBF then some (b.toNat - 0x80) else none

/-- The character of a code point that needs more than `low` to be coded this long. -/
def charFrom? (low n : Nat) : Option Char :=
  if n.isValidChar ∧ low ≤ n then some (Char.ofNat n) else none

/-- The character at the start of the bytes, and the bytes after it. -/
def decodeChar? : List UInt8 → Option (Char × List UInt8)
  | [] => none
  | a :: s =>
    if a.toNat < 0x80 then (charFrom? 0 a.toNat).map (·, s)
    else if 0xC0 ≤ a.toNat ∧ a.toNat ≤ 0xDF then
      match s with
      | b :: s => do
        let y ← continuation? b
        (charFrom? 0x80 ((a.toNat - 0xC0) * 64 + y)).map (·, s)
      | _ => none
    else if 0xE0 ≤ a.toNat ∧ a.toNat ≤ 0xEF then
      match s with
      | b :: c :: s => do
        let y ← continuation? b
        let z ← continuation? c
        (charFrom? 0x800 (((a.toNat - 0xE0) * 64 + y) * 64 + z)).map (·, s)
      | _ => none
    else if 0xF0 ≤ a.toNat ∧ a.toNat ≤ 0xF7 then
      match s with
      | b :: c :: d :: s => do
        let y ← continuation? b
        let z ← continuation? c
        let w ← continuation? d
        (charFrom? 0x10000 ((((a.toNat - 0xF0) * 64 + y) * 64 + z) * 64 + w)).map (·, s)
      | _ => none
    else none

/-- A character takes at least one byte. -/
theorem length_lt_of_decodeChar? (s : List UInt8) (c : Char) (rest : List UInt8)
    (h : decodeChar? s = some (c, rest)) : rest.length < s.length := by
  unfold decodeChar? at h
  split at h
  · simp at h
  · split at h
    · obtain ⟨_, _, heq⟩ := Option.map_eq_some_iff.1 h
      simp at heq
      simp [heq.2]
    · split at h
      · split at h
        · simp [Option.bind_eq_some_iff] at h
          obtain ⟨_, _, _, _, _, rfl⟩ := h
          simp only [List.length_cons]
          omega
        · simp at h
      · split at h
        · split at h
          · simp [Option.bind_eq_some_iff] at h
            obtain ⟨_, _, _, _, _, _, _, rfl⟩ := h
            simp only [List.length_cons]
            omega
          · simp at h
        · split at h
          · split at h
            · simp [Option.bind_eq_some_iff] at h
              obtain ⟨_, _, _, _, _, _, _, _, _, rfl⟩ := h
              simp only [List.length_cons]
              omega
            · simp at h
          · simp at h

/-- Reads characters after `pos` bytes, the characters read before being `acc` in reverse. -/
def decodeFrom (pos : Nat) (acc : List Char) (s : List UInt8) : Except Nat (List Char) :=
  match h : decodeChar? s with
  | some (c, rest) =>
    have : rest.length < s.length := length_lt_of_decodeChar? s c rest h
    decodeFrom (pos + c.utf8Size) (c :: acc) rest
  | none => if s.isEmpty then .ok acc.reverse else .error pos
termination_by s.length

/-- The text that the bytes code, or the number of bytes before the first fault. -/
def decode (s : List UInt8) : Except Nat (List Char) := decodeFrom 0 [] s

/-- The string that the bytes code. -/
def decodeString (s : List UInt8) : Except Nat String := (decode s).map String.ofList

/-- The bytes of a text. -/
def encode (s : List Char) : List UInt8 := s.flatMap String.utf8EncodeChar

/-- The bytes of a string. -/
def encodeString (s : String) : List UInt8 := encode s.toList

@[simp] theorem decode_nil : decode [] = .ok [] := by
  rw [decode, decodeFrom]
  simp [decodeChar?]

@[simp] theorem encode_nil : encode [] = [] := rfl

theorem encode_cons (c : Char) (s : List Char) :
    encode (c :: s) = String.utf8EncodeChar c ++ encode s := rfl

theorem encode_append (s t : List Char) : encode (s ++ t) = encode s ++ encode t := by
  simp [encode]

end Harvest.Utf8
