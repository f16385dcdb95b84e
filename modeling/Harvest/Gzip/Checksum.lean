/-!
# Checksums

The cyclic redundancy check of 32 bits that closes a gzip member: the remainder of the
bytes, read from the lowest bit on, by the polynomial with the reversed form EDB88320.
-/

namespace Harvest.Gzip

/-- One step of the division, for one bit. -/
def checkBit (c : UInt32) : UInt32 :=
  if c &&& 1 == 1 then (c >>> 1) ^^^ 0xEDB88320 else c >>> 1

/-- The remainder after one more byte. -/
def checkByte (c : UInt32) (b : UInt8) : UInt32 :=
  let c := c ^^^ b.toUInt32
  checkBit (checkBit (checkBit (checkBit (checkBit (checkBit (checkBit (checkBit c)))))))

/-- The checksum of bytes. -/
def checksum (s : List UInt8) : UInt32 := s.foldl checkByte 0xFFFFFFFF ^^^ 0xFFFFFFFF

/-- The `n` lowest bytes of a number, the lowest first. -/
def littleEndian : (n : Nat) → Nat → List UInt8
  | 0, _ => []
  | n + 1, x => x.toUInt8 :: littleEndian n (x / 256)

/-- The number with these bytes, the lowest first. -/
def ofLittleEndian : List UInt8 → Nat
  | [] => 0
  | b :: s => b.toNat + 256 * ofLittleEndian s

/-- A number that fits is read back from its bytes. -/
theorem ofLittleEndian_littleEndian (n x : Nat) (h : x < 1 <<< (8 * n)) :
    ofLittleEndian (littleEndian n x) = x := by
  induction n generalizing x with
  | zero =>
    have hx : x = 0 := by simpa using h
    simp [littleEndian, ofLittleEndian, hx]
  | succ n ih =>
    have hx : x / 256 < 1 <<< (8 * n) := by
      have hs : 1 <<< (8 * (n + 1)) = 1 <<< (8 * n) * 256 := by
        rw [Nat.mul_add, Nat.shiftLeft_add, Nat.shiftLeft_eq _ (8 * 1)]
      omega
    have hb : x.toUInt8.toNat = x % 256 := by simp
    simp only [littleEndian, ofLittleEndian, ih _ hx, hb]
    omega

@[simp] theorem length_littleEndian (n x : Nat) : (littleEndian n x).length = n := by
  induction n generalizing x with
  | zero => rfl
  | succ n ih => simp [littleEndian, ih]

end Harvest.Gzip
