import Harvest.Gzip.Member

/-!
# What was compressed is read back

A compressed file is a header, blocks of bytes as they are, and a trailer. The reader of a block
stands at its end behind the bytes of the block (`readBlock_storedBlock`), whatever follows; so the
blocks are read one by one up to the trailer (`inflateFrom_storedBlocks`), which then tells of just
the bytes that were read (`expand_compress`).
-/

namespace Harvest.Gzip

theorem toNat_littleEndian_two (n : Nat) (h : n ≤ 65535) :
    ∃ low high : UInt8, littleEndian 2 n = [low, high] ∧ low.toNat + 256 * high.toNat = n := by
  refine ⟨n.toUInt8, (n / 256).toUInt8, rfl, ?_⟩
  simp only [Nat.toUInt8_eq, UInt8.toNat_ofNat']
  omega

theorem readStored_storedBlock (first : UInt8) (bytes rest : List UInt8) (out : Array UInt8)
    (h : bytes.length ≤ 65535) :
    readStored ⟨out, ⟨first :: (littleEndian 2 bytes.length ++
        littleEndian 2 (65535 - bytes.length) ++ bytes) ++ rest, 3⟩⟩ =
      .more ⟨out ++ bytes.toArray, ⟨rest, 0⟩⟩ := by
  obtain ⟨a, b, hlength, hab⟩ := toNat_littleEndian_two bytes.length h
  obtain ⟨c, d, hcomplement, hcd⟩ := toNat_littleEndian_two (65535 - bytes.length) (by omega)
  have hsum : bytes.length + (c.toNat + 256 * d.toNat) = 65535 := by omega
  rw [hlength, hcomplement]
  simp [readStored, Bits.aligned, hab, hsum]

/-- A block is read to its end, whatever follows it. -/
theorem readBlock_storedBlock (isLast : Bool) (bytes rest : List UInt8) (out : Array UInt8)
    (h : bytes.length ≤ 65535) :
    readBlock ⟨out, ⟨storedBlock isLast bytes ++ rest, 0⟩⟩ =
      (isLast, .more ⟨out ++ bytes.toArray, ⟨rest, 0⟩⟩) := by
  cases isLast with
  | false => exact congrArg (Prod.mk false) (readStored_storedBlock 0 bytes rest out h)
  | true => exact congrArg (Prod.mk true) (readStored_storedBlock 1 bytes rest out h)

theorem length_storedBlock (isLast : Bool) (bytes : List UInt8) :
    (storedBlock isLast bytes).length = bytes.length + 5 := by
  simp only [storedBlock, List.length_append, List.length_cons, length_littleEndian]
  omega

theorem storedBlocks_of_le {bytes : List UInt8} (h : bytes.length ≤ 65535) :
    storedBlocks bytes = storedBlock true bytes := by
  rw [storedBlocks, if_pos h]

theorem storedBlocks_of_lt {bytes : List UInt8} (h : 65535 < bytes.length) :
    storedBlocks bytes =
      storedBlock false (bytes.take 65535) ++ storedBlocks (bytes.drop 65535) := by
  rw [storedBlocks, if_neg (Nat.not_le.2 h)]

theorem length_le_length_storedBlocks (bytes : List UInt8) :
    bytes.length ≤ (storedBlocks bytes).length := by
  induction bytes using storedBlocks.induct with
  | case1 bytes h =>
    rw [storedBlocks_of_le h, length_storedBlock]
    omega
  | case2 bytes h ih =>
    rw [storedBlocks_of_lt (Nat.not_le.1 h), List.length_append, length_storedBlock,
      List.length_take]
    rw [List.length_drop] at ih
    omega

/-- The blocks are read to the end of the last one. Each block that is not the last one brings
some bytes, so there is fuel as long as it is more than the bytes. -/
theorem inflateFrom_storedBlocks (bytes rest : List UInt8) (fuel : Nat) (out : Array UInt8)
    (hfuel : bytes.length < fuel) :
    inflateFrom fuel ⟨out, ⟨storedBlocks bytes ++ rest, 0⟩⟩ =
      ⟨out.toList ++ bytes, .ok rest⟩ := by
  induction bytes using storedBlocks.induct generalizing fuel out with
  | case1 bytes h =>
    obtain ⟨fuel, rfl⟩ := Nat.exists_eq_succ_of_ne_zero (Nat.ne_of_gt (Nat.zero_lt_of_lt hfuel))
    rw [storedBlocks_of_le h, inflateFrom, readBlock_storedBlock true bytes rest out h]
    simp [Bits.aligned]
  | case2 bytes h ih =>
    obtain ⟨fuel, rfl⟩ := Nat.exists_eq_succ_of_ne_zero (Nat.ne_of_gt (Nat.zero_lt_of_lt hfuel))
    have htake : (bytes.take 65535).length ≤ 65535 := List.length_take_le _ _
    have hdrop : (bytes.drop 65535).length < fuel := by
      rw [List.length_drop]
      omega
    rw [storedBlocks_of_lt (Nat.not_le.1 h), List.append_assoc, inflateFrom,
      readBlock_storedBlock false _ _ out htake]
    simp only [ih fuel _ hdrop, Array.toList_append, List.append_assoc, List.take_append_drop]

theorem inflate_storedBlocks (bytes rest : List UInt8) :
    inflate (storedBlocks bytes ++ rest) = ⟨bytes, .ok rest⟩ := by
  have hlength := length_le_length_storedBlocks bytes
  rw [inflate, inflateFrom_storedBlocks bytes rest _ #[]
    (by rw [List.length_append]; omega)]
  rfl

/-- The header that is written tells of nothing more to pass. -/
theorem passHeader_header (data : List UInt8) : passHeader (header ++ data) = .ok data := by
  have hpass : passBytes 10 (header ++ data) = .ok data := by simp [passBytes, header]
  have hflags : ((header ++ data).getD 3 0).toNat = 0 := rfl
  have hmagic : (header ++ data).take 3 = [0x1F, 0x8B, 0x08] := rfl
  rw [passHeader, hpass]
  simp only [hflags, hmagic]
  rfl

/-- The trailer tells of the bytes. -/
theorem checkTrailer_trailer (bytes : List UInt8) :
    checkTrailer bytes (littleEndian 4 (checksum bytes).toNat ++
      littleEndian 4 (bytes.length % 4294967296)) = .ok () := by
  have hchecksum := ofLittleEndian_littleEndian 4 (checksum bytes).toNat
    (checksum bytes).toNat_lt
  have hlength := ofLittleEndian_littleEndian 4 (bytes.length % 4294967296)
    (Nat.mod_lt _ (by decide))
  have htake : (littleEndian 4 (bytes.length % 4294967296)).take 4 =
      littleEndian 4 (bytes.length % 4294967296) :=
    List.take_of_length_le (Nat.le_of_eq (length_littleEndian 4 _))
  simp [checkTrailer, htake, hchecksum, hlength]

/-- What was compressed is read back, and ends without fault. -/
theorem expand_compress (bytes : List UInt8) : expand ⟨compress bytes, none⟩ = ⟨bytes, none⟩ := by
  simp only [expand, compress, List.append_assoc, passHeader_header, inflate_storedBlocks,
    checkTrailer_trailer]

end Harvest.Gzip
