import Harvest.Gzip.Checksum
import Harvest.Gzip.Inflate
import Harvest.Stream.Feed

/-!
# Compressed pages

A compressed file is read as far as its first member goes: a header, deflated data, and
a trailer with the checksum and the length of the bytes. A fault of the data ends the
page where it is met, and a wrong trailer ends it behind all bytes. Files are written
with blocks of bytes as they are.
-/

namespace Harvest.Gzip

/-- Why a member cannot be read. -/
inductive MemberFault
  | header
  | checksum
  | tooLong
  | corrupt
  | incomplete
  | ended
  deriving DecidableEq, Repr

/-- The text of a fault. -/
def MemberFault.message : MemberFault → String
  | .header => "invalid gzip header"
  | .checksum => "corrupt gzip stream does not have a matching checksum"
  | .tooLong => "gzip header field too long"
  | .corrupt => "corrupt deflate stream"
  | .incomplete => "incomplete deflate stream"
  | .ended => "unexpected end of file"

/-- The fault tells that there were too few bytes. -/
def MemberFault.isShortage : MemberFault → Bool
  | .incomplete | .ended => true
  | _ => false

/-- Passes `n` bytes. -/
def passBytes (n : Nat) (s : List UInt8) : Except MemberFault (List UInt8) :=
  if s.length < n then .error .ended else .ok (s.drop n)

/-- Passes a text and the zero behind it. -/
def passText (s : List UInt8) : Except MemberFault (List UInt8) :=
  let text := s.takeWhile (· != 0)
  if 65535 < text.length then .error .tooLong else passBytes (text.length + 1) s

/-- Passes what is there where a flag is set. -/
def passIf (flags bit : Nat) (pass : List UInt8 → Except MemberFault (List UInt8))
    (s : List UInt8) : Except MemberFault (List UInt8) :=
  if flags / bit % 2 = 1 then pass s else .ok s

/-- Passes a field behind its length. -/
def passExtra (s : List UInt8) : Except MemberFault (List UInt8) := do
  let rest ← passBytes 2 s
  passBytes (ofLittleEndian (s.take 2)) rest

/-- Passes the checksum of the header, which starts at `whole`. -/
def passHeaderChecksum (whole s : List UInt8) : Except MemberFault (List UInt8) := do
  let rest ← passBytes 2 s
  let header := whole.take (whole.length - s.length)
  if ofLittleEndian (s.take 2) = (checksum header).toNat % 65536 then .ok rest
  else .error .checksum

/-- Passes the header of a member. -/
def passHeader (s : List UInt8) : Except MemberFault (List UInt8) := do
  let rest ← passBytes 10 s
  let flags := (s.getD 3 0).toNat
  if s.take 3 != [0x1F, 0x8B, 0x08] || 32 ≤ flags then .error .header
  else
    let rest ← passIf flags 4 passExtra rest
    let rest ← passIf flags 8 passText rest
    let rest ← passIf flags 16 passText rest
    passIf flags 2 (passHeaderChecksum s) rest

/-- Checks the trailer for the bytes of a member. -/
def checkTrailer (bytes trailer : List UInt8) : Except MemberFault Unit :=
  if trailer.length < 8 then .error .ended
  else if ofLittleEndian (trailer.take 4) = (checksum bytes).toNat ∧
      ofLittleEndian ((trailer.drop 4).take 4) = bytes.length % 4294967296 then .ok ()
  else .error .checksum

/-- The fault of a page for a fault of its member: a shortage is due to what broke the page
beneath, if something did. -/
def pageFault (beneath : Option String) (f : MemberFault) : String :=
  match beneath with
  | some text => if f.isShortage then text else f.message
  | none => f.message

/-- The page that a compressed one stands for. -/
def expand (p : Page) : Page :=
  match passHeader p.bytes with
  | .error f => ⟨[], some (pageFault p.broken f)⟩
  | .ok data =>
    let result := inflate data
    match result.ending with
    | .error .incomplete => ⟨result.bytes, some (pageFault p.broken .incomplete)⟩
    | .error .corrupt => ⟨result.bytes, some MemberFault.corrupt.message⟩
    | .ok trailer =>
      match checkTrailer result.bytes trailer with
      | .ok () => ⟨result.bytes, none⟩
      | .error f => ⟨result.bytes, some (pageFault p.broken f)⟩

/-- The header that is written. -/
def header : List UInt8 := [0x1F, 0x8B, 0x08, 0, 0, 0, 0, 0, 0, 0xFF]

/-- A block of at most 65535 bytes as they are. -/
def storedBlock (isLast : Bool) (bytes : List UInt8) : List UInt8 :=
  (if isLast then 1 else 0) :: littleEndian 2 bytes.length ++
    littleEndian 2 (65535 - bytes.length) ++ bytes

/-- Bytes as blocks, the last one of which may be empty. -/
def storedBlocks (bytes : List UInt8) : List UInt8 :=
  if bytes.length ≤ 65535 then storedBlock true bytes
  else storedBlock false (bytes.take 65535) ++ storedBlocks (bytes.drop 65535)
termination_by bytes.length
decreasing_by simp_all; omega

/-- A compressed form of bytes: the blocks are stored as they are. Other compressors choose other
bytes; what counts is that they are expanded to the same ones. -/
def compress (bytes : List UInt8) : List UInt8 :=
  header ++ storedBlocks bytes ++ littleEndian 4 (checksum bytes).toNat ++
    littleEndian 4 (bytes.length % 4294967296)

end Harvest.Gzip
