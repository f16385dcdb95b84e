/-!
# Numbers in text

Decimal integers are read from the left, one digit at a time, within the bounds
of the number's type: the first character that is no digit and the first digit
that leaves the bounds are faults, whichever comes first.
-/

namespace Harvest.Text

/-- Why a text is not a number of the wanted range. -/
inductive IntegerFault
  | empty
  | invalidDigit
  | tooLarge
  | tooSmall
  deriving DecidableEq, Repr

/-- The text of a fault. -/
def IntegerFault.message : IntegerFault → String
  | .empty => "cannot parse integer from empty string"
  | .invalidDigit => "invalid digit found in string"
  | .tooLarge => "number too large to fit in target type"
  | .tooSmall => "number too small to fit in target type"

/-- The value of an ASCII digit. -/
def digitValue? (c : Char) : Option Nat :=
  if '0' ≤ c ∧ c ≤ '9' then some (c.toNat - '0'.toNat) else none

/-- Reads digits after the value `acc`, which may not pass `bound`. -/
def readDigits (bound : Nat) (fault : IntegerFault) (acc : Nat) :
    List Char → Except IntegerFault Nat
  | [] => .ok acc
  | c :: s =>
    match digitValue? c with
    | none => .error .invalidDigit
    | some d =>
      if acc * 10 + d ≤ bound then readDigits bound fault (acc * 10 + d) s else .error fault

/-- The largest signed number of 64 bits; the least one is one further from zero. -/
def maxInt64 : Nat := 9223372036854775807

/-- The largest number of 64 bits without sign. -/
def maxNat64 : Nat := 18446744073709551615

/-- Reads a signed number of 64 bits: a sign is optional, a digit is not. -/
def readInt64 (s : List Char) : Except IntegerFault Int :=
  match s with
  | [] => .error .empty
  | ['+'] => .error .invalidDigit
  | ['-'] => .error .invalidDigit
  | '+' :: digits => (readDigits maxInt64 .tooLarge 0 digits).map Int.ofNat
  | '-' :: digits => (readDigits (maxInt64 + 1) .tooSmall 0 digits).map fun n => -(n : Int)
  | digits => (readDigits maxInt64 .tooLarge 0 digits).map Int.ofNat

/-- Reads a number without sign, a plus apart, that does not pass `bound`. -/
def readNat (bound : Nat) (s : List Char) : Except IntegerFault Nat :=
  match s with
  | [] => .error .empty
  | ['+'] => .error .invalidDigit
  | ['-'] => .error .invalidDigit
  | '+' :: digits => readDigits bound .tooLarge 0 digits
  | digits => readDigits bound .tooLarge 0 digits

/-- The decimal digits of a number. -/
def digits (n : Nat) : List Char := Nat.toDigits 10 n

/-- The decimal digits of a number, with zeros in front up to the given width. -/
def padded (width n : Nat) : List Char :=
  List.replicate (width - (digits n).length) '0' ++ digits n

/-- The decimal text of a number, a minus in front of a negative one. -/
def decimal (n : Int) : List Char :=
  match n with
  | .ofNat n => digits n
  | .negSucc n => '-' :: digits (n + 1)

/-- A text that is read has no character but digits, so reading is exact on them. -/
theorem readDigits_cons (bound : Nat) (fault : IntegerFault) (acc d : Nat) (c : Char)
    (s : List Char) (hd : digitValue? c = some d) (hb : acc * 10 + d ≤ bound) :
    readDigits bound fault acc (c :: s) = readDigits bound fault (acc * 10 + d) s := by
  simp [readDigits, hd, hb]

/-- A value that was read does not pass the bound. -/
theorem le_of_readDigits (bound : Nat) (fault : IntegerFault) (acc n : Nat) (s : List Char)
    (hacc : acc ≤ bound) (h : readDigits bound fault acc s = .ok n) : n ≤ bound := by
  induction s generalizing acc with
  | nil =>
    simp [readDigits] at h
    exact h ▸ hacc
  | cons c s ih =>
    unfold readDigits at h
    split at h
    · simp at h
    · split at h
      · rename_i hb
        exact ih _ hb h
      · simp at h

end Harvest.Text
