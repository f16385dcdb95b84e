/-!
# Shortest decimal texts of floating numbers

A finite positive floating number is `m * 2 ^ q` for integers `m` and `q`. It is read
back from every decimal that lies nearer to it than to its neighbours, and from the
two midpoints if `m` is even. `shortest` finds the fewest digits with which a decimal
reads back, and of those decimals the one nearest to the number.
-/

namespace Harvest.Decimal

/-- A positive rational `num / den`. -/
structure Ratio where
  num : Nat
  den : Nat

/-- The rational `n * 2 ^ q`. -/
def Ratio.binary (n : Nat) (q : Int) : Ratio :=
  if 0 ≤ q then ⟨n <<< q.toNat, 1⟩ else ⟨n, 1 <<< (-q).toNat⟩

/-- A power of ten. -/
def tenTo (e : Nat) : Nat := Nat.pow 10 e

/-- The rational `n * 10 ^ e`. -/
def Ratio.decimal (n : Nat) (e : Int) : Ratio :=
  if 0 ≤ e then ⟨n * tenTo e.toNat, 1⟩ else ⟨n, tenTo (-e).toNat⟩

/-- The first ratio is smaller. -/
def Ratio.lt (a b : Ratio) : Bool := a.num * b.den < b.num * a.den

/-- The first ratio is not larger. -/
def Ratio.le (a b : Ratio) : Bool := a.num * b.den ≤ b.num * a.den

/-- A floating number and the interval of the numbers that are read back as it. -/
structure Interval where
  value : Ratio
  low : Ratio
  high : Ratio
  /-- The ends of the interval belong to it. -/
  closed : Bool

/-- The interval of `m * 2 ^ q`; `narrow` says that the lower neighbour is half as far. -/
def Interval.of (m : Nat) (q : Int) (narrow : Bool) : Interval where
  value := .binary (4 * m) (q - 2)
  low := .binary (4 * m - if narrow then 1 else 2) (q - 2)
  high := .binary (4 * m + 2) (q - 2)
  closed := m % 2 = 0

/-- A number lies in the interval. -/
def Interval.contains (i : Interval) (x : Ratio) : Bool :=
  if i.closed then i.low.le x && x.le i.high else i.low.lt x && x.lt i.high

/-- The largest multiple of `10 ^ e` that does not pass the number. -/
def gridBelow (x : Ratio) (e : Int) : Nat :=
  if 0 ≤ e then x.num / (x.den * tenTo e.toNat) else x.num * tenTo (-e).toNat / x.den

/-- Twice the number lies below the sum of the two grid points around it. -/
def nearerBelow (x : Ratio) (n : Nat) (e : Int) : Bool :=
  let mid := Ratio.decimal (2 * n + 1) e
  Ratio.lt ⟨2 * x.num, x.den⟩ mid || (Ratio.le ⟨2 * x.num, x.den⟩ mid && n % 2 = 0)

/-- The grid point of `10 ^ e` that reads back, if there is one; of two the nearer. -/
def onGrid? (i : Interval) (e : Int) : Option Nat :=
  let n := gridBelow i.value e
  let below := n ≠ 0 ∧ i.contains (.decimal n e) = true
  let above := i.contains (.decimal (n + 1) e) = true
  if below ∧ above then some (if nearerBelow i.value n e then n else n + 1)
  else if below then some n
  else if above then some (n + 1)
  else none

/-- The first grid, from that of `10 ^ e` on downwards, with a point that reads back. -/
def search (i : Interval) : (fuel : Nat) → (e : Int) → Nat × Int
  | 0, e => (gridBelow i.value e, e)
  | fuel + 1, e =>
    match onGrid? i e with
    | some n => (n, e)
    | none => search i fuel (e - 1)

/-- The digits and the exponent of the shortest decimal for `m * 2 ^ q`. -/
def shortest (m : Nat) (q : Int) (narrow : Bool) : Nat × Int :=
  search (.of m q narrow) 700 309

/-- A floating number by its parts: its sign and its magnitude `m * 2 ^ q`. -/
structure Parts where
  negative : Bool
  m : Nat
  q : Int
  narrow : Bool

/-- The parts of a finite floating number. -/
def Parts.of (x : Float) : Parts :=
  let bits := x.toBits.toNat
  let fraction := bits % (1 <<< 52)
  let exponent := bits >>> 52 % 2048
  { negative := (1 <<< 63) ≤ bits
    m := if exponent = 0 then fraction else fraction + (1 <<< 52)
    q := (max exponent 1 : Nat) - 1075
    narrow := fraction = 0 && 1 < exponent }

/-- Digits with a point behind the first `whole` of them; zeros fill the gaps. -/
def positional (digits : List Char) (whole : Int) : List Char :=
  let n : Int := digits.length
  if n ≤ whole then digits ++ List.replicate (whole - n).toNat '0' ++ ".0".toList
  else if 0 < whole then digits.take whole.toNat ++ '.' :: digits.drop whole.toNat
  else "0.".toList ++ List.replicate (-whole).toNat '0' ++ digits

/-- Digits with a point behind the first one and the exponent behind them. -/
def scientific (digits : List Char) (whole : Int) : List Char :=
  let mantissa := match digits with
    | [] => []
    | [d] => [d]
    | d :: ds => d :: '.' :: ds
  let e := whole - 1
  let exponent := if e < 0 then '-' :: Nat.toDigits 10 e.natAbs else Nat.toDigits 10 e.natAbs
  mantissa ++ 'e' :: exponent

/-- The text of a finite floating number: positional from a hundred-thousandth on and below
ten to the sixteenth, and always with a point there. -/
def floatText (x : Float) : String :=
  let p := Parts.of x
  let body :=
    if p.m = 0 then "0.0".toList
    else
      let (n, e) := shortest p.m p.q p.narrow
      let digits := Nat.toDigits 10 n
      let whole : Int := digits.length + e
      if -5 < whole ∧ whole ≤ 16 then positional digits whole else scientific digits whole
  String.ofList (if p.negative then '-' :: body else body)

end Harvest.Decimal
