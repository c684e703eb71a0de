import Oncall.Decimal.Binary64

/-!
The fewest decimal digits that read back as a given double, the nearest ones where several do, and
how they are laid out: positional from `1e-5` up to below `1e16`, with an exponent elsewhere.
-/

namespace Oncall.Shortest

/-- The number `digits * 10 ^ power`. -/
structure Decimal where
  digits : Nat
  power : Int
  deriving DecidableEq, Repr

/-- The reals from `low / den` to `high / den` round to `mid / den`; the ends belong if `closed`. -/
structure Interval where
  low : Nat
  mid : Nat
  high : Nat
  den : Nat
  closed : Bool

/-- Below a power of two the next double is half as far away as above it. -/
def Interval.ofBinary64 (x : Binary64) : Interval :=
  let gap := if x.mant = Nat.pow 2 52 ∧ -1074 < x.expo then 1 else 2
  let e := x.expo - 2
  let up := if 0 ≤ e then Nat.pow 2 e.toNat else 1
  let den := if 0 ≤ e then 1 else Nat.pow 2 (-e).toNat
  ⟨(4 * x.mant - gap) * up, 4 * x.mant * up, (4 * x.mant + 2) * up, den, x.mant % 2 = 0⟩

def countDigits (n : Nat) : Nat := (Nat.toDigits 10 n).length

/-- How many digits stand before the point; zeros after the point count against it. -/
def Interval.places (i : Interval) : Int :=
  if i.den ≤ i.mid then countDigits (i.mid / i.den)
  else 1 - countDigits ((i.den - 1) / i.mid)

/-- The interval in units of `10 ^ power`. -/
def Interval.inUnits (i : Interval) (power : Int) : Interval :=
  if 0 ≤ power then { i with den := i.den * Nat.pow 10 power.toNat }
  else
    let f := Nat.pow 10 (-power).toNat
    { i with low := i.low * f, mid := i.mid * f, high := i.high * f }

def Interval.holds (i : Interval) (n : Nat) : Bool :=
  if i.closed then i.low ≤ n * i.den && n * i.den ≤ i.high
  else i.low < n * i.den && n * i.den < i.high

/-- The better of the two neighbours of the middle that lie in the interval; a tie goes to the even
one. -/
def Interval.best? (i : Interval) : Option Nat :=
  let d := i.mid / i.den
  match i.holds d, i.holds (d + 1) with
  | false, false => none
  | true, false => some d
  | false, true => some (d + 1)
  | true, true =>
    let r := 2 * (i.mid % i.den)
    if r < i.den ∨ (r = i.den ∧ d % 2 = 0) then some d else some (d + 1)

/-- Zeros at the end go to the power of ten. -/
def Decimal.trim (fuel : Nat) (d : Decimal) : Decimal :=
  match fuel with
  | 0 => d
  | fuel + 1 =>
    if d.digits ≠ 0 ∧ d.digits % 10 = 0 then Decimal.trim fuel ⟨d.digits / 10, d.power + 1⟩ else d

/-- The first grid with a point in the interval; seventeen digits always suffice. -/
def ofBinary64 (x : Binary64) : Decimal :=
  let i := Interval.ofBinary64 x
  let grid? (n : Nat) : Option Decimal :=
    let power := i.places - (n + 1 : Nat)
    (i.inUnits power).best?.map fun d => Decimal.trim 17 ⟨d, power⟩
  ((List.range 17).findSome? grid?).getD ⟨0, 0⟩

def zeros (n : Nat) : List Char := List.replicate n '0'

/-- The exponent has a sign and no leading zero. -/
def exponentText (e : Int) : List Char := (if 0 ≤ e then '+' else '-') :: Nat.toDigits 10 e.natAbs

def Decimal.text (d : Decimal) : List Char :=
  let ds := Nat.toDigits 10 d.digits
  let places : Int := ds.length + d.power
  if 0 ≤ d.power ∧ places ≤ 16 then ds ++ zeros d.power.toNat ++ ['.', '0']
  else if 0 < places ∧ places ≤ 16 then ds.take places.toNat ++ '.' :: ds.drop places.toNat
  else if -5 < places ∧ places ≤ 0 then ['0', '.'] ++ zeros (-places).toNat ++ ds
  else
    let fraction := ds.drop 1
    ds.take 1 ++ (if fraction.isEmpty then [] else '.' :: fraction) ++
      'e' :: exponentText (places - 1)

end Oncall.Shortest

namespace Oncall

/-- The shortest text of a double; zero keeps one place. -/
def Binary64.text (x : Binary64) : List Char :=
  if x.isZero then ['0', '.', '0'] else (Shortest.ofBinary64 x).text

end Oncall
