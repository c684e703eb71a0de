/-!
Finite non-negative double-precision numbers in exact arithmetic. `nearest` rounds a ratio, ties to
even, and every operation is the exact one followed by `nearest`.
-/

namespace Oncall

/-- The number `mant * 2 ^ expo`, with `mant` below `2 ^ 53` and `expo` from `-1074` to `971`. -/
structure Binary64 where
  mant : Nat
  expo : Int
  deriving DecidableEq, Repr

namespace Binary64

def zero : Binary64 := ⟨0, -1074⟩

def isZero (x : Binary64) : Bool := x.mant == 0

/-- The quotient rounded to the nearest natural number, ties to even. -/
def roundDiv (num den : Nat) : Nat :=
  let q := num / den
  let r := num % den
  if 2 * r < den ∨ (2 * r = den ∧ q % 2 = 0) then q else q + 1

/-- The exponent of the last bit of a number of size `num / den`. -/
def lastBit (num den : Nat) : Int :=
  let k : Int := num.log2 - den.log2
  let below := if 0 ≤ k then num < den * Nat.pow 2 k.toNat else num * Nat.pow 2 (-k).toNat < den
  max (-1074) ((if below then k - 1 else k) - 52)

/-- The double nearest to `num / den`; none if that is past the largest one. -/
def nearest (num den : Nat) : Option Binary64 :=
  if num = 0 then some zero
  else
    let e := lastBit num den
    let m :=
      if 0 ≤ e then roundDiv num (den * Nat.pow 2 e.toNat)
      else roundDiv (num * Nat.pow 2 (-e).toNat) den
    let x : Binary64 := if m = Nat.pow 2 53 then ⟨Nat.pow 2 52, e + 1⟩ else ⟨m, e⟩
    if x.expo ≤ 971 then some x else none

/-- Numerator of the exact value. -/
def num (x : Binary64) : Nat := if 0 ≤ x.expo then x.mant * Nat.pow 2 x.expo.toNat else x.mant

/-- Denominator of the exact value. -/
def den (x : Binary64) : Nat := if 0 ≤ x.expo then 1 else Nat.pow 2 (-x.expo).toNat

def mul (x y : Binary64) : Option Binary64 := nearest (x.num * y.num) (x.den * y.den)

def div (x y : Binary64) : Option Binary64 := nearest (x.num * y.den) (x.den * y.num)

/-- The double nearest to a power of ten. -/
def tenTo (k : Nat) : Option Binary64 := nearest (Nat.pow 10 k) 1

/-- The largest power of ten that is a double. -/
def maxTen : Nat := 308

/-- Times a power of ten, with one rounding. -/
def scaleUp (x : Binary64) (k : Nat) : Option Binary64 :=
  if x.isZero then some x
  else if k ≤ maxTen then do x.mul (← tenTo k)
  else none

/-- Divided by a power of ten, with one rounding for each factor `10 ^ 308` and one for the rest. -/
def scaleDown (x : Binary64) (k : Nat) : Option Binary64 :=
  if x.isZero then some x
  else if k ≤ maxTen then do x.div (← tenTo k)
  else do
    let y ← x.div (← tenTo maxTen)
    scaleDown y (k - maxTen)
  termination_by k
  decreasing_by simp only [maxTen] at *; omega

def scale (x : Binary64) (k : Int) : Option Binary64 :=
  if 0 ≤ k then x.scaleUp k.toNat else x.scaleDown (-k).toNat

end Binary64

end Oncall
