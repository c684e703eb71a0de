/-!
Unsigned decimal numbers up to a limit: an optional plus sign and at least one ASCII digit, with any
number of leading zeros. A refusal says which came first, a character that is no digit or a value
past the limit.
-/

namespace Oncall.Unsigned

inductive ParseError where
  | invalidDigit
  | tooLarge
  deriving DecidableEq, Repr

def ParseError.message : ParseError → String
  | .invalidDigit => "invalid digit found in string"
  | .tooLarge => "number too large to fit in target type"

def digit? (c : Char) : Option Nat :=
  if '0' ≤ c ∧ c ≤ '9' then some (c.toNat - '0'.toNat) else none

/-- Reads digits after the value `n`, and stops at the first fault. -/
def readDigits (limit : Nat) : Nat → List Char → Except ParseError Nat
  | n, [] => .ok n
  | n, c :: cs =>
    match digit? c with
    | none => .error .invalidDigit
    | some d => if limit < n * 10 + d then .error .tooLarge else readDigits limit (n * 10 + d) cs

def unsigned : List Char → List Char
  | '+' :: cs => cs
  | cs => cs

def parse (limit : Nat) (cs : List Char) : Except ParseError Nat :=
  match unsigned cs with
  | [] => .error .invalidDigit
  | ds => readDigits limit 0 ds

end Oncall.Unsigned
