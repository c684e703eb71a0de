import Oncall.Decimal.Shortest
import Oncall.Json.Token

/-!
What string and number tokens mean. A string's escapes are resolved and its bytes have to be UTF-8;
a number is an integer where it has no fraction, no exponent and fits 64 bits, and a double
otherwise.
-/

namespace Oncall.Json

/-- A piece of a string token: a byte as it stands, or a sixteen-bit unit spelled in hexadecimal. -/
inductive Piece where
  | byte (b : UInt8)
  | unit (n : Nat)

def hexValue (b : UInt8) : Nat :=
  if isDigit b then b.toNat - 0x30 else if 0x61 ≤ b then b.toNat - 0x57 else b.toNat - 0x37

/-- The byte that a letter after a backslash stands for. -/
def shortEscape (b : UInt8) : UInt8 :=
  if b = 0x62 then 0x08 else if b = 0x66 then 0x0C else if b = 0x6E then 0x0A
  else if b = 0x72 then 0x0D else if b = 0x74 then 0x09 else b

def pieces : Bytes → List Piece
  | 0x5C :: 0x75 :: a :: b :: c :: d :: rest =>
    .unit (hexValue a * 4096 + hexValue b * 256 + hexValue c * 16 + hexValue d) :: pieces rest
  | 0x5C :: b :: rest => .byte (shortEscape b) :: pieces rest
  | b :: rest => .byte b :: pieces rest
  | [] => []

def isHighSurrogate (n : Nat) : Bool := 0xD800 ≤ n && n < 0xDC00

def isLowSurrogate (n : Nat) : Bool := 0xDC00 ≤ n && n < 0xE000

/-- Two surrogates make one character; a surrogate on its own makes none. -/
def joinPieces : List Piece → Option Bytes
  | [] => some []
  | .byte b :: rest => (joinPieces rest).map (b :: ·)
  | .unit n :: .unit m :: rest =>
    if isHighSurrogate n then
      if isLowSurrogate m then
        let c := Char.ofNat (0x10000 + (n - 0xD800) * 0x400 + (m - 0xDC00))
        (joinPieces rest).map (Utf8.encodeChar c ++ ·)
      else none
    else if isLowSurrogate n then none
    else (joinPieces (.unit m :: rest)).map (Utf8.encodeChar (Char.ofNat n) ++ ·)
  | .unit n :: rest =>
    if isHighSurrogate n || isLowSurrogate n then none
    else (joinPieces rest).map (Utf8.encodeChar (Char.ofNat n) ++ ·)

/-- The text of a string token. -/
def text? (raw : Bytes) : Option String := do
  let bs ← joinPieces (pieces raw)
  let cs ← Utf8.decode? bs
  some (String.ofList cs)

inductive Number where
  | integer (n : Int)
  | double (negative : Bool) (magnitude : Binary64)
  deriving DecidableEq, Repr

/-- A number literal taken apart. -/
structure Numeral where
  negative : Bool
  whole : List Nat
  fraction : List Nat
  exponent : Option Int

def digitValue (b : UInt8) : Nat := b.toNat - 0x30

def natOfDigits (ds : List Nat) : Nat := ds.foldl (fun n d => n * 10 + d) 0

/-- The digits before the first other byte, and what is left. -/
def spanDigits (bs : Bytes) : List Nat × Bytes :=
  ((bs.takeWhile isDigit).map digitValue, bs.dropWhile isDigit)

def exponentOf (bs : Bytes) : Int :=
  match bs with
  | 0x2D :: rest => -(natOfDigits (spanDigits rest).1 : Nat)
  | 0x2B :: rest => natOfDigits (spanDigits rest).1
  | rest => natOfDigits (spanDigits rest).1

/-- Takes apart a literal of the form that tokens have. -/
def Numeral.ofLiteral (literal : Bytes) : Numeral :=
  let negative := literal.head? = some 0x2D
  let (whole, rest) := spanDigits (if negative then literal.drop 1 else literal)
  let (fraction, rest) := match rest with
    | 0x2E :: rest => spanDigits rest
    | rest => ([], rest)
  ⟨negative, whole, fraction, if rest.isEmpty then none else some (exponentOf (rest.drop 1))⟩

def maxWord : Nat := 0xFFFFFFFFFFFFFFFF

/-- Takes in digits as long as the value fits 64 bits; also counts the digits left out. -/
def absorb (w : Nat) : List Nat → Nat × Nat
  | [] => (w, 0)
  | d :: ds => if w * 10 + d ≤ maxWord then absorb (w * 10 + d) ds else (w, ds.length + 1)

/-- The double a literal denotes: the leading digits that fit 64 bits, as a double, scaled by a
power of ten. A digit that does not fit only moves the power. -/
def Numeral.magnitude? (n : Numeral) : Option Binary64 := do
  let (w, cut) := absorb 0 n.whole
  let (w, left) := absorb w n.fraction
  let power : Int := (cut : Int) - (n.fraction.length - left : Nat) + n.exponent.getD 0
  (← Binary64.nearest w 1).scale power

/-- None if the literal is past the largest double. -/
def Numeral.number? (n : Numeral) : Option Number :=
  let value := natOfDigits n.whole
  let isWhole := n.fraction.isEmpty && n.exponent.isNone
  if isWhole && !n.negative && value ≤ maxWord then some (.integer value)
  else if isWhole && n.negative && value ≠ 0 && value ≤ 0x8000000000000000 then
    some (.integer (-value))
  else n.magnitude?.map (.double n.negative)

def number? (literal : Bytes) : Option Number := (Numeral.ofLiteral literal).number?

def Number.text : Number → List Char
  | .integer n => (if n < 0 then ['-'] else []) ++ Nat.toDigits 10 n.natAbs
  | .double negative x => (if negative then ['-'] else []) ++ x.text

end Oncall.Json
