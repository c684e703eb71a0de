import Oncall.Text.Utf8

/-!
Text whose encoding its first bytes tell: UTF-16 in either order of bytes after a mark of that
order, and UTF-8 otherwise, with or without a mark.
-/

namespace Oncall.Utf16

/-- Whether the first or the second byte of a unit is the high one. -/
inductive ByteOrder where
  | bigEndian
  | littleEndian
  deriving DecidableEq, Repr

/-- The units of a text; a single byte at the end is none. -/
def units? (order : ByteOrder) : Bytes → Option (List Nat)
  | [] => some []
  | a :: b :: rest =>
    let unit := match order with
      | .bigEndian => a.toNat * 256 + b.toNat
      | .littleEndian => b.toNat * 256 + a.toNat
    (units? order rest).map (unit :: ·)
  | [_] => none

def isHigh (u : Nat) : Bool := 0xD800 ≤ u && u < 0xDC00

def isLow (u : Nat) : Bool := 0xDC00 ≤ u && u < 0xE000

/-- The characters of units; surrogates come in pairs. -/
def chars? : List Nat → Option (List Char)
  | [] => some []
  | u :: rest =>
    if isLow u then none
    else if isHigh u then
      match rest with
      | v :: rest =>
        if isLow v then
          let n := 0x10000 + (u - 0xD800) * 0x400 + (v - 0xDC00)
          (chars? rest).map (Char.ofNat n :: ·)
        else none
      | [] => none
    else (chars? rest).map (Char.ofNat u :: ·)

/-- The text of a file, without the mark in front of it. -/
def decodeMarked? : Bytes → Option (List Char)
  | 0xFF :: 0xFE :: rest => (units? .littleEndian rest).bind chars?
  | 0xFE :: 0xFF :: rest => (units? .bigEndian rest).bind chars?
  | 0xEF :: 0xBB :: 0xBF :: rest => Utf8.decode? rest
  | bs => Utf8.decode? bs

end Oncall.Utf16
