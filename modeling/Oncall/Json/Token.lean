import Oncall.Text.Utf8

/-!
JSON text as tokens. A string token keeps the bytes between its quotes and a number token its
literal; both are checked for their form only. `tokens?` folds one byte at a time, so reading a
concatenation is reading its parts in turn.
-/

namespace Oncall.Json

inductive Token where
  | openArray
  | closeArray
  | openObject
  | closeObject
  | comma
  | colon
  | null
  | bool (b : Bool)
  | number (literal : Bytes)
  | string (raw : Bytes)
  deriving DecidableEq, Repr

/-- The part of a number literal that its last byte belongs to. -/
inductive NumberPart where
  | minus
  | zero
  | whole
  | point
  | fraction
  | mark
  | sign
  | exponent
  deriving DecidableEq, Repr

def isDigit (b : UInt8) : Bool := 0x30 ≤ b && b ≤ 0x39

def isHexDigit (b : UInt8) : Bool := isDigit b || (0x61 ≤ b && b ≤ 0x66) || (0x41 ≤ b && b ≤ 0x46)

def isBlank (b : UInt8) : Bool := b = 0x20 || b = 0x09 || b = 0x0A || b = 0x0D

namespace NumberPart

def first? (b : UInt8) : Option NumberPart :=
  if b = 0x2D then some .minus
  else if b = 0x30 then some .zero
  else if isDigit b then some .whole
  else none

/-- What follows a whole part: a point or an exponent mark. -/
def afterWhole? (b : UInt8) : Option NumberPart :=
  if b = 0x2E then some .point else if b = 0x65 ∨ b = 0x45 then some .mark else none

def next? : NumberPart → UInt8 → Option NumberPart
  | .minus, b => if b = 0x30 then some .zero else if isDigit b then some .whole else none
  | .zero, b => afterWhole? b
  | .whole, b => if isDigit b then some .whole else afterWhole? b
  | .point, b => if isDigit b then some .fraction else none
  | .fraction, b =>
    if isDigit b then some .fraction else if b = 0x65 ∨ b = 0x45 then some .mark else none
  | .mark, b =>
    if b = 0x2B ∨ b = 0x2D then some .sign else if isDigit b then some .exponent else none
  | .sign, b => if isDigit b then some .exponent else none
  | .exponent, b => if isDigit b then some .exponent else none

/-- Whether a literal may end here. -/
def isEnd : NumberPart → Bool
  | .zero | .whole | .fraction | .exponent => true
  | _ => false

end NumberPart

/-- What the bytes since the last finished token amount to; they are kept in reverse. -/
inductive Mode where
  | between
  | text (raw : Bytes)
  | escape (raw : Bytes)
  | hex (left : Nat) (raw : Bytes)
  | number (part : NumberPart) (raw : Bytes)
  | word (left : Bytes) (token : Token)

structure Lexer where
  mode : Mode
  tokens : List Token

namespace Lexer

/-- A byte between tokens. -/
def start (b : UInt8) (ts : List Token) : Option Lexer :=
  if isBlank b then some ⟨.between, ts⟩
  else if b = 0x22 then some ⟨.text [], ts⟩
  else if b = 0x5B then some ⟨.between, .openArray :: ts⟩
  else if b = 0x5D then some ⟨.between, .closeArray :: ts⟩
  else if b = 0x7B then some ⟨.between, .openObject :: ts⟩
  else if b = 0x7D then some ⟨.between, .closeObject :: ts⟩
  else if b = 0x2C then some ⟨.between, .comma :: ts⟩
  else if b = 0x3A then some ⟨.between, .colon :: ts⟩
  else if b = 0x6E then some ⟨.word [0x75, 0x6C, 0x6C] .null, ts⟩
  else if b = 0x74 then some ⟨.word [0x72, 0x75, 0x65] (.bool true), ts⟩
  else if b = 0x66 then some ⟨.word [0x61, 0x6C, 0x73, 0x65] (.bool false), ts⟩
  else (NumberPart.first? b).map fun part => ⟨.number part [b], ts⟩

/-- The bytes that may follow a backslash, other than the `u` of a numbered character. -/
def isShortEscape (b : UInt8) : Bool := [0x22, 0x5C, 0x2F, 0x62, 0x66, 0x6E, 0x72, 0x74].contains b

def step (l : Lexer) (b : UInt8) : Option Lexer :=
  match l.mode with
  | .between => start b l.tokens
  | .text raw =>
    if b = 0x22 then some ⟨.between, .string raw.reverse :: l.tokens⟩
    else if b = 0x5C then some ⟨.escape (b :: raw), l.tokens⟩
    else if b < 0x20 then none
    else some ⟨.text (b :: raw), l.tokens⟩
  | .escape raw =>
    if b = 0x75 then some ⟨.hex 3 (b :: raw), l.tokens⟩
    else if isShortEscape b then some ⟨.text (b :: raw), l.tokens⟩
    else none
  | .hex left raw =>
    if isHexDigit b then
      match left with
      | 0 => some ⟨.text (b :: raw), l.tokens⟩
      | left + 1 => some ⟨.hex left (b :: raw), l.tokens⟩
    else none
  | .number part raw =>
    match part.next? b with
    | some part => some ⟨.number part (b :: raw), l.tokens⟩
    | none => if part.isEnd then start b (.number raw.reverse :: l.tokens) else none
  | .word left token =>
    match left with
    | [] => none
    | [c] => if b = c then some ⟨.between, token :: l.tokens⟩ else none
    | c :: left => if b = c then some ⟨.word left token, l.tokens⟩ else none

/-- The tokens in reverse, if no token is cut off. -/
def finish (l : Lexer) : Option (List Token) :=
  match l.mode with
  | .between => some l.tokens
  | .number part raw => if part.isEnd then some (.number raw.reverse :: l.tokens) else none
  | _ => none

end Lexer

def tokens? (bs : Bytes) : Option (List Token) := do
  let l ← bs.foldlM Lexer.step ⟨.between, []⟩
  let ts ← l.finish
  some ts.reverse

end Oncall.Json
