import Oncall.Yaml.Scalar

/-!
Scalars between single or double quotes. Two single quotes stand for one; between double quotes a
backslash escapes a line break or names a character. A document may not start or end inside.
-/

namespace Oncall.Yaml.Scalar

/-- What the last characters amount to: a gap, a backslash, digits of a character's number with how
many are awaited, or a single quote that is the end unless another one follows. -/
inductive QuoteMode where
  | text (gap : Gap)
  | escape
  | number (awaited value : Nat)
  | quote

/-- The character that a letter after a backslash stands for. -/
def unescape? : Char → Option Char
  | '0' => some (Char.ofNat 0)
  | 'a' => some (Char.ofNat 0x7)
  | 'b' => some (Char.ofNat 0x8)
  | 't' | '\t' => some '\t'
  | 'n' => some '\n'
  | 'v' => some (Char.ofNat 0xB)
  | 'f' => some (Char.ofNat 0xC)
  | 'r' => some '\r'
  | 'e' => some (Char.ofNat 0x1B)
  | ' ' => some ' '
  | '"' => some '"'
  | '/' => some '/'
  | '\\' => some '\\'
  | 'N' => some (Char.ofNat 0x85)
  | '_' => some (Char.ofNat 0xA0)
  | 'L' => some (Char.ofNat 0x2028)
  | 'P' => some (Char.ofNat 0x2029)
  | _ => none

/-- How many digits of a number follow a letter after a backslash. -/
def numberLength? : Char → Option Nat
  | 'x' => some 2
  | 'u' => some 4
  | 'U' => some 8
  | _ => none

/-- The character with a number. -/
def charOf? (n : Nat) : Option Char := if n.isValidChar then some (Char.ofNat n) else none

/-- Reads on after `done`, which is in reverse: the text, and what is left. -/
def quoted (double : Bool) (done : List Char) :
    QuoteMode → List Glyph → Option (String × List Glyph)
  | .quote, [] => some (String.ofList done.reverse, [])
  | _, [] => none
  | .quote, g :: rest =>
    if g.char = '\'' then quoted double ('\'' :: done) (.text .none) rest
    else some (String.ofList done.reverse, g :: rest)
  | .escape, g :: rest =>
    if isBreak g.char then quoted double done (.text (.lines none [])) rest
    else
      match numberLength? g.char, unescape? g.char with
      | some awaited, _ => quoted double done (.number awaited 0) rest
      | none, some c => quoted double (c :: done) (.text .none) rest
      | none, none => none
  | .number awaited value, g :: rest =>
    match hexValue? g.char with
    | none => none
    | some digit =>
      let value := value * 16 + digit
      if awaited = 1 then
        match charOf? value with
        | none => none
        | some c => quoted double (c :: done) (.text .none) rest
      else quoted double done (.number (awaited - 1) value) rest
  | .text gap, g :: rest =>
    if isBlank g.char || isBreak g.char then quoted double done (.text (gap.add g.char)) rest
    else if isDocumentMark (g :: rest) then none
    else
      let done := gap.folded ++ done
      if double && g.char = '"' then some (String.ofList done.reverse, rest)
      else if double && g.char = '\\' then quoted double done .escape rest
      else if !double && g.char = '\'' then quoted double done .quote rest
      else quoted double (g.char :: done) (.text .none) rest

end Oncall.Yaml.Scalar
