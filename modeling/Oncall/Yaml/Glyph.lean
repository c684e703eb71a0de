/-!
Configuration text in YAML as characters with their places. Line breaks of the common kinds become
one character, a mark of byte order in front takes up a column, and a text with a character that
YAML does not allow is refused as a whole.
-/

namespace Oncall.Yaml

structure Glyph where
  char : Char
  line : Nat
  column : Nat
  deriving DecidableEq, Repr

def isAllowed (c : Char) : Bool :=
  let n := c.toNat
  n = 0x9 || n = 0xA || n = 0xD || (0x20 ≤ n && n ≤ 0x7E) || n = 0x85 ||
    (0xA0 ≤ n && n ≤ 0xD7FF) || (0xE000 ≤ n && n ≤ 0xFFFD) || 0x10000 ≤ n

def isBlank (c : Char) : Bool := c = ' ' || c = '\t'

/-- Line breaks that are kept as they are. -/
def isSeparator (c : Char) : Bool := c.toNat = 0x2028 || c.toNat = 0x2029

/-- Line breaks after `place`. -/
def isBreak (c : Char) : Bool := c = '\n' || isSeparator c

/-- Characters from a place on. A carriage return with a line feed is one line break. -/
def place (line column : Nat) : List Char → List Glyph
  | [] => []
  | '\r' :: '\n' :: cs => ⟨'\n', line, column⟩ :: place (line + 1) 0 cs
  | c :: cs =>
    if c = '\r' || c = '\n' || c.toNat = 0x85 then ⟨'\n', line, column⟩ :: place (line + 1) 0 cs
    else if isSeparator c then ⟨c, line, column⟩ :: place (line + 1) 0 cs
    else ⟨c, line, column⟩ :: place line (column + 1) cs

def glyphs? (cs : List Char) : Option (List Glyph) :=
  if !cs.all isAllowed then none
  else
    match cs with
    | [] => some []
    | c :: rest => some (if c.toNat = 0xFEFF then place 0 1 rest else place 0 0 (c :: rest))

def chars (gs : List Glyph) : List Char := gs.map (·.char)

def text (gs : List Glyph) : String := String.ofList (chars gs)

/-- Whether a blank, a line break or the end comes next. -/
def gapNext : List Glyph → Bool
  | [] => true
  | g :: _ => isBlank g.char || isBreak g.char

/-- Whether one of some characters comes next. -/
def nextIn (cs : List Char) : List Glyph → Bool
  | [] => false
  | g :: _ => cs.contains g.char

/-- Three times the same character at the start of a line, and then a gap. -/
def isRule (c : Char) : List Glyph → Bool
  | x :: y :: z :: rest =>
    x.column = 0 && x.char = c && y.char = c && z.char = c && gapNext rest
  | _ => false

/-- Whether a document starts or ends here. -/
def isDocumentMark (gs : List Glyph) : Bool := isRule '-' gs || isRule '.' gs

def skipBlanks (gs : List Glyph) : List Glyph := gs.dropWhile fun g => isBlank g.char

/-- What follows the line, of which only blanks and a comment may be left. -/
def nextLine? (gs : List Glyph) : Option (List Glyph) :=
  let gs := skipBlanks gs
  match if nextIn ['#'] gs then gs.dropWhile fun g => !isBreak g.char else gs with
  | [] => some []
  | g :: rest => if isBreak g.char then some rest else none

/-- The characters of names. -/
def isWordChar (c : Char) : Bool := c.isAlphanum || c = '_' || c = '-'

/-- The longest word from here on, and what follows it. -/
def word (gs : List Glyph) : List Glyph × List Glyph :=
  (gs.takeWhile fun g => isWordChar g.char, gs.dropWhile fun g => isWordChar g.char)

def hexValue? (c : Char) : Option Nat :=
  if '0' ≤ c ∧ c ≤ '9' then some (c.toNat - 48)
  else if 'a' ≤ c ∧ c ≤ 'f' then some (c.toNat - 87)
  else if 'A' ≤ c ∧ c ≤ 'F' then some (c.toNat - 55)
  else none

end Oncall.Yaml
