import Oncall.Yaml.Scalar

/-!
Plain scalars. One goes on until a colon before a gap, a comment, a document mark or a line that is
indented too little; between brackets it also ends at a comma or bracket.
-/

namespace Oncall.Yaml.Scalar

/-- Signs that mean something between brackets. -/
def flowSigns : List Char := [',', '[', ']', '{', '}']

/-- No plain scalar starts with one of these. -/
def indicators : List Char :=
  ['-', '?', ':', ',', '[', ']', '{', '}', '#', '&', '*', '!', '|', '>', '\'', '"', '%', '@',
    '\x60']

/-- Three indicators may start a plain scalar if something follows them closely. -/
def startsPlain (inFlow : Bool) (c : Char) (rest : List Glyph) : Bool :=
  !(isBlank c || indicators.contains c) || (c = '-' && !nextIn [' ', '\t'] rest) ||
    (!inFlow && (c = '?' || c = ':') && !gapNext rest)

/-- Whether the text before a character is the whole scalar. -/
def endsPlain (inFlow : Bool) (c : Char) (rest : List Glyph) : Bool :=
  (c = ':' && gapNext rest) || (inFlow && flowSigns.contains c)

/-- Reads on after `done`, which is in reverse, and a gap: the text, whether a line break follows
it, and what is left. Lines go on from the column `indent`. -/
def plain (inFlow : Bool) (indent : Nat) (done : List Char) (gap : Gap) :
    List Glyph → Option (String × Bool × List Glyph)
  | [] => some (String.ofList done.reverse, gap.isLines, [])
  | g :: rest =>
    if isBlank g.char || isBreak g.char then
      if gap.isLines && g.char = '\t' && g.column < indent then none
      else plain inFlow indent done (gap.add g.char) rest
    else if !gap.isNone &&
        ((!inFlow && g.column < indent) || g.char = '#' || isDocumentMark (g :: rest)) then
      some (String.ofList done.reverse, gap.isLines, g :: rest)
    else if inFlow && g.char = ':' && nextIn ('?' :: flowSigns) rest then none
    else if endsPlain inFlow g.char rest then
      some (String.ofList done.reverse, gap.isLines, g :: rest)
    else plain inFlow indent (g.char :: (gap.folded ++ done)) .none rest

end Oncall.Yaml.Scalar
