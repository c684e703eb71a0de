import Oncall.Yaml.Layout
import Oncall.Yaml.Scalar.Block
import Oncall.Yaml.Scalar.Plain
import Oncall.Yaml.Scalar.Quoted

/-!
The tokens of configuration text in YAML. Every step reads one token with the blanks and comments
before it, so there are at most as many steps as characters.
-/

namespace Oncall.Yaml

namespace Layout

/-- Skips blanks, comments and line breaks; a key may start in a new line. Where one may start, tabs
are no blanks. -/
def skip (inFlow allowed inComment : Bool) : List Glyph → Bool × List Glyph
  | [] => (allowed, [])
  | g :: rest =>
    if isBreak g.char then skip inFlow (allowed || !inFlow) false rest
    else if inComment || g.char = ' ' || (g.char = '\t' && (inFlow || !allowed)) then
      skip inFlow allowed inComment rest
    else if g.char = '#' then skip inFlow allowed true rest
    else (allowed, g :: rest)

def directive (rest : List Glyph) (l : Layout) : Option (Layout × List Glyph) := do
  let (d, rest) ← Directive.read? rest
  some (← l.atTop (.directive d), rest)

def plain (g : Glyph) (rest : List Glyph) (l : Layout) : Option (Layout × List Glyph) := do
  let (s, endsLine, rest) ← Scalar.plain l.inFlow l.least [] .none (g :: rest)
  let l ← l.word g (.scalar ⟨s, true⟩)
  some (l.allowKey endsLine, rest)

def quoted (g : Glyph) (rest : List Glyph) (l : Layout) : Option (Layout × List Glyph) := do
  let (s, rest) ← Scalar.quoted (g.char = '"') [] (.text .none) rest
  some (← l.word g (.scalar ⟨s, false⟩), rest)

def block (literal : Bool) (rest : List Glyph) (l : Layout) : Option (Layout × List Glyph) := do
  let (s, rest) ← Scalar.block? literal l.least rest
  some (((← l.dropKey).allowKey true).emit (.scalar ⟨s, false⟩), rest)

/-- A tag is followed by a gap, or between brackets by a comma. -/
def tag (g : Glyph) (rest : List Glyph) (l : Layout) : Option (Layout × List Glyph) := do
  let (t, rest) ← Tag.read? rest
  if gapNext rest || (l.inFlow && nextIn [','] rest) then some (← l.word g (.tag t), rest)
  else none

def anchorOrAlias (g : Glyph) (rest : List Glyph) (l : Layout) :
    Option (Layout × List Glyph) := do
  let (name, rest) ← Anchors.name? rest
  some (← if g.char = '&' then l.anchor g name else l.reference g name, rest)

/-- A scalar, or what may stand before one. -/
def content (g : Glyph) (rest : List Glyph) (l : Layout) : Option (Layout × List Glyph) :=
  match g.char with
  | '*' | '&' => l.anchorOrAlias g rest
  | '!' => l.tag g rest
  | '\'' | '"' => l.quoted g rest
  | c =>
    if !l.inFlow && (c = '|' || c = '>') then l.block (c = '|') rest
    else if Scalar.startsPlain l.inFlow c rest then l.plain g rest
    else none

/-- A sign that stands for itself only, or content. -/
def sign (g : Glyph) (rest : List Glyph) (l : Layout) : Option (Layout × List Glyph) :=
  match g.char with
  | '[' => (l.enter .openList g).map (·, rest)
  | '{' => (l.enter .openMap g).map (·, rest)
  | ']' => (l.leave .closeList).map (·, rest)
  | '}' => (l.leave .closeMap).map (·, rest)
  | ',' => l.comma.map (·, rest)
  | c =>
    let standsAlone := gapNext rest
    if c = '-' && standsAlone then (l.dash g).map (·, rest)
    else if c = '?' && (l.inFlow || standsAlone) then (l.questionMark g).map (·, rest)
    else if c = ':' && (l.inFlow || standsAlone) then (l.colon g).map (·, rest)
    else l.content g rest

/-- The next token. -/
def token (g : Glyph) (rest : List Glyph) (l : Layout) : Option (Layout × List Glyph) :=
  if g.column = 0 && g.char = '%' then l.directive rest
  else if isRule '-' (g :: rest) then (l.documentMark .documentStart).map (·, rest.drop 2)
  else if isRule '.' (g :: rest) then (l.documentMark .documentEnd).map (·, rest.drop 2)
  else l.sign g rest

/-- All tokens from here on. -/
def scan : Nat → List Glyph → Layout → Option (List Token)
  | 0, _, _ => none
  | steps + 1, gs, l =>
    match skip l.inFlow l.keyAllowed false gs with
    | (_, []) => l.closeAll.dropKey.map fun l => l.tokens.reverse
    | (allowed, g :: rest) => do
      let l ← (l.allowKey allowed).dropStale g.line g.column
      let (l, rest) ← (l.closeTo g.column).token g rest
      scan steps rest l

end Layout

/-- The tokens of a text. -/
def tokens? (cs : List Char) : Option (List Token) := do
  let gs ← glyphs? cs
  Layout.scan (gs.length + 1) gs .start

end Oncall.Yaml
