import Oncall.Yaml.Scalar

/-!
Block scalars: the lines below a header that are indented further than what they belong to. A
literal one keeps its line breaks, a folded one joins lines that do not start with a blank. The
header may say how far the lines are indented and what becomes of the line breaks at the end.
-/

namespace Oncall.Yaml.Scalar

/-- What becomes of the line breaks at the end: none is kept, one, or all. -/
inductive Chomping where
  | strip
  | clip
  | keep
  deriving DecidableEq, Repr

/-- The indentation is counted from that of the surroundings. -/
structure BlockHeader where
  chomping : Chomping
  indentation : Option Nat
  deriving DecidableEq, Repr

namespace BlockHeader

/-- One sign of a header; each kind stands once at most. -/
def sign (h : BlockHeader) (c : Char) : Option BlockHeader :=
  if h.chomping = .clip && c = '+' then some { h with chomping := .keep }
  else if h.chomping = .clip && c = '-' then some { h with chomping := .strip }
  else if h.indentation.isNone && '1' ≤ c && c ≤ '9' then
    some { h with indentation := some (c.toNat - 48) }
  else none

/-- The header from here on, and the lines below it. -/
def read? (h : BlockHeader) : List Glyph → Option (BlockHeader × List Glyph)
  | [] => some (h, [])
  | g :: rest =>
    match h.sign g.char with
    | some h => h.read? rest
    | none => (nextLine? (g :: rest)).map (h, ·)

end BlockHeader

/-- The lines so far. `first` and `more` are the line breaks after the last one that is not empty,
and `widest` is the furthest column of the lines above that one. -/
structure Block where
  indent : Option Nat
  widest : Nat
  done : List Char
  first : Option Char
  more : List Char
  startedBlank : Bool

namespace Block

/-- The text in front of a line, in reverse. -/
def joined (literal blank : Bool) (b : Block) : List Char :=
  if !literal && b.first = some '\n' && !b.startedBlank && !blank then
    (if b.more.isEmpty then [' '] else b.more) ++ b.done
  else b.more ++ b.first.toList ++ b.done

def text (chomping : Chomping) (b : Block) : String :=
  let tail := match chomping with
    | .strip => []
    | .clip => b.first.toList
    | .keep => b.more ++ b.first.toList
  String.ofList (tail ++ b.done).reverse

end Block

/-- Reads the lines below a header, from inside a line or from the start of one. They are indented
to the column `least` or further. -/
def block (literal : Bool) (chomping : Chomping) (least : Nat) (b : Block) :
    Bool → List Glyph → Option (String × List Glyph)
  | _, [] => some (b.text chomping, [])
  | true, g :: rest =>
    if isBreak g.char then
      block literal chomping least { b with first := some g.char, more := [] } false rest
    else block literal chomping least { b with done := g.char :: b.done } true rest
  | false, g :: rest =>
    let isShort := b.indent.all (g.column < ·)
    let widest := max b.widest g.column
    if isShort && g.char = ' ' then block literal chomping least b false rest
    else if isShort && g.char = '\t' then none
    else if isBreak g.char then
      block literal chomping least { b with widest, more := g.char :: b.more } false rest
    else
      let indent := b.indent.getD (max widest (max least 1))
      if g.column ≠ indent then some (b.text chomping, g :: rest)
      else
        let blank := isBlank g.char
        block literal chomping least
          ⟨some indent, widest, g.char :: b.joined literal blank, none, [], blank⟩ true rest

/-- The block scalar after its sign. -/
def block? (literal : Bool) (least : Nat) (gs : List Glyph) : Option (String × List Glyph) := do
  let (h, gs) ← BlockHeader.read? ⟨.clip, none⟩ gs
  block literal h.chomping least ⟨h.indentation.map (least - 1 + ·), 0, [], none, [], false⟩
    false gs

end Oncall.Yaml.Scalar
