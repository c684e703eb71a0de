import Oncall.Yaml.Tag

/-!
Directives: lines that say which version of YAML a document is written in, or which start of a tag a
handle stands for.
-/

namespace Oncall.Yaml

inductive Directive where
  | version (major minor : Nat)
  | handle (name start : String)
  deriving DecidableEq, Repr

namespace Directive

/-- A number of at most nine digits. -/
def number? (gs : List Glyph) : Option (Nat × List Glyph) :=
  let digits := gs.takeWhile fun g => g.char.isDigit
  if digits.isEmpty || 9 < digits.length then none
  else
    let n := digits.foldl (fun n g => n * 10 + (g.char.toNat - 48)) 0
    some (n, gs.drop digits.length)

def version? (gs : List Glyph) : Option (Directive × List Glyph) := do
  let (major, gs) ← number? (skipBlanks gs)
  if nextIn ['.'] gs then
    let (minor, gs) ← number? (gs.drop 1)
    some (.version major minor, gs)
  else none

/-- A handle is an exclamation mark, or a name between two of them. -/
def handleName? (gs : List Glyph) : Option (String × List Glyph) :=
  if nextIn ['!'] gs then
    let (name, gs) := word (gs.drop 1)
    if nextIn ['!'] gs then some (Tag.namedHandle name, gs.drop 1)
    else if name.isEmpty then some (Tag.localHandle, gs)
    else none
  else none

def handle? (gs : List Glyph) : Option (Directive × List Glyph) := do
  let (name, gs) ← handleName? (skipBlanks gs)
  if nextIn [' ', '\t'] gs then
    let (start, gs) ← Tag.fullPart? true (skipBlanks gs)
    if gapNext gs then some (.handle name start, gs) else none
  else none

/-- The directive after its percent sign, and the lines that follow. -/
def read? (gs : List Glyph) : Option (Directive × List Glyph) := do
  let (name, gs) := word gs
  if gapNext gs then
    let (d, gs) ←
      if text name = "YAML" then version? gs
      else if text name = "TAG" then handle? gs
      else none
    some (d, ← nextLine? gs)
  else none

end Directive

end Oncall.Yaml
