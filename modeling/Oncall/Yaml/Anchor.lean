import Oncall.Yaml.Glyph

/-!
Anchors name nodes for aliases further on. A document numbers the names of its anchors: a name gets
as its number how many different names there were before. A name that comes again gets a new number,
which is also that of the next new name; of several nodes with one number the last one counts.
-/

namespace Oncall.Yaml

/-- The names of the anchors so far, each with its newest number. -/
abbrev Anchors := List (String × Nat)

namespace Anchors

/-- The number of a further anchor with a name, and the anchors with that one. -/
def define (names : Anchors) (name : String) : Nat × Anchors :=
  (names.length, (name, names.length) :: names.filter fun e => e.1 ≠ name)

/-- The name of an anchor or alias after its sign. -/
def name? (gs : List Glyph) : Option (String × List Glyph) :=
  let (name, gs) := word gs
  if !name.isEmpty && (gapNext gs || nextIn ['?', ':', ',', ']', '}', '%', '@', '\x60'] gs) then
    some (text name, gs)
  else none

end Anchors

end Oncall.Yaml
