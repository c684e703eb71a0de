import Oncall.Yaml.Scalar

/-!
Documents in YAML as trees of what was written: aliases are not followed, and scalars not
interpreted.
-/

namespace Oncall.Yaml

/-- What may be said of a node in front of it. Anchors are known by their numbers. -/
structure Properties where
  anchor : Option Nat
  tag : Option String
  deriving DecidableEq, Repr

inductive Node where
  | reference (number : Nat)
  | scalar (p : Properties) (s : Scalar)
  | list (p : Properties) (items : List Node)
  | map (p : Properties) (members : List (Node × Node))

def Properties.bare : Properties := ⟨none, none⟩

def Properties.isBare (p : Properties) : Bool := p.anchor.isNone && p.tag.isNone

namespace Node

/-- What stands where nothing is written. -/
def empty (p : Properties) : Node := .scalar p ⟨"", true⟩

/-- The nodes with anchors in order of their starts, down to some levels of lists and mappings. -/
def anchored : Nat → Node → List (Nat × Node)
  | _, .reference _ => []
  | _, .scalar p s => p.anchor.toList.map (·, .scalar p s)
  | 0, _ => []
  | levels + 1, .list p items =>
    p.anchor.toList.map (·, .list p items) ++ items.flatMap (anchored levels)
  | levels + 1, .map p members =>
    p.anchor.toList.map (·, .map p members) ++
      members.flatMap fun m => anchored levels m.1 ++ anchored levels m.2

/-- How many starts, ends and single nodes there are, down to some levels. -/
def size : Nat → Node → Nat
  | _, .reference _ | _, .scalar _ _ | 0, _ => 1
  | levels + 1, .list _ items => (items.map (size levels)).sum + 2
  | levels + 1, .map _ members =>
    (members.map fun m => size levels m.1 + size levels m.2).sum + 2

end Node

end Oncall.Yaml
