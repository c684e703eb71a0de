import Oncall.Yaml.Layout
import Oncall.Yaml.Node.OfTokens
import Oncall.Yaml.Token.Scan
import Oncall.Yaml.Value.OfScalar

/-!
The values of documents. An alias stands for the node with its anchor, which may have further
aliases in it; how often aliases are followed and how deep values may be is limited, so every
document has a value or none.
-/

namespace Oncall.Yaml.Value

/-- How many times an alias may still be followed. -/
abbrev Limited (α : Type) := StateT Nat Option α

/-- How often a document may follow aliases for each of its nodes. -/
def followsPerNode : Nat := 100

/-- The node that an alias stands for. -/
def follow (anchors : List (Nat × Node)) : Node → Limited Node
  | .reference n => do
    match ← get with
    | 0 => failure
    | left + 1 =>
      set left
      match anchors.lookup n with
      | some node => pure node
      | none => failure
  | node => pure node

def taggedAs (tag : Option String) (v : Value) : Value := (localName? tag).elim v (.tagged · v)

def liftOption {α : Type} (a : Option α) : Limited α := fun n => a.map (·, n)

/-- Enough levels to compare values, of which every one may have a tag. -/
def comparedLevels : Nat := 2 * maxLevels + 2

/-- The value of a node of at most so many levels. -/
def ofNode (anchors : List (Nat × Node)) : Nat → Node → Limited Value
  | 0, node => do
    match ← follow anchors node with
    | .scalar p s => liftOption (ofScalar? p.tag s)
    | _ => failure
  | levels + 1, node => do
    match ← follow anchors node with
    | .reference _ => failure
    | .scalar p s => liftOption (ofScalar? p.tag s)
    | .list p items =>
      let items ← items.mapM (ofNode anchors levels)
      pure (taggedAs p.tag (.list items))
    | .map p members =>
      let members ← members.mapM fun m => do
        let k ← ofNode anchors levels m.1
        let v ← ofNode anchors levels m.2
        pure (k, v)
      liftOption ((map? comparedLevels members).map (taggedAs p.tag))

/-- The value of a document. -/
def ofDocument? (root : Node) : Option Value :=
  let follows := root.size (maxLevels + 1) * followsPerNode
  ((ofNode (root.anchored (maxLevels + 1)).reverse maxLevels root).run follows).map (·.1)

/-- The values of the documents of a text; the empty text is one without a value. -/
def ofText? (cs : List Char) : Option (List Value) := do
  match ← documents? (← tokens? cs) with
  | [] => some [.null]
  | roots => roots.mapM ofDocument?

end Oncall.Yaml.Value
