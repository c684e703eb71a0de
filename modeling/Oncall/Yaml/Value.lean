import Oncall.Decimal.Binary64

/-!
What YAML documents mean. Mappings may have keys of any kind; two keys are the same if they mean the
same, whatever the order of members inside them.
-/

namespace Oncall.Yaml

/-- A floating-point number; zeros are equal whatever their sign. -/
inductive Real where
  | finite (negative : Bool) (x : Binary64)
  | infinite (negative : Bool)
  | notANumber
  deriving DecidableEq, Repr

def Real.same : Real → Real → Bool
  | .finite m x, .finite n y => x = y && (m = n || x.isZero)
  | x, y => x = y

inductive Value where
  | null
  | bool (b : Bool)
  | integer (n : Int)
  | real (x : Real)
  | text (s : String)
  | list (items : List Value)
  | map (members : List (Value × Value))
  | tagged (tag : String) (v : Value)

namespace Value

/-- Whether two values of at most so many levels mean the same. -/
def same : Nat → Value → Value → Bool
  | _, .null, .null => true
  | _, .bool a, .bool b => a = b
  | _, .integer a, .integer b => a = b
  | _, .real a, .real b => a.same b
  | _, .text a, .text b => a = b
  | levels + 1, .list a, .list b =>
    a.length = b.length && (a.zip b).all fun p => same levels p.1 p.2
  | levels + 1, .map a, .map b =>
    a.length = b.length &&
      a.all fun m => b.any fun n => same levels m.1 n.1 && same levels m.2 n.2
  | levels + 1, .tagged s a, .tagged t b => s = t && same levels a b
  | _, _, _ => false

/-- A mapping, unless two of its keys are the same. -/
def map? (levels : Nat) (members : List (Value × Value)) : Option Value :=
  if (members.map (·.1)).Pairwise fun k l => same levels k l = false then some (.map members)
  else none

/-- The value without the tags around it. -/
def untagged : Value → Value
  | .tagged _ v => v.untagged
  | v => v

end Value

end Oncall.Yaml
