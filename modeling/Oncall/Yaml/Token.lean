import Oncall.Yaml.Directive
import Oncall.Yaml.Scalar

/-!
What configuration text in YAML consists of, once indentation has been turned into starts and ends
of lists and mappings and every key is marked as one.
-/

namespace Oncall.Yaml

inductive Token where
  | directive (d : Directive)
  | documentStart
  | documentEnd
  | blockList
  | blockMap
  | blockEnd
  | openList
  | closeList
  | openMap
  | closeMap
  | dash
  | comma
  | key
  | value
  | reference (number : Nat)
  | anchor (number : Nat)
  | tag (t : Tag)
  | scalar (s : Scalar)
  deriving DecidableEq, Repr

end Oncall.Yaml
