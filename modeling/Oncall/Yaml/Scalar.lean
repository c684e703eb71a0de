import Oncall.Yaml.Glyph

/-!
Scalars, and the gaps inside them. A single line break between two words stands for a space, and of
several the first one is dropped.
-/

namespace Oncall.Yaml

/-- A plain scalar may stand for something other than its text. -/
structure Scalar where
  text : String
  isPlain : Bool
  deriving DecidableEq, Repr

/-- Blanks and line breaks between two words, in reverse. Blanks count only where there is no line
break; an escaped one is not counted itself. -/
inductive Gap where
  | blanks (cs : List Char)
  | lines (first : Option Char) (more : List Char)

namespace Gap

def none : Gap := .blanks []

def isNone : Gap → Bool
  | .blanks [] => true
  | _ => false

def isLines : Gap → Bool
  | .lines _ _ => true
  | _ => false

/-- One blank or line break more. -/
def add (c : Char) : Gap → Gap
  | .blanks cs => if isBreak c then .lines (some c) [] else .blanks (c :: cs)
  | .lines first more => if isBreak c then .lines first (c :: more) else .lines first more

/-- What the gap stands for, in reverse. -/
def folded : Gap → List Char
  | .blanks cs => cs
  | .lines (some '\n') [] => [' ']
  | .lines (some '\n') more => more
  | .lines first more => more ++ first.toList

end Gap

end Oncall.Yaml
