import Oncall.Text.Hidden

/-!
Text as diagnostics show it: strings between double quotes with every unclear character spelled out,
and records as a name with its fields in order.
-/

namespace Oncall.Quoted

/-- How a character is written between the quotes. -/
def escape (c : Char) : List Char :=
  if c = '"' ∨ c = '\\' then ['\\', c]
  else if c = '\t' then ['\\', 't']
  else if c = '\r' then ['\\', 'r']
  else if c = '\n' then ['\\', 'n']
  else if c.toNat = 0 then ['\\', '0']
  else if isHidden c then ['\\', 'u', '{'] ++ Nat.toDigits 16 c.toNat ++ ['}']
  else [c]

def encode (cs : List Char) : List Char := '"' :: cs.flatMap escape ++ ['"']

end Oncall.Quoted

namespace Oncall

/-- The text in quotes. -/
def quoted (s : String) : String := String.ofList (Quoted.encode s.toList)

/-- A record's name and its fields, each already as text. -/
def shownRecord (name : String) (fields : List (String × String)) : String :=
  name ++ " \x7b " ++ ", ".intercalate (fields.map fun f => f.1 ++ ": " ++ f.2) ++ " \x7d"

end Oncall
