import Oncall.Url

/-!
Pairs of texts in the query of a web address: `name=value` with ampersands between them. Letters,
digits and four signs stand for themselves, a plus sign for a space, and every other byte is
escaped.
-/

namespace Oncall.Form

def isPlain (b : UInt8) : Bool :=
  let c := Char.ofNat b.toNat
  b < 0x80 && (c.isAlphanum || c = '*' || c = '-' || c = '.' || c = '_')

def encodeByte (b : UInt8) : List Char :=
  if isPlain b then [Char.ofNat b.toNat] else if b = 0x20 then ['+'] else Url.percentByte b

def encodeText (s : String) : List Char := (Utf8.encode s.toList).flatMap encodeByte

def encodePair (p : String × String) : List Char := encodeText p.1 ++ '=' :: encodeText p.2

def encode : List (String × String) → List Char
  | [] => []
  | [p] => encodePair p
  | p :: ps => encodePair p ++ '&' :: encode ps

end Oncall.Form

namespace Oncall

/-- The address with pairs added to its query. -/
def Url.addPairs (u : Url) (ps : List (String × String)) : Url :=
  match ps, u.query with
  | [], _ => u
  | ps, none | ps, some [] => { u with query := some (Form.encode ps) }
  | ps, some q => { u with query := some (q ++ '&' :: Form.encode ps) }

end Oncall
