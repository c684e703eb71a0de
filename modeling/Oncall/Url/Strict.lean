import Oncall.Url

/-!
Addresses that have to be written as they are used: nothing is cleaned up or escaped, and what does
not fit the form is refused. An address is an absolute one, a bare authority, or a bare path, of at
most 65534 bytes.
-/

namespace Oncall.Url

open Parts

/-- What has been read of an authority. Colons and percent signs are those after the last sign `@`
and the brackets. -/
structure Authority where
  colons : Nat
  percent : Bool
  opened : Bool
  closed : Bool
  endsInAt : Bool
  deriving DecidableEq, Repr

namespace Authority

def start : Authority := ⟨0, false, false, false, false⟩

/-- Characters that mean nothing in particular. -/
def isPlain (c : Char) : Bool := c.isAlphanum || "!$&'()*+,-.;=_~".toList.contains c

/-- One character more. -/
def step (a : Authority) (c : Char) : Option Authority :=
  let a := { a with endsInAt := c = '@' }
  if c = ':' then if a.colons < 8 then some { a with colons := a.colons + 1 } else none
  else if c = '%' then some { a with percent := true }
  else if c = '@' then some { a with colons := 0, percent := false }
  else if c = '[' then if a.percent || a.opened then none else some { a with opened := true }
  else if c = ']' then
    if a.opened && !a.closed then some { a with closed := true, colons := 0, percent := false }
    else none
  else if isPlain c then some a
  else none

/-- Brackets are closed, one colon at most goes before a port, and a host follows the sign `@`. -/
def isComplete (a : Authority) : Bool :=
  a.opened = a.closed && a.colons ≤ 1 && !a.endsInAt && !a.percent

end Authority

def isAuthority (cs : List Char) : Bool :=
  (cs.foldlM Authority.step Authority.start).any Authority.isComplete

/-- Characters of a path. -/
def isPathChar (c : Char) : Bool :=
  let n := c.toNat
  n = 0x21 || (0x24 ≤ n && n ≤ 0x3B) || n = 0x3D || (0x40 ≤ n && n ≤ 0x5F) ||
    (0x61 ≤ n && n ≤ 0x7A) || n = 0x7C || n = 0x7E || 0x80 ≤ n || c = '"' || c = '{' || c = '}'

/-- Characters of a query. -/
def isQueryChar (c : Char) : Bool :=
  let n := c.toNat
  n = 0x21 || (0x24 ≤ n && n ≤ 0x3B) || n = 0x3D || (0x3F ≤ n && n ≤ 0x7E) || 0x80 ≤ n

/-- The longest address, in bytes. -/
def maxBytes : Nat := 65534

/-- A path with an optional query; a fragment is not looked at. -/
def isTarget (cs : List Char) : Bool :=
  let (path, query) := cut (· = '?') (cut (· = '#') cs).1
  path.all isPathChar && (query.drop 1).all isQueryChar

/-- The characters of a scheme. -/
def isSchemeChar (c : Char) : Bool := c.isAlphanum || "+-.~".toList.contains c

/-- The scheme of an absolute address and what follows it; a scheme has at most 64 characters, and
may have none. -/
def splitScheme? (cs : List Char) : Option (List Char × List Char) :=
  match cut (fun c => !isSchemeChar c) cs with
  | (scheme, ':' :: '/' :: '/' :: rest) => if scheme.length ≤ 64 then some (scheme, rest) else none
  | _ => none

/-- The scheme of an address that has one; that of the web is known in any spelling. -/
def strictScheme? (text : String) : Option String :=
  (splitScheme? text.toList).map fun p =>
    let known := String.ofList (lower p.1)
    if ["http", "https"].contains known then known else String.ofList p.1

/-- Whether a text has the form of an address. -/
def isStrict (text : String) : Bool :=
  text.utf8ByteSize ≤ maxBytes &&
    match text.toList with
    | [] => false
    | ['*'] => true
    | '/' :: path => isTarget ('/' :: path)
    | cs =>
      match splitScheme? cs with
      | none => isAuthority cs
      | some (_, rest) =>
        let (server, target) := cut (fun c => c = '/' || c = '?' || c = '#') rest
        !server.isEmpty && isAuthority server && isTarget target

end Oncall.Url
