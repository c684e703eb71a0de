import Oncall.Text.Parts
import Oncall.Text.Utf8

/-!
Web addresses as far as a request needs them: the authority to connect to, the login that stands in
front of it, and the target to ask for. Reading cleans the text as web clients do: blanks around it
and line breaks in it are dropped, backslashes count as slashes, dot segments are resolved, and
characters that have no place in a path or query are escaped.
-/

namespace Oncall

/-- Who asks, as an address may say in front of its authority. -/
structure Login where
  user : String
  password : String
  deriving DecidableEq, Repr

/-- The path starts with a slash; path and query are escaped. -/
structure Url where
  secure : Bool
  authority : List Char
  login : Option Login
  path : List Char
  query : Option (List Char)
  deriving DecidableEq, Repr

namespace Url

open Parts

/-- A byte as a percent sign and two hexadecimal digits. -/
def percentByte (b : UInt8) : List Char :=
  ['%', (Nat.digitChar (b.toNat / 16)).toUpper, (Nat.digitChar (b.toNat % 16)).toUpper]

def percentChar (c : Char) : List Char := (Utf8.encodeChar c).flatMap percentByte

/-- Controls, and everything from the last ASCII control on. -/
def isOutside (c : Char) : Bool := c.toNat < 0x20 || 0x7F ≤ c.toNat

def escapesInPath (c : Char) : Bool :=
  isOutside c || [' ', '"', '#', '<', '>', '?', '\x60', '{', '}'].contains c

def escapesInQuery (c : Char) : Bool := isOutside c || [' ', '"', '#', '<', '>', '\x27'].contains c

def escape (escapes : Char → Bool) (cs : List Char) : List Char :=
  cs.flatMap fun c => if escapes c then percentChar c else [c]

def hexDigit? (c : Char) : Option Nat :=
  let n := c.toNat
  if 0x30 ≤ n ∧ n ≤ 0x39 then some (n - 0x30)
  else if 0x41 ≤ n ∧ n ≤ 0x46 then some (n - 0x37)
  else if 0x61 ≤ n ∧ n ≤ 0x66 then some (n - 0x57)
  else none

/-- The bytes that an escaped text stands for. -/
def percentDecode : List Char → Bytes
  | '%' :: a :: b :: cs =>
    match hexDigit? a, hexDigit? b with
    | some m, some n => .ofNat (m * 16 + n) :: percentDecode cs
    | _, _ => 0x25 :: percentDecode (a :: b :: cs)
  | c :: cs => Utf8.encodeChar c ++ percentDecode cs
  | [] => []

def isBlankOrControl (c : Char) : Bool := c.toNat ≤ 0x20

def isLineBreakOrTab (c : Char) : Bool := c = '\t' || c = '\n' || c = '\r'

/-- The text without blanks and controls around it and without line breaks and tabs anywhere. -/
def clean (cs : List Char) : List Char :=
  (trim isBlankOrControl cs).filter fun c => !isLineBreakOrTab c

def isSlash (c : Char) : Bool := c = '/' || c = '\\'

def lower (cs : List Char) : List Char := cs.map Char.toLower

def isDot (s : List Char) : Bool := ["." , "%2e"].contains (String.ofList (lower s))

def isDoubleDot (s : List Char) : Bool :=
  ["..", ".%2e", "%2e.", "%2e%2e"].contains (String.ofList (lower s))

/-- A letter with a colon or bar, as a file system names a drive. -/
def isDriveLetter (s : List Char) : Bool :=
  match s with
  | [letter, mark] => letter.isAlpha && (mark = ':' || mark = '|')
  | _ => false

/-- The segments, last first, without the last; a drive letter is never left. -/
def parent : List (List Char) → List (List Char)
  | [] => []
  | s :: rest => if isDriveLetter s then s :: rest else rest

/-- Resolves dot segments; `done` holds the segments so far in reverse. A dot segment at the end
leaves an empty one. -/
def resolveDots (done : List (List Char)) : List (List Char) → List (List Char)
  | [] => done.reverse
  | [s] =>
    if isDoubleDot s then ([] :: parent done).reverse
    else if isDot s then ([] :: done).reverse
    else (s :: done).reverse
  | s :: rest =>
    if isDoubleDot s then resolveDots (parent done) rest
    else if isDot s then resolveDots done rest
    else resolveDots (s :: done) rest

/-- The path of the text after the authority; a missing one is the root. -/
def pathOf (cs : List Char) : List Char :=
  let cs := match cs with
    | c :: rest => if isSlash c then rest else c :: rest
    | [] => []
  (resolveDots [] (split isSlash cs)).flatMap fun s => '/' :: escape escapesInPath s

/-- No host contains one of these. -/
def isForbiddenInHost (c : Char) : Bool :=
  isOutside c ||
    [' ', '"', '#', '%', '/', ':', '<', '>', '?', '@',
      '[', '\\', ']', '^', '\x60', '{', '|', '}'].contains c

/-- Digits of a port, at most 65535. -/
def port? (cs : List Char) : Option Nat :=
  if cs.all Char.isDigit then
    let n := cs.foldl (fun n c => n * 10 + (c.toNat - '0'.toNat)) 0
    if n ≤ 65535 then some n else none
  else none

/-- Host and port as they are connected to: lower case, and without the scheme's own port. -/
def authority? (secure : Bool) (cs : List Char) : Option (List Char) :=
  let server := afterLast (· = '@') cs
  let (host, rest) := match server with
    | '[' :: _ => let (h, r) := cut (· = ']') server; (h ++ r.take 1, r.drop 1)
    | _ => cut (· = ':') server
  let isLiteral := host.head? = some '['
  if host.isEmpty || (!isLiteral && host.any isForbiddenInHost) ||
      (isLiteral && host.getLast? ≠ some ']') then none
  else
    match rest with
    | [] => some (lower host)
    | ':' :: digits =>
      match port? digits with
      | none => none
      | some n =>
        if digits.isEmpty || n = (if secure then 443 else 80) then some (lower host)
        else some (lower host ++ ':' :: Nat.toDigits 10 n)
    | _ => none

/-- The text that an escaped text stands for, if its bytes are one. -/
def unescape? (cs : List Char) : Option String :=
  (Utf8.decode? (percentDecode cs)).map String.ofList

/-- The login before the last sign `@`, if it says anything. One whose user is no text is none, and
a password that is no text is left out. -/
def login? (cs : List Char) : Option Login := do
  let (user, rest) := cut (· = ':') (beforeLast (· = '@') cs)
  let user ← unescape? user
  let password := (unescape? (rest.drop 1)).getD ""
  if user.isEmpty && password.isEmpty then none else some ⟨user, password⟩

/-- The scheme of a web address and what follows it with all its slashes. -/
def scheme? (cs : List Char) : Option (Bool × List Char) :=
  let (name, rest) := cut (· = ':') cs
  match rest with
  | ':' :: rest =>
    if lower name = "http".toList then some (false, rest.dropWhile isSlash)
    else if lower name = "https".toList then some (true, rest.dropWhile isSlash)
    else none
  | _ => none

/-- Reads a web address; none if the text is no such address. The fragment is left out. -/
def parse? (text : String) : Option Url := do
  let (secure, rest) ← scheme? (clean text.toList)
  let rest := (cut (· = '#') rest).1
  let (server, rest) := cut (fun c => isSlash c || c = '?') rest
  let authority ← authority? secure server
  let (path, rest) := cut (· = '?') rest
  let query := match rest with
    | [] => none
    | _ :: q => some (escape escapesInQuery q)
  some ⟨secure, authority, login? server, pathOf path, query⟩

/-- What a request asks the authority for. -/
def target (u : Url) : String :=
  String.ofList (u.path ++ match u.query with
    | none => []
    | some q => '?' :: q)

end Url

/-- The text without slashes at its end. -/
def trimEndSlashes (s : String) : String := String.ofList (Parts.trimEnd (· = '/') s.toList)

/-- The text without slashes at its start. -/
def trimStartSlashes (s : String) : String := String.ofList (Parts.trimStart (· = '/') s.toList)

end Oncall
