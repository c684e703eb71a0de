import Oncall.Text.Base64
import Oncall.Text.Parts

/-!
Binary data in text: sections between two lines with a label, with base64 in between. What stands
around them is skipped. `sections?` reads them wherever they start, `lineSections?` only where a
line starts, and both fail if one is malformed.
-/

namespace Oncall.Pem

structure Section where
  label : String
  content : Bytes
  deriving DecidableEq, Repr

def ascii (s : String) : Bytes := Utf8.encode s.toList

def text? (bs : Bytes) : Option (List Char) := Utf8.decode? bs

/-- What stands before and after the first place where a mark is. -/
def splitAt? (mark : Bytes) : Bytes → Option (Bytes × Bytes)
  | [] => none
  | b :: bs =>
    if mark.isPrefixOf (b :: bs) then some ([], (b :: bs).drop mark.length)
    else (splitAt? mark bs).map fun p => (b :: p.1, p.2)

def isWhite (c : Char) : Bool := c.isWhitespace

def lines (cs : List Char) : List (List Char) := Parts.split (· = '\n') cs

/-- Base64 in several lines, with blanks at their ends. -/
def decodeLines? (cs : List Char) : Option Bytes :=
  Base64.decode? ((lines cs).flatMap (Parts.trimEnd isWhite))

/-- Headers, each with a colon, end at the first empty line. -/
def content? (body : Bytes) : Option Bytes := do
  let (headers, data) := match splitAt? (ascii "\n\n") body with
    | some p => p
    | none => (splitAt? (ascii "\r\n\r\n") body).getD ([], body)
  let headers ← text? headers
  if headers.isEmpty || (lines headers).all (·.contains ':') then decodeLines? (← text? data)
  else none

/-- The next section, which may be malformed, and what follows it. -/
def next? (bs : Bytes) : Option (Option Section × Bytes) := do
  let (_, bs) ← splitAt? (ascii "-----BEGIN ") bs
  let (label, bs) ← splitAt? (ascii "-----") bs
  let (body, bs) ← splitAt? (ascii "-----END ") bs
  let (ending, bs) ← splitAt? (ascii "-----") bs
  let read? : Option Section := do
    if label = ending && !label.isEmpty then
      let body := body.dropWhile fun b => isWhite (Char.ofNat b.toNat)
      some ⟨String.ofList (← text? label), ← content? body⟩
    else none
  some (read?, bs)

/-- At most `n` sections. -/
def sectionsUpTo? : Nat → Bytes → Option (List Section)
  | 0, _ => some []
  | n + 1, bs =>
    match next? bs with
    | none => some []
    | some (none, _) => none
    | some (some s, bs) => (sectionsUpTo? n bs).map (s :: ·)

def sections? (bs : Bytes) : Option (List Section) := sectionsUpTo? bs.length bs

/-- The sections so far in reverse, and the one that is open with its lines. -/
structure Reader where
  done : List Section
  opened : Option (List Char × List Char)

/-- The label in the line where a section starts. -/
def startLabel? (line : List Char) : Option (List Char) :=
  let rest := line.drop "-----BEGIN ".length
  let dashes := rest.reverse.takeWhile (· = '-')
  if dashes.length = 5 then some (rest.take (rest.length - 5)) else none

def Reader.step (r : Reader) (line : List Char) : Option Reader :=
  let line := Parts.trimEnd (fun c => c = '\r' || c = ' ') line
  if "-----BEGIN ".toList.isPrefixOf line then
    (startLabel? line).map fun label => { r with opened := some (label, []) }
  else
    match r.opened with
    | none => some r
    | some (label, data) =>
      if ("-----END ".toList ++ label ++ "-----".toList).isPrefixOf line then
        (Base64.decode? data).map fun content => ⟨⟨String.ofList label, content⟩ :: r.done, none⟩
      else some { r with opened := some (label, data ++ line) }

def lineSections? (bs : Bytes) : Option (List Section) := do
  let r ← (lines (Utf8.decodeLossy bs)).foldlM Reader.step ⟨[], none⟩
  if r.opened.isSome then none else some r.done.reverse

end Oncall.Pem
