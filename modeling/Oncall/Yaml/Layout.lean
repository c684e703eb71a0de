import Oncall.Yaml.Anchor
import Oncall.Yaml.Token

/-!
The state of reading YAML between two tokens. Indentation opens and closes block lists and mappings.
A token that may turn out to be a key is remembered until a colon confirms it or until it is too far
back; then the marks of the key are put in front of it after the fact.
-/

namespace Oncall.Yaml

/-- Where a token is that may be a key: how many tokens there are before it, and its place. -/
structure PendingKey where
  position : Nat
  line : Nat
  column : Nat
  required : Bool
  deriving DecidableEq, Repr

/-- Keys are on one line with their colon, and not further than this from it. -/
def maxKeyLength : Nat := 1024

/-- Whether a key cannot be confirmed at a place any more. -/
def PendingKey.isStale (line column : Nat) (k : PendingKey) : Bool :=
  k.line < line || k.column + maxKeyLength < column

/-- How many lists and mappings may be inside one another. -/
def maxLevels : Nat := 128

/-- The tokens so far in reverse with their number, the columns of the open block lists and
mappings, the key that may be pending here and those outside of the open brackets, whether a key may
start here, and the anchors of the document. -/
structure Layout where
  tokens : List Token
  count : Nat
  indents : List Nat
  pending : Option PendingKey
  outer : List (Option PendingKey)
  keyAllowed : Bool
  anchors : Anchors

namespace Layout

def start : Layout := ⟨[], 0, [], none, [], true, []⟩

/-- Between brackets indentation means nothing. -/
def inFlow (l : Layout) : Bool := !l.outer.isEmpty

/-- The first column to the right of the innermost block list or mapping. -/
def least (l : Layout) : Nat :=
  match l.indents with
  | [] => 0
  | i :: _ => i + 1

def levels (l : Layout) : Nat := l.indents.length + l.outer.length

def emit (t : Token) (l : Layout) : Layout :=
  { l with tokens := t :: l.tokens, count := l.count + 1 }

/-- Puts a token after the first `position` ones. -/
def insert (position : Nat) (t : Token) (l : Layout) : Layout :=
  let newer := l.count - position
  { l with
    tokens := l.tokens.take newer ++ t :: l.tokens.drop newer
    count := l.count + 1 }

def allowKey (allowed : Bool) (l : Layout) : Layout := { l with keyAllowed := allowed }

/-- Closes the innermost block lists and mappings as long as their columns are among some. -/
def close (isAmong : Nat → Bool) (l : Layout) : Layout :=
  if l.inFlow then l
  else
    let ends := (l.indents.takeWhile isAmong).map fun _ => Token.blockEnd
    { l with
      tokens := ends ++ l.tokens
      count := l.count + ends.length
      indents := l.indents.dropWhile isAmong }

/-- Closes what starts further right than a column. -/
def closeTo (column : Nat) : Layout → Layout := close (column < ·)

def closeAll : Layout → Layout := close fun _ => true

/-- Opens a block list or mapping at a column, if one may start there, with its token after the
first `position` ones. -/
def openAt (column position : Nat) (t : Token) (l : Layout) : Option Layout :=
  if l.inFlow || column < l.least then some l
  else if maxLevels ≤ l.levels then none
  else some { l.insert position t with indents := column :: l.indents }

/-- Gives up the pending key; where nothing but a key could stand, there had to be one. -/
def dropKey (l : Layout) : Option Layout :=
  if l.pending.any (·.required) then none else some { l with pending := none }

def fresh? (line column : Nat) : Option PendingKey → Option (Option PendingKey)
  | none => some none
  | some k =>
    if !k.isStale line column then some (some k) else if k.required then none else some none

/-- Gives up all keys that are too far back from a place. -/
def dropStale (line column : Nat) (l : Layout) : Option Layout := do
  some { l with
    pending := ← fresh? line column l.pending
    outer := ← l.outer.mapM (fresh? line column) }

/-- The next token, which starts at a place, may be a key. -/
def saveKey (g : Glyph) (l : Layout) : Option Layout :=
  if l.keyAllowed then do
    let l ← l.dropKey
    let required := !l.inFlow && l.indents.head? = some g.column
    some { l with pending := some ⟨l.count, g.line, g.column, required⟩ }
  else some l

/-- A bracket opens. -/
def enter (t : Token) (g : Glyph) (l : Layout) : Option Layout := do
  let l ← l.saveKey g
  if maxLevels ≤ l.levels then none
  else some ({ l with pending := none, outer := l.pending :: l.outer, keyAllowed := true }.emit t)

/-- A bracket closes. -/
def leave (t : Token) (l : Layout) : Option Layout := do
  let l ← l.dropKey
  let l := match l.outer with
    | [] => l
    | k :: outer => { l with pending := k, outer }
  some ((l.allowKey false).emit t)

/-- A comma between brackets. -/
def comma (l : Layout) : Option Layout := do
  some (((← l.dropKey).allowKey true).emit .comma)

/-- The dash of a block list; between brackets it has no meaning, and is refused later. -/
def dash (g : Glyph) (l : Layout) : Option Layout := do
  let l ←
    if l.inFlow then some l
    else if l.keyAllowed then l.openAt g.column l.count .blockList
    else none
  some (((← l.dropKey).allowKey true).emit .dash)

/-- Outside of brackets, a sign of a mapping may start one. -/
def startMap (g : Glyph) (l : Layout) : Option Layout :=
  if l.inFlow then some l
  else if l.keyAllowed then l.openAt g.column l.count .blockMap
  else none

/-- The question mark before a key. -/
def questionMark (g : Glyph) (l : Layout) : Option Layout := do
  let l ← (← l.startMap g).dropKey
  some ((l.allowKey (!l.inFlow)).emit .key)

/-- The colon before a value; it confirms the key that is pending. -/
def colon (g : Glyph) (l : Layout) : Option Layout :=
  match l.pending with
  | some k => do
    let l ← (l.insert k.position .key).openAt k.column k.position .blockMap
    some ({ l with pending := none, keyAllowed := false }.emit .value)
  | none => do
    let l ← l.startMap g
    some ((l.allowKey (!l.inFlow)).emit .value)

/-- Something outside of all lists and mappings: a directive, or the start or end of a document. -/
def atTop (t : Token) (l : Layout) : Option Layout := do
  some (((← l.closeAll.dropKey).allowKey false).emit t)

/-- A document has anchors of its own. -/
def documentMark (t : Token) (l : Layout) : Option Layout := do
  some { ← l.atTop t with anchors := [] }

/-- A token after which no key may start before the next sign. -/
def word (g : Glyph) (t : Token) (l : Layout) : Option Layout := do
  some (((← l.saveKey g).allowKey false).emit t)

def anchor (g : Glyph) (name : String) (l : Layout) : Option Layout :=
  let (number, anchors) := l.anchors.define name
  { l with anchors }.word g (.anchor number)

def reference (g : Glyph) (name : String) (l : Layout) : Option Layout := do
  l.word g (.reference (← l.anchors.lookup name))

end Layout

end Oncall.Yaml
