import Oncall.Yaml.Node
import Oncall.Yaml.Token

/-!
The documents of a YAML text from its tokens. Missing items, keys and values are empty scalars. The
first document needs no mark at its start, every other one does.
-/

namespace Oncall.Yaml

/-- The starts of tags by handle. -/
abbrev Handles := List (String × String)

/-- The handles that every document has, unless it says otherwise. -/
def Handles.standard : Handles := [("!", "!"), ("!!", "tag:yaml.org,2002:")]

/-- Reads what comes first in some tokens, and leaves the others. -/
abbrev Reading? (α : Type) := List Token → Option (α × List Token)

namespace Handles

/-- The full tag. -/
def resolve? (handles : Handles) (t : Tag) : Option String :=
  if t.handle.isEmpty then some t.rest else (handles.lookup t.handle).map (· ++ t.rest)

/-- Anchor and tag of a node, in any order. -/
def properties? (handles : Handles) : Reading? Properties
  | .anchor n :: .tag t :: ts | .tag t :: .anchor n :: ts =>
    (handles.resolve? t).map fun tag => (⟨some n, some tag⟩, ts)
  | .anchor n :: ts => some (⟨some n, none⟩, ts)
  | .tag t :: ts => (handles.resolve? t).map fun tag => (⟨none, some tag⟩, ts)
  | ts => some (.bare, ts)

end Handles

/-- The tag that is a mere exclamation mark says nothing about a scalar that is there. -/
def Properties.ofScalar (p : Properties) : Properties :=
  if p.tag = some "!" then { p with tag := none } else p

namespace Node

section

variable (node? : Reading? Node)

/-- A node, unless one of some tokens shows that it is missing. -/
def unless? (stops : Token → Bool) : Reading? Node
  | [] => node? []
  | t :: ts => if stops t then some (empty .bare, t :: ts) else node? (t :: ts)

/-- The items of a list that is indented. -/
def items? : Nat → List Node → Reading? (List Node)
  | _, done, .blockEnd :: ts => some (done.reverse, ts)
  | n + 1, done, .dash :: ts => do
    let (v, ts) ← unless? node? (fun t => t = .dash || t = .blockEnd) ts
    items? n (v :: done) ts
  | _, _, _ => none

/-- The items of a list in the column of its key. -/
def itemsInPlace? : Nat → List Node → Reading? (List Node)
  | n + 1, done, .dash :: ts => do
    let stops (t : Token) := t = .dash || t = .key || t = .value || t = .blockEnd
    let (v, ts) ← unless? node? stops ts
    itemsInPlace? n (v :: done) ts
  | _, done, ts => some (done.reverse, ts)

/-- A value after its sign, if that is there. -/
def value? (stops : Token → Bool) : Reading? Node
  | .value :: ts => unless? node? stops ts
  | ts => some (empty .bare, ts)

def isMapSign (t : Token) : Bool := t = .key || t = .value || t = .blockEnd

/-- The members of a mapping outside of brackets. -/
def members? : Nat → List (Node × Node) → Reading? (List (Node × Node))
  | _, done, .blockEnd :: ts => some (done.reverse, ts)
  | n + 1, done, .key :: ts => do
    let (k, ts) ← unless? node? isMapSign ts
    let (v, ts) ← value? node? isMapSign ts
    members? n ((k, v) :: done) ts
  | _, _, _ => none

/-- Between brackets, a comma stands before every item but the first. -/
def afterComma? (isFirst : Bool) (ts : List Token) : Option (List Token) :=
  if isFirst then some ts
  else
    match ts with
    | .comma :: ts => some ts
    | _ => none

def endsItem (t : Token) : Bool := t = .comma || t = .closeList

/-- A key with its value as an item of a list. Where the key is missing, the token that shows this
is passed over. -/
def pair? (ts : List Token) : Option (Node × List Token) := do
  let (k, ts) ← match ts with
    | t :: ts =>
      if t = .value || endsItem t then some (empty .bare, ts) else node? (t :: ts)
    | [] => none
  let (v, ts) ← value? node? endsItem ts
  some (.map .bare [(k, v)], ts)

/-- The items of a list in brackets. -/
def bracketItems? : Nat → Bool → List Node → Reading? (List Node)
  | _, _, done, .closeList :: ts => some (done.reverse, ts)
  | 0, _, _, _ => none
  | n + 1, isFirst, done, ts => do
    match ← afterComma? isFirst ts with
    | .closeList :: ts => some (done.reverse, ts)
    | .key :: ts =>
      let (v, ts) ← pair? node? ts
      bracketItems? n false (v :: done) ts
    | ts =>
      let (v, ts) ← node? ts
      bracketItems? n false (v :: done) ts

def endsMember (t : Token) : Bool := t = .comma || t = .closeMap

/-- The members of a mapping in braces; one without the sign of a key has no value. -/
def bracketMembers? : Nat → Bool → List (Node × Node) → Reading? (List (Node × Node))
  | _, _, done, .closeMap :: ts => some (done.reverse, ts)
  | 0, _, _, _ => none
  | n + 1, isFirst, done, ts => do
    match ← afterComma? isFirst ts with
    | .closeMap :: ts => some (done.reverse, ts)
    | .key :: ts =>
      let (k, ts) ← unless? node? (fun t => t = .value || endsMember t) ts
      let (v, ts) ← value? node? endsMember ts
      bracketMembers? n false ((k, v) :: done) ts
    | ts =>
      let (k, ts) ← node? ts
      bracketMembers? n false ((k, empty .bare) :: done) ts

end

/-- A node of at most so many levels. Only outside of brackets may it be indented, and only in a
mapping may it be a list in the column of its key. -/
def read? (handles : Handles) : Nat → (isBlock isInMap : Bool) → Reading? Node
  | 0, _, _, _ => none
  | _, _, _, .reference n :: ts => some (.reference n, ts)
  | levels + 1, isBlock, isInMap, ts => do
    let (p, ts) ← handles.properties? ts
    match isBlock, isInMap, ts with
    | _, _, .scalar s :: ts => some (.scalar p.ofScalar s, ts)
    | _, true, .dash :: _ =>
      let (items, ts) ← itemsInPlace? (read? handles levels true false) ts.length [] ts
      some (.list p items, ts)
    | true, _, .blockList :: ts =>
      let (items, ts) ← items? (read? handles levels true false) ts.length [] ts
      some (.list p items, ts)
    | true, _, .blockMap :: ts =>
      let (members, ts) ← members? (read? handles levels true true) ts.length [] ts
      some (.map p members, ts)
    | _, _, .openList :: ts =>
      let (items, ts) ← bracketItems? (read? handles levels false false) ts.length true [] ts
      some (.list p items, ts)
    | _, _, .openMap :: ts =>
      let (members, ts) ← bracketMembers? (read? handles levels false false) ts.length true [] ts
      some (.map p members, ts)
    | _, _, ts => if p.isBare then none else some (empty p, ts)

end Node

/-- The directives before a document; each version and handle may be given once. -/
def directives? : Bool → Handles → Reading? Handles
  | hasVersion, handles, .directive d :: ts =>
    match d with
    | .version major minor =>
      if hasVersion || major ≠ 1 || (minor ≠ 1 && minor ≠ 2) then none
      else directives? true handles ts
    | .handle name start =>
      if (handles.lookup name).isSome then none
      else directives? hasVersion ((name, start) :: handles) ts
  | _, handles, ts => some (handles, ts)

def isBetweenDocuments : Token → Bool
  | .directive _ | .documentStart | .documentEnd => true
  | _ => false

/-- The content of a document after its mark; there may be none. -/
def content? (handles : Handles) : Reading? Node
  | [] => some (.empty .bare, [])
  | t :: ts =>
    if isBetweenDocuments t then some (.empty .bare, t :: ts)
    else Node.read? handles (ts.length + 2) true false (t :: ts)

/-- The documents from here on, each with its mark; marks of ends stand between them. -/
def markedDocuments? : Nat → List Node → List Token → Option (List Node)
  | 0, _, _ => none
  | n + 1, done, ts =>
    match ts.dropWhile (· = .documentEnd) with
    | [] => some done.reverse
    | ts => do
      match ← directives? false [] ts with
      | (handles, .documentStart :: ts) =>
        let (root, ts) ← content? (handles ++ .standard) ts
        markedDocuments? n (root :: done) ts
      | _ => none

/-- The documents of a text. -/
def documents? : List Token → Option (List Node)
  | [] => some []
  | t :: ts =>
    if t ≠ .documentEnd && isBetweenDocuments t then markedDocuments? (ts.length + 2) [] (t :: ts)
    else do
      let (root, ts) ← Node.read? .standard (ts.length + 2) true false (t :: ts)
      markedDocuments? (ts.length + 1) [root] ts

end Oncall.Yaml
