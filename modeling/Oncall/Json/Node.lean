import Oncall.Json.Token

/-!
JSON text as a tree of what was written: strings and numbers are kept as their tokens keep them,
members in order and with repetitions. Nesting has no limit here; a reader that has one counts
levels itself.
-/

namespace Oncall.Json

inductive Node where
  | null
  | bool (b : Bool)
  | number (literal : Bytes)
  | string (raw : Bytes)
  | array (items : List Node)
  | object (members : List (Bytes × Node))

/-- An array or object that is still open, with what it holds so far in reverse. -/
inductive Frame where
  | items (done : List Node)
  | members (done : List (Bytes × Node))
  | member (done : List (Bytes × Node)) (key : Bytes)

/-- What the next token has to be. -/
inductive Wants where
  | value
  | itemOrEnd
  | keyOrEnd
  | key
  | colon (key : Bytes)
  | commaOrEnd
  | nothing (root : Node)

structure Builder where
  stack : List Frame
  wants : Wants

namespace Builder

/-- A finished value goes into the innermost open array or object. -/
def put (v : Node) : List Frame → Option Builder
  | [] => some ⟨[], .nothing v⟩
  | .items done :: s => some ⟨.items (v :: done) :: s, .commaOrEnd⟩
  | .member done key :: s => some ⟨.members ((key, v) :: done) :: s, .commaOrEnd⟩
  | .members _ :: _ => none

def startValue (s : List Frame) : Token → Option Builder
  | .null => put .null s
  | .bool b => put (.bool b) s
  | .number literal => put (.number literal) s
  | .string raw => put (.string raw) s
  | .openArray => some ⟨.items [] :: s, .itemOrEnd⟩
  | .openObject => some ⟨.members [] :: s, .keyOrEnd⟩
  | _ => none

def close : List Frame → Token → Option Builder
  | .items done :: s, .closeArray => put (.array done.reverse) s
  | .members done :: s, .closeObject => put (.object done.reverse) s
  | _, _ => none

def step (b : Builder) (t : Token) : Option Builder :=
  match b.wants, t with
  | .value, t => startValue b.stack t
  | .itemOrEnd, .closeArray => close b.stack .closeArray
  | .itemOrEnd, t => startValue b.stack t
  | .keyOrEnd, .closeObject => close b.stack .closeObject
  | .keyOrEnd, .string raw => some ⟨b.stack, .colon raw⟩
  | .key, .string raw => some ⟨b.stack, .colon raw⟩
  | .colon key, .colon =>
    match b.stack with
    | .members done :: s => some ⟨.member done key :: s, .value⟩
    | _ => none
  | .commaOrEnd, .comma =>
    match b.stack with
    | .items _ :: _ => some ⟨b.stack, .value⟩
    | .members _ :: _ => some ⟨b.stack, .key⟩
    | _ => none
  | .commaOrEnd, t => close b.stack t
  | _, _ => none

def root? (b : Builder) : Option Node :=
  match b.wants with
  | .nothing root => some root
  | _ => none

end Builder

def Node.ofTokens? (ts : List Token) : Option Node := do
  let b ← ts.foldlM Builder.step ⟨[], .value⟩
  b.root?

/-- The tree of a complete text; blanks may stand around it. -/
def Node.read? (bs : Bytes) : Option Node := do
  let ts ← tokens? bs
  Node.ofTokens? ts

end Oncall.Json
