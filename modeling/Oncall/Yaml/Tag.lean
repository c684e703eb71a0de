import Oncall.Text.Utf8
import Oncall.Yaml.Glyph

/-!
Tags as they are written: a handle, for which a directive gives the start of the full tag, and the
rest. A tag between angle brackets is a full one and has the empty handle. Percent signs escape the
bytes of characters.
-/

namespace Oncall.Yaml

structure Tag where
  handle : String
  rest : String
  deriving DecidableEq, Repr

namespace Tag

/-- The handle of tags that an application defines itself. -/
def localHandle : String := "!"

/-- The characters of a tag; commas and brackets only where it is clear that they belong to it. -/
def isTagChar (enclosed : Bool) (c : Char) : Bool :=
  isWordChar c || ";/?:@&=+$.!~*'()".toList.contains c || (enclosed && ",[]".toList.contains c)

/-- How many bytes follow the first one of a character. -/
def bytesAfter? (octet : Nat) : Option Nat :=
  if octet < 0x80 then some 0
  else if octet < 0xC0 then none
  else if octet < 0xE0 then some 1
  else if octet < 0xF0 then some 2
  else if octet < 0xF8 then some 3
  else none

/-- Reads on after the bytes `done`, which are in reverse, with `awaited` more escaped ones to come.
-/
def bytes? (enclosed : Bool) (awaited : Nat) (done : Bytes) :
    List Glyph → Option (Bytes × List Glyph)
  | [] => if awaited = 0 then some (done.reverse, []) else none
  | g :: rest =>
    if g.char = '%' then
      match rest with
      | a :: b :: rest => do
        let octet := (← hexValue? a.char) * 16 + (← hexValue? b.char)
        if awaited = 0 then
          bytes? enclosed (← bytesAfter? octet) (.ofNat octet :: done) rest
        else if octet / 64 = 2 then bytes? enclosed (awaited - 1) (.ofNat octet :: done) rest
        else none
      | _ => none
    else if awaited ≠ 0 then none
    else if isTagChar enclosed g.char then bytes? enclosed 0 (.ofNat g.char.toNat :: done) rest
    else some (done.reverse, g :: rest)

/-- The longest part of a tag from here on. -/
def part? (enclosed : Bool) (gs : List Glyph) : Option (String × List Glyph) := do
  let (bs, gs) ← bytes? enclosed 0 [] gs
  some (String.ofList (← Utf8.decode? bs), gs)

/-- A part that is not empty. -/
def fullPart? (enclosed : Bool) (gs : List Glyph) : Option (String × List Glyph) := do
  let (part, gs) ← part? enclosed gs
  if part.isEmpty then none else some (part, gs)

/-- A handle with a name of its own. -/
def namedHandle (name : List Glyph) : String := "!" ++ text name ++ "!"

/-- The tag after its exclamation mark. The mark alone is a full tag. -/
def read? (gs : List Glyph) : Option (Tag × List Glyph) :=
  if nextIn ['<'] gs then do
    let (rest, gs) ← fullPart? true (gs.drop 1)
    if nextIn ['>'] gs then some (⟨"", rest⟩, gs.drop 1) else none
  else
    let (name, gs) := word gs
    if nextIn ['!'] gs then do
      let (rest, gs) ← fullPart? false (gs.drop 1)
      some (⟨namedHandle name, rest⟩, gs)
    else do
      let (rest, gs) ← part? false gs
      let rest := text name ++ rest
      some (if rest.isEmpty then ⟨"", "!"⟩ else ⟨localHandle, rest⟩, gs)

end Tag

end Oncall.Yaml
