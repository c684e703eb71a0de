import Oncall.Dictionary
import Oncall.Json.Value

/-!
Reading declared records from JSON. A record is an object with known fields, or an array of their
values in order of declaration. Unknown fields are skipped whatever they hold, a known field may
appear once, and what a missing field means is said field by field: an error (`required`) or a
default (`orElse`).
-/

namespace Oncall.Json

namespace Node

/-- The members with their names as text. -/
def named? (members : List (Bytes × Node)) : Option (List (String × Node)) :=
  members.mapM fun m => (text? m.1).map (·, m.2)

/-- What is given for each declared field, in order of declaration. -/
def fields? (names : List String) : Node → Option (List (Option Node))
  | .array items =>
    if items.length ≤ names.length then
      some (items.map some ++ List.replicate (names.length - items.length) none)
    else none
  | .object members => do
    let members ← named? members
    let given := members.map (·.1)
    if names.all fun name => given.count name ≤ 1 then
      some (names.map fun name => (members.find? fun m => m.1 == name).map (·.2))
    else none
  | _ => none

def string? : Node → Option String
  | .string raw => text? raw
  | _ => none

def bool? : Node → Option Bool
  | .bool b => some b
  | _ => none

/-- An integer literal from zero to `limit`. -/
def natUpTo? (limit : Nat) : Node → Option Nat
  | .number literal =>
    match number? literal with
    | some (.integer n) => if 0 ≤ n ∧ n ≤ limit then some n.toNat else none
    | _ => none
  | _ => none

def word32? (v : Node) : Option UInt32 := (v.natUpTo? 0xFFFFFFFF).map UInt32.ofNat

def listOf? {α : Type} (item? : Node → Option α) : Node → Option (List α)
  | .array items => items.mapM item?
  | _ => none

/-- An object with free names, as a dictionary. -/
def dictionaryOf? {α : Type} (item? : Node → Option α) : Node → Option (Dictionary α)
  | .object members => do
    let members ← named? members
    let entries ← members.mapM fun m => (item? m.2).map (m.1, ·)
    some (Dictionary.ofList entries)
  | _ => none

/-- Absent where the literal `null` stands. -/
def optional? {α : Type} (read? : Node → Option α) : Node → Option (Option α)
  | .null => some none
  | v => (read? v).map some

/-- Any value, with at most `levels` arrays and objects inside one another. -/
def value? : Nat → Node → Option Value
  | _, .null => some .null
  | _, .bool b => some (.bool b)
  | _, .number literal => (number? literal).map .number
  | _, .string raw => (text? raw).map .string
  | 0, _ => none
  | levels + 1, .array items => (items.mapM (value? levels)).map .array
  | levels + 1, .object members => do
    let members ← named? members
    let entries ← members.mapM fun m => (value? levels m.2).map (m.1, ·)
    some (.object (Dictionary.ofList entries))

end Node

/-- A field that has to be given. -/
def required {α : Type} (read? : Node → Option α) (field : Option Node) : Option α :=
  field.bind read?

/-- A field with a default. -/
def orElse {α : Type} (default : α) (read? : Node → Option α) : Option Node → Option α
  | none => some default
  | some v => read? v

/-- A field that may be missing or `null`. -/
def optional {α : Type} (read? : Node → Option α) : Option Node → Option (Option α) :=
  orElse none (Node.optional? read?)

end Oncall.Json
