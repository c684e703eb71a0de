import Oncall.Dictionary
import Oncall.Yaml.Value

/-!
Reading declared records from YAML. A record is a mapping with known fields; its names are text,
null stands for the mapping without members, fields that are not known are skipped, and tags are
looked through.
-/

namespace Oncall.Yaml

/-- Members under their names. -/
abbrev Members := List (String × Value)

namespace Value

def text? (v : Value) : Option String :=
  match v.untagged with
  | .text s => some s
  | _ => none

def truth? (v : Value) : Option Bool :=
  match v.untagged with
  | .bool b => some b
  | _ => none

/-- A list; null is the empty one. -/
def listOf? {α : Type} (item? : Value → Option α) (v : Value) : Option (List α) :=
  match v.untagged with
  | .list items => items.mapM item?
  | .null => some []
  | _ => none

/-- A mapping whose keys are text. -/
def members? (v : Value) : Option Members :=
  match v.untagged with
  | .map members => members.mapM fun m => (text? m.1).map (·, m.2)
  | .null => some []
  | _ => none

/-- A mapping with free names, as a dictionary. -/
def dictionaryOf? {α : Type} (item? : Value → Option α) (v : Value) : Option (Dictionary α) := do
  let entries ← (← v.members?).mapM fun m => (item? m.2).map (m.1, ·)
  some (Dictionary.ofList entries)

/-- Absent where nothing or plain null stands. -/
def optional? {α : Type} (read? : Value → Option α) : Value → Option (Option α)
  | .null => some none
  | v => (read? v).map some

/-- One of some names, alone or as the tag of null. -/
def oneOf? (names : List String) : Value → Option String
  | .text s => if names.contains s then some s else none
  | .tagged s v =>
    match v with
    | .null => if names.contains s then some s else none
    | _ => none
  | _ => none

/-- Whether a value of at most so many levels is free of tags, names aside. -/
def isData : Nat → Value → Bool
  | _, .null | _, .bool _ | _, .integer _ | _, .real _ | _, .text _ => true
  | levels + 1, .list items => items.all (isData levels)
  | levels + 1, .map members => members.all fun m => (text? m.1).isSome && isData levels m.2
  | _, _ => false

end Value

namespace Members

/-- What is given for a field; it may be given once. -/
def field? (members : Members) (name : String) : Option (Option Value) :=
  match members.filter fun m => m.1 = name with
  | [] => some none
  | [m] => some (some m.2)
  | _ => none

/-- A field that has to be given. -/
def required {α : Type} (members : Members) (name : String) (read? : Value → Option α) :
    Option α := do
  read? (← ← members.field? name)

/-- A field with a default. -/
def orElse {α : Type} (members : Members) (name : String) (default : α)
    (read? : Value → Option α) : Option α := do
  match ← members.field? name with
  | none => some default
  | some v => read? v

/-- A field that may be missing or null. -/
def optional {α : Type} (members : Members) (name : String) (read? : Value → Option α) :
    Option (Option α) :=
  members.orElse name none (Value.optional? read?)

end Members

end Oncall.Yaml
