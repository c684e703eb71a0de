import Oncall.Json.Record
import Oncall.Text.Timestamp

/-!
What the Kubernetes API says about an object besides its content. None of it is used, but every
member has to be of its type or null; members that are not known are skipped, and any may be
repeated.
-/

namespace Oncall.Kubernetes

open Json

/-- The last member of a name. -/
def last? (members : List (String × Node)) (name : String) : Option Node :=
  (members.reverse.find? fun m => m.1 == name).map (·.2)

/-- Every member of a name passes the test. -/
def allPass (members : List (String × Node)) (name : String) (test : Node → Bool) : Bool :=
  members.all fun m => m.1 != name || test m.2

def isNull : Node → Bool
  | .null => true
  | _ => false

def isText (v : Node) : Bool := v.string?.isSome

def isTruth (v : Node) : Bool := v.bool?.isSome

/-- An integer of 64 bits. -/
def isInteger : Node → Bool
  | .number literal =>
    match number? literal with
    | some (.integer n) => n < 0x8000000000000000
    | _ => false
  | _ => false

def isTime (v : Node) : Bool := (v.string?.bind Timestamp.parse?).isSome

def isListOf (test : Node → Bool) : Node → Bool
  | .array items => items.all test
  | _ => false

def isDictionaryOf {α : Type} (item? : Node → Option α) (v : Node) : Bool :=
  (v.dictionaryOf? item?).isSome

/-- An object whose members of some names pass their tests or are null. -/
def isRecord (tests : List (String × (Node → Bool))) : Node → Bool
  | .object members =>
    match Node.named? members with
    | none => false
    | some members => tests.all fun t => allPass members t.1 fun v => isNull v || t.2 v
  | _ => false

/-- Another object to which an object belongs. -/
def isOwner : Node → Bool :=
  isRecord [("apiVersion", isText), ("blockOwnerDeletion", isTruth), ("controller", isTruth),
    ("kind", isText), ("name", isText), ("uid", isText)]

/-- How many levels are left for the fields that somebody manages. -/
def managedLevels : Nat := 123

/-- Who changed which fields of an object. -/
def isManagement : Node → Bool :=
  isRecord [("apiVersion", isText), ("fieldsType", isText),
    ("fieldsV1", fun v => (v.value? managedLevels).isSome), ("manager", isText),
    ("operation", isText), ("subresource", isText), ("time", isTime)]

def isMetadata : Node → Bool :=
  isRecord [("annotations", isDictionaryOf Node.string?), ("creationTimestamp", isTime),
    ("deletionGracePeriodSeconds", isInteger), ("deletionTimestamp", isTime),
    ("finalizers", isListOf isText), ("generateName", isText), ("generation", isInteger),
    ("labels", isDictionaryOf Node.string?), ("managedFields", isListOf isManagement),
    ("name", isText), ("namespace", isText), ("ownerReferences", isListOf isOwner),
    ("resourceVersion", isText), ("selfLink", isText), ("uid", isText)]

end Oncall.Kubernetes
