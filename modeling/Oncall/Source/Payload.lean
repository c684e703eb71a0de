import Oncall.Dictionary
import Oncall.Source.ConfigError
import Oncall.Text.Utf8

/-!
Typed lookups in the payload of a Secret or ConfigMap. A value is decoded with replacement
characters, a required key has to be there and not be empty, and a numeric one has to be an unsigned
32-bit number.
-/

namespace Oncall

/-- Bytes by key; the text of a ConfigMap counts as its UTF-8 bytes. -/
abbrev Payload := Dictionary Bytes

def Payload.ofTexts (d : Dictionary String) : Payload := d.mapValues fun s => Utf8.encode s.toList

/-- How errors name an object. -/
def objectRef (nspace name : String) : String := nspace ++ "/" ++ name

namespace Payload

def required (p : Payload) (key object : String) : Except ConfigError String :=
  match p.lookup key with
  | none => .error (.missingKey key object)
  | some raw =>
    let value := String.ofList (Utf8.decodeLossy raw)
    if value.isEmpty then .error (.emptyValue key object) else .ok value

def requiredWord (p : Payload) (key object : String) : Except ConfigError UInt32 := do
  let value ← p.required key object
  match Unsigned.parse 0xFFFFFFFF value.toList with
  | .ok n => .ok (UInt32.ofNat n)
  | .error reason => .error (.invalidNumber key object value reason)

/-- A missing or empty key gives the default. -/
def optionalOr (p : Payload) (key object default : String) : String :=
  match p.required key object with
  | .ok value => value
  | .error _ => default

end Payload

end Oncall
