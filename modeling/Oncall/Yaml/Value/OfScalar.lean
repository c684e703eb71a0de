import Oncall.Yaml.Node
import Oncall.Yaml.Value

/-!
What scalars mean. A plain one may stand for null, a truth value or a number; a tag of the core
schema says what is meant, and fails if the text does not fit.
-/

namespace Oncall.Yaml.Value

def isNull (s : String) : Bool := ["null", "Null", "NULL", "~"].contains s

def bool? (s : String) : Option Bool :=
  if ["true", "True", "TRUE"].contains s then some true
  else if ["false", "False", "FALSE"].contains s then some false
  else none

/-- A number without its sign, and whether that is a minus. -/
def signed : List Char → Bool × List Char
  | '+' :: cs => (false, cs)
  | '-' :: cs => (true, cs)
  | cs => (false, cs)

/-- Several digits of which the first is zero are text. -/
def isZeroPadded : List Char → Bool
  | '0' :: c :: cs => (c :: cs).all Char.isDigit
  | _ => false

/-- The value of at least one digit of a base. -/
def digits? (base : Nat) (cs : List Char) : Option Nat :=
  if cs.isEmpty then none
  else cs.foldlM (fun n c => do
    let digit ← hexValue? c
    if digit < base then some (n * base + digit) else none) 0

/-- Digits, of the base that the sign in front of them says. -/
def magnitude? : List Char → Option Nat
  | '0' :: 'x' :: cs => digits? 16 cs
  | '0' :: 'o' :: cs => digits? 8 cs
  | '0' :: 'b' :: cs => digits? 2 cs
  | cs => if isZeroPadded cs then none else digits? 10 cs

/-- The bounds of integers, with and without a minus: those that are read, and those that are not
taken for anything else. -/
def integerBound (negative : Bool) : Nat :=
  if negative then 0x8000000000000000 else 0xFFFFFFFFFFFFFFFF

def refusedBound (negative : Bool) : Nat :=
  if negative then 0x80000000000000000000000000000000 else 0xFFFFFFFFFFFFFFFFFFFFFFFFFFFFFFFF

/-- A text that is an integer, if that can be read. -/
def integer? (cs : List Char) : Option (Option Value) := do
  let (negative, cs) := signed cs
  let n ← magnitude? cs
  if n ≤ integerBound negative then some (some (.integer (if negative then -n else n)))
  else if n ≤ refusedBound negative then some none
  else none

/-- The exponent of a number, with its mark. -/
def exponent? : List Char → Option Int
  | [] => some 0
  | c :: cs =>
    if c = 'e' ∨ c = 'E' then
      let (negative, cs) := signed cs
      (digits? 10 cs).map fun n => if negative then -n else n
    else none

/-- The double nearest to `n * 10 ^ e`; far from one it is known without that power. -/
def scaled? (n : Nat) (e : Int) : Option Binary64 :=
  let size := (Nat.toDigits 10 n).length + e
  if n = 0 ∨ size < -400 then some .zero
  else if 400 < size then none
  else if 0 ≤ e then Binary64.nearest (n * Nat.pow 10 e.toNat) 1
  else Binary64.nearest n (Nat.pow 10 (-e).toNat)

/-- Digits with at most one point, and an exponent; none beyond the largest double. -/
def decimal? (cs : List Char) : Option Binary64 := do
  let whole := cs.takeWhile Char.isDigit
  let rest := cs.dropWhile Char.isDigit
  let (part, rest) := match rest with
    | '.' :: rest => (rest.takeWhile Char.isDigit, rest.dropWhile Char.isDigit)
    | rest => ([], rest)
  let n ← digits? 10 (whole ++ part)
  scaled? n ((← exponent? rest) - part.length)

/-- A text that is a floating-point number. -/
def real? (s : String) : Option Real :=
  let (negative, cs) := signed s.toList
  if [".inf", ".Inf", ".INF"].contains (String.ofList cs) then some (.infinite negative)
  else if [".nan", ".NaN", ".NAN"].contains s then some .notANumber
  else (decimal? cs).map (.finite negative)

/-- What a plain scalar means. -/
def ofPlain? (s : String) : Option Value :=
  if s.isEmpty || isNull s then some .null
  else
    match bool? s, integer? s.toList with
    | some b, _ => some (.bool b)
    | none, some n => n
    | none, none =>
      if isZeroPadded (signed s.toList).2 then some (.text s)
      else some ((real? s).elim (.text s) .real)

def ofUntagged? (s : Scalar) : Option Value :=
  if s.isPlain then ofPlain? s.text else some (.text s.text)

/-- What a text means under a full tag. -/
def ofTagged? (tag s : String) : Option Value :=
  match tag with
  | "tag:yaml.org,2002:bool" => (bool? s).map .bool
  | "tag:yaml.org,2002:int" => (integer? s.toList).join
  | "tag:yaml.org,2002:float" => (real? s).map .real
  | "tag:yaml.org,2002:null" => if isNull s then some .null else none
  | _ => some (.text s)

/-- The name in a tag that an application defines itself; the exclamation mark alone is a name. -/
def localName? (tag : Option String) : Option String :=
  match tag.map String.toList with
  | some ['!'] => some "!"
  | some ('!' :: name) => some (String.ofList name)
  | _ => none

def ofScalar? (tag : Option String) (s : Scalar) : Option Value :=
  match localName? tag, tag with
  | some name, _ => (ofUntagged? s).map (.tagged name)
  | none, some tag => ofTagged? tag s.text
  | none, none => ofUntagged? s

end Oncall.Yaml.Value
