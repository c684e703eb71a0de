import Oncall.Text.Utf8

/-!
The outer form of certificates and private keys in DER: elements with a tag and a length, some of
which hold further elements. Nothing inside of the outermost elements is looked at.
-/

namespace Oncall.Der

structure Element where
  tag : Nat
  content : Bytes
  deriving DecidableEq, Repr

def integer : Nat := 0x02
def bitString : Nat := 0x03
def octetString : Nat := 0x04
def sequence : Nat := 0x30

/-- A number from its bytes, the highest first. -/
def number (bs : Bytes) : Nat := bs.foldl (fun n b => n * 256 + b.toNat) 0

/-- The length of an element and what comes after it. A length in several bytes starts with their
number and takes no more of them than it needs. -/
def length? : Bytes → Option (Nat × Bytes)
  | [] => none
  | b :: rest =>
    let n := b.toNat
    if n < 0x80 then some (n, rest)
    else if n = 0x80 ∨ 0x84 < n ∨ rest.length < n - 0x80 then none
    else
      let value := number (rest.take (n - 0x80))
      if value < 0x80 ∨ rest.head? = some 0 then none else some (value, rest.drop (n - 0x80))

/-- The first element, and what follows it. -/
def element? : Bytes → Option (Element × Bytes)
  | [] => none
  | tag :: rest => do
    let (n, rest) ← length? rest
    if rest.length < n then none else some (⟨tag.toNat, rest.take n⟩, rest.drop n)

/-- Elements that fill some bytes, at most `n` of them. -/
def elements? : Nat → Bytes → Option (List Element)
  | _, [] => some []
  | 0, _ => none
  | n + 1, bs => do
    let (e, rest) ← element? bs
    (elements? n rest).map (e :: ·)

/-- What a sequence that fills some bytes holds. -/
def sequence? (bs : Bytes) : Option (List Element) :=
  match elements? bs.length bs with
  | some [e] => if e.tag = sequence then elements? e.content.length e.content else none
  | _ => none

/-- What is signed, how, and the signature; the first has six parts at least. -/
def isCertificate (bs : Bytes) : Bool :=
  match sequence? bs with
  | some [signed, method, signature] =>
    signed.tag = sequence && method.tag = sequence && signature.tag = bitString &&
      (elements? signed.content.length signed.content).any (6 ≤ ·.length)
  | _ => false

/-- The kinds of private keys: with a statement of their method, of RSA, or of elliptic curves. -/
inductive KeyForm where
  | general
  | rsa
  | curve
  deriving DecidableEq, Repr

/-- The tags with which a key of a kind begins. -/
def KeyForm.tags : KeyForm → List Nat
  | .general => [integer, sequence, octetString]
  | .rsa => List.replicate 9 integer
  | .curve => [integer, octetString]

def isPrivateKey (form : KeyForm) (bs : Bytes) : Bool :=
  (sequence? bs).any fun parts => form.tags.isPrefixOf (parts.map (·.tag))

end Oncall.Der
