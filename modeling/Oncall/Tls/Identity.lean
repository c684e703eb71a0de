import Oncall.Tls.Der
import Oncall.Tls.Pem

/-!
Whether certificates and private keys can be used: the certificates that a server's one is checked
against, and the identity of a client.
-/

namespace Oncall.Tls

def certificateLabel : String := "CERTIFICATE"

/-- The kind of a private key under a label. -/
def keyForm? : String → Option Der.KeyForm
  | "PRIVATE KEY" => some .general
  | "RSA PRIVATE KEY" => some .rsa
  | "EC PRIVATE KEY" => some .curve
  | _ => none

/-- Labels of known things that do not belong to an identity. -/
def foreignLabels : List String := ["CERTIFICATE REQUEST", "X509 CRL", "PUBLIC KEY"]

/-- The certificates among some sections; others are skipped. -/
def certificates (sections : List Pem.Section) : List Bytes :=
  (sections.filter fun s => s.label = certificateLabel).map (·.content)

/-- The private keys of a kind. -/
def keysOf (form : Der.KeyForm) (sections : List Pem.Section) : List Bytes :=
  (sections.filter fun s => keyForm? s.label = some form).map (·.content)

/-- The private key that counts: the last one of the first kind that there is. -/
def chosenKey? (sections : List Pem.Section) : Option (Der.KeyForm × Bytes) :=
  [Der.KeyForm.general, .rsa, .curve].findSome? fun form =>
    (keysOf form sections).getLast?.map (form, ·)

/-- An identity is a private key and at least one certificate. -/
def isIdentity (bs : Bytes) : Bool :=
  match Pem.lineSections? bs with
  | none => false
  | some sections =>
    !(sections.any fun s => foreignLabels.contains s.label) &&
      (chosenKey? sections).any (fun k => Der.isPrivateKey k.1 k.2) &&
      (certificates sections).head?.any Der.isCertificate

end Oncall.Tls
