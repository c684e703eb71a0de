import Oncall.Http
import Oncall.Vault.Reply

/-!
Reads from Vault over HTTP. Each read names its own address and token.
-/

namespace Oncall.Vault

open Http Json

def draft (address token path : String) : Draft :=
  ⟨.get, trimEndSlashes address ++ "/v1/" ++ trimStartSlashes path, [],
    [("accept", "*/*"), ("x-vault-token", token)], ""⟩

/-- What a response means. -/
def interpret (path : String) (r : Response) : Except ApiError SecretResponse :=
  if r.status = 404 then .error (.notFound path)
  else if r.isSuccess then
    match (Node.read? r.body).bind SecretResponse.ofNode? with
    | some s => .ok s
    | none => .error .decode
  else
    let errors :=
      ((Node.read? r.body).bind errorsOf?).getD [String.ofList (Utf8.decodeLossy r.body)]
    .error (.http path r.status errors)

def read (address token path : String) (p : Peer) : Except ApiError SecretResponse × Peer :=
  match p.exchange (draft address token path) with
  | (none, p) => (.error .transport, p)
  | (some r, p) => (interpret path r, p)

end Oncall.Vault
