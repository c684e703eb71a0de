import Oncall.Http
import Oncall.Source.Metadata
import Oncall.Source.Objects
import Oncall.Text.Base64
import Oncall.Url.Strict

/-!
Secrets and ConfigMaps from the Kubernetes API. A refusal whose body is a status is reported as that
status, and any other refusal by its HTTP status with the body quoted. The values of a Secret are
base64.
-/

namespace Oncall.Kubernetes

open Http Json

/-- The standard phrase of a refusing status. -/
def phrase : Nat → String
  | 400 => "Bad Request"
  | 401 => "Unauthorized"
  | 402 => "Payment Required"
  | 403 => "Forbidden"
  | 404 => "Not Found"
  | 405 => "Method Not Allowed"
  | 406 => "Not Acceptable"
  | 407 => "Proxy Authentication Required"
  | 408 => "Request Timeout"
  | 409 => "Conflict"
  | 410 => "Gone"
  | 411 => "Length Required"
  | 412 => "Precondition Failed"
  | 413 => "Payload Too Large"
  | 414 => "URI Too Long"
  | 415 => "Unsupported Media Type"
  | 416 => "Range Not Satisfiable"
  | 417 => "Expectation Failed"
  | 418 => "I'm a teapot"
  | 421 => "Misdirected Request"
  | 422 => "Unprocessable Entity"
  | 423 => "Locked"
  | 424 => "Failed Dependency"
  | 425 => "Too Early"
  | 426 => "Upgrade Required"
  | 428 => "Precondition Required"
  | 429 => "Too Many Requests"
  | 431 => "Request Header Fields Too Large"
  | 451 => "Unavailable For Legal Reasons"
  | 500 => "Internal Server Error"
  | 501 => "Not Implemented"
  | 502 => "Bad Gateway"
  | 503 => "Service Unavailable"
  | 504 => "Gateway Timeout"
  | 505 => "HTTP Version Not Supported"
  | 506 => "Variant Also Negotiates"
  | 507 => "Insufficient Storage"
  | 508 => "Loop Detected"
  | 510 => "Not Extended"
  | 511 => "Network Authentication Required"
  | _ => "<unknown status code>"

def ApiStatus.ofNode? (v : Node) : Option ApiStatus := do
  match ← v.fields? ["status", "message", "reason", "code"] with
  | [status, message, reason, code] =>
    some ⟨← required Node.string? status, ← orElse "" Node.string? message,
      ← orElse "" Node.string? reason, ← required (Node.natUpTo? 0xFFFF) code⟩
  | _ => none

/-- The refusal that a response stands for. -/
def refusal (r : Response) : KubeError :=
  match Utf8.decode? r.body with
  | none => .notText
  | some text =>
    match (Node.read? r.body).bind ApiStatus.ofNode? with
    | some s => .api s
    | none =>
      .api {
        status := toString r.status ++ " " ++ phrase r.status
        message := quoted (String.ofList text)
        reason := "Failed to parse error data"
        code := r.status }

/-- A value of a Secret; `null` is the empty one. -/
def secretValue? (v : Node) : Option Bytes := do
  let text ← Node.optional? Node.string? v
  Base64.decode? (text.getD "").toList

/-- An API object of a kind, and what it holds under `data`; what else it may hold passes tests. -/
def object? {α : Type} (kind : String) (item? : Node → Option α)
    (tests : List (String × (Node → Bool))) (v : Node) : Option (Dictionary α) :=
  match v with
  | .object members => do
    let members ← Node.named? members
    let read? := Node.optional? (Node.dictionaryOf? item?)
    if allPass members "apiVersion" (fun v => v.string? = some "v1") &&
        allPass members "kind" (fun v => v.string? = some kind) &&
        allPass members "data" (fun v => (read? v).isSome) &&
        isRecord (("metadata", isMetadata) :: ("immutable", isTruth) :: tests) v then
      match last? members "data" with
      | none => some []
      | some v => (← read? v).getD []
    else none
  | _ => none

def secret? : Node → Option Payload :=
  object? "Secret" secretValue? [("stringData", isDictionaryOf Node.string?), ("type", isText)]

def configMap? : Node → Option (Dictionary String) :=
  object? "ConfigMap" Node.string? [("binaryData", isDictionaryOf secretValue?)]

/-- The path of an object under the API; none if no request can be made of it. -/
def path? (c : ObjectCall) : Option (List Char) :=
  let path := "/api/v1/namespaces/" ++ c.nspace ++ "/" ++ c.kind ++ "/" ++ c.name
  if !c.name.isEmpty && Url.isStrict path then some (Parts.cut (· = '#') path.toList).1 else none

/-- The address of a path under the server's own, whose login is not used. -/
def addressOf (server : Url) (path : List Char) : Url :=
  let base := Parts.trimEnd (· = '/') server.path
  match Parts.cut (· = '?') path with
  | (path, []) => { server with login := none, path := base ++ path, query := none }
  | (path, _ :: query) => { server with login := none, path := base ++ path, query := some query }

/-- Reads an object's text. -/
def fetch {α : Type} (server : Option Url) (c : ObjectCall) (read? : Node → Option α) (p : Peer) :
    Except ConfigError α × Peer :=
  match path? c with
  | none => (.error (.kube .buildRequest), p)
  | some path =>
    match server.map fun u => p.send ⟨.get, "", [], [], ""⟩ (addressOf u path) with
    | none => (.error (.kube .service), p)
    | some (none, p) => (.error (.kube .service), p)
    | some (some r, p) =>
      if 400 ≤ r.status && r.status < 600 then (.error (.kube (refusal r)), p)
      else
        match Utf8.decode? r.body with
        | none => (.error (.kube .notText), p)
        | some _ =>
          match (Node.read? r.body).bind read? with
          | some a => (.ok a, p)
          | none => (.error (.kube .decode), p)

/-- Reads an object through the API of a server. -/
def answer (server : Option Url) : (c : ObjectCall) → Peer → c.Reply × Peer
  | .secret nspace name, p => fetch server (.secret nspace name) secret? p
  | .configMap nspace name, p => fetch server (.configMap nspace name) configMap? p

end Oncall.Kubernetes
