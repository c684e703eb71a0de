import Oncall.Files
import Oncall.Http
import Oncall.Source.ConfigError
import Oncall.Source.Kubeconfig.Read
import Oncall.Text.Timestamp
import Oncall.Text.Utf16
import Oncall.Tls.Identity
import Oncall.Tls.ServerName
import Oncall.Url.Strict
import Oncall.Workflow

/-!
Connecting to the server that a kubeconfig file leads to. First the configuration has to make sense:
the current context and its cluster are there, addresses are well-formed, and certificates can be
read. Then a connection has to be possible: without a proxy, with credentials if they are asked for,
and with certificates, keys and headers that can be used. No request is made here.
-/

namespace Oncall.Kubeconfig

inductive Fault where
  | unreadable
  | malformed
  | noCurrentContext
  | unknownContext (name : String)
  | unknownCluster (name : String)
  | noServer
  | badServer
  | badProxy
  | badAuthority
  deriving DecidableEq, Repr

def Fault.message : Fault → String
  | .unreadable => "the kubeconfig cannot be read"
  | .malformed => "the kubeconfig is malformed"
  | .noCurrentContext => "the current context is not set"
  | .unknownContext name => "there is no context " ++ name
  | .unknownCluster name => "there is no cluster " ++ name
  | .noServer => "the cluster has no server"
  | .badServer => "the address of the server is malformed"
  | .badProxy => "the address of the proxy is malformed"
  | .badAuthority => "the certificates of the cluster cannot be read"

def Fault.error (f : Fault) : ConfigError := .clientConfig f.message

/-- What is done with files at hand: a call asks for the content of one, if it can be read. -/
abbrev Loading := ExceptT ConfigError (Workflow String (fun _ => Option Bytes) Unit)

def readFile (path : String) : Loading (Option Bytes) := ExceptT.lift (Workflow.ask () path)

/-- What a context leads to. -/
structure Current where
  cluster : Cluster
  user : User

/-- The cluster of the current context and its user; an unknown user is an anonymous one. -/
def Contents.current (k : Contents) : Except Fault Current := do
  let some name := k.currentContext | .error .noCurrentContext
  let some context := k.contexts.content? name | .error (.unknownContext name)
  let some cluster := k.clusters.content? context.cluster | .error (.unknownCluster context.cluster)
  .ok ⟨cluster, (context.user.bind k.users.content?).getD .anonymous⟩

/-- The address of the server. -/
def Cluster.address (c : Cluster) : Except Fault String :=
  match c.server with
  | none => .error .noServer
  | some server => if Url.isStrict server then .ok server else .error .badServer

/-- The address of the proxy, if there is to be one; the empty one is none. -/
def Cluster.proxy (c : Cluster) : Except Fault (Option String) :=
  match c.proxyUrl.filter (!·.isEmpty) with
  | none => .ok none
  | some proxy => if Url.isStrict proxy then .ok (some proxy) else .error .badProxy

def Blob.isGiven (b : Blob) : Bool := b.inPlace.isSome || b.file.isSome

/-- Content that does not end with a line break gets one. -/
def closed (bs : Bytes) : Bytes := if bs.getLast?.any (· ≠ 10) then bs ++ [10] else bs

/-- Content that is given; what stands in place is base64 and goes before a file. -/
def Blob.load (dir : String) (b : Blob) : Loading (Option Bytes) := do
  match b.inPlace, b.file with
  | some data, _ => pure ((Base64.decode? data.toList).map closed)
  | none, some file => pure ((← readFile (pathFrom dir file)).map closed)
  | none, none => pure none

/-- The certificates that the server's one is checked against. -/
def Cluster.authorities (dir : String) (c : Cluster) : Loading (List Bytes) := do
  if !c.authority.isGiven then pure []
  else
    match (← c.authority.load dir).bind Pem.sections? with
    | some sections => pure (Tls.certificates sections)
    | none => throw Fault.badAuthority.error

/-- No proxy can be used; one of a kind that is known is told apart. -/
def refuseProxy : Option String → Loading Unit
  | none => pure ()
  | some proxy =>
    if [some "http", some "socks5"].contains (Url.strictScheme? proxy) then
      throw (.kube .knownProxy)
    else throw (.kube .unknownProxy)

/-- A token is used up to a minute before it expires. -/
def spareTime : Int := 60 * nanosPerSecond

/-- Whether a service has handed out a token that can be used. -/
def Provider.hasToken (now : Instant) (p : Provider) : Bool :=
  let hasIdToken := (p.settings.lookup "id-token").isSome
  match p.name with
  | "oidc" => hasIdToken
  | "gcp" =>
    hasIdToken || ((p.settings.lookup "access-token").isSome &&
      ((p.settings.lookup "expiry").bind Timestamp.parse?).any (now.nanos + spareTime < ·))
  | _ => false

/-- Whether there are credentials where they are asked for; programs are never run for them. -/
def User.hasCredentials (now : Instant) (dir : String) (u : User) : Loading Bool := do
  match u.provider, u.tokenFile with
  | some p, _ => pure (p.hasToken now)
  | none, tokenFile =>
    if (u.username.isSome && u.password.isSome) || u.token.isSome then pure true
    else
      match tokenFile with
      | some file => pure ((← readFile (pathFrom dir file)).bind Utf8.decode?).isSome
      | none => pure (!u.hasPlugin)

/-- A client's key and certificate, if both can be read. -/
def User.identity (dir : String) (u : User) : Loading (Option Bytes) := do
  let certificate ← u.certificate.load dir
  let key ← u.key.load dir
  pure (do some ((← key) ++ (← certificate)))

def checked (ok : Bool) (e : KubeError) : Loading Unit := if ok then pure () else throw (.kube e)

/-- Whether a connection is possible. -/
def Current.check (now : Instant) (dir : String) (authorities : List Bytes) (c : Current) :
    Loading Unit := do
  checked (← c.user.hasCredentials now dir) .credentials
  checked (authorities.all Der.isCertificate) .security
  checked ((← c.user.identity dir).all Tls.isIdentity) .security
  checked (c.cluster.tlsServerName.all ServerName.isValid) .security
  checked ((c.user.actsAs.toList ++ c.user.actsAsGroups.getD []).all Http.isLegalValue) .header

def lifted {α : Type} (r : Except Fault α) : Loading α := ExceptT.mk (pure (r.mapError Fault.error))

/-- The server that a kubeconfig file leads to; none if its address is no web address. -/
def connect (now : Instant) (path : String) : Loading (Option Url) := do
  let some bytes ← readFile path | throw Fault.unreadable.error
  let some text := Utf16.decodeMarked? bytes | throw Fault.unreadable.error
  let some contents := Contents.ofText? text | throw Fault.malformed.error
  let dir := parentPath path
  let current ← lifted contents.current
  let address ← lifted current.cluster.address
  let proxy ← lifted current.cluster.proxy
  let authorities ← current.cluster.authorities dir
  refuseProxy proxy
  current.check now dir authorities
  pure (Url.parse? address)

/-- Connects with the files of a file system, at the time of its clock. -/
def connectIn (files : FileSystem) (path : String) : Except ConfigError (Option Url) :=
  ((connect files.clock path).run.run (fun path files => ((files.read path).toOption, files))
    files).1

end Oncall.Kubeconfig
