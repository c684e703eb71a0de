import Oncall.Dictionary

/-!
What kubeconfig files say: clusters, users and contexts by name. A context names a cluster and may
name a user. Several documents make up one configuration, in which the first word on a matter
counts.
-/

namespace Oncall.Kubeconfig

/-- Entries without content are kept under their names. -/
abbrev Section (α : Type) := List (String × Option α)

/-- Content that is given in place or in a file. -/
structure Blob where
  inPlace : Option String
  file : Option String
  deriving DecidableEq, Repr

structure Cluster where
  server : Option String
  proxyUrl : Option String
  authority : Blob
  tlsServerName : Option String
  deriving DecidableEq, Repr

/-- A service that hands out tokens. -/
structure Provider where
  name : String
  settings : Dictionary String
  deriving DecidableEq, Repr

/-- How a client presents itself. `hasPlugin` says that a program hands out its credentials. -/
structure User where
  username : Option String
  password : Option String
  token : Option String
  tokenFile : Option String
  certificate : Blob
  key : Blob
  actsAs : Option String
  actsAsGroups : Option (List String)
  provider : Option Provider
  hasPlugin : Bool
  deriving DecidableEq, Repr

/-- A client that does not present itself. -/
def User.anonymous : User :=
  ⟨none, none, none, none, ⟨none, none⟩, ⟨none, none⟩, none, none, none, false⟩

structure Context where
  cluster : String
  user : Option String
  deriving DecidableEq, Repr

structure Contents where
  kind : Option String
  apiVersion : Option String
  currentContext : Option String
  contexts : Section Context
  clusters : Section Cluster
  users : Section User

namespace Section

variable {α : Type}

/-- The content of the first entry with a name. -/
def content? (entries : Section α) (name : String) : Option α := (entries.lookup name).join

/-- The entries of another section follow, except those with names that are there. -/
def append (entries more : Section α) : Section α :=
  entries ++ more.filter fun e => (entries.lookup e.1).isNone

end Section

namespace Contents

def empty : Contents := ⟨none, none, none, [], [], []⟩

/-- Two documents may not contradict each other. -/
def agree (a b : Option String) : Bool := a.isNone || b.isNone || a = b

/-- One configuration of two documents. -/
def merge? (k next : Contents) : Option Contents :=
  if agree k.kind next.kind && agree k.apiVersion next.apiVersion then
    some {
      kind := k.kind <|> next.kind
      apiVersion := k.apiVersion <|> next.apiVersion
      currentContext := k.currentContext <|> next.currentContext
      contexts := k.contexts.append next.contexts
      clusters := k.clusters.append next.clusters
      users := k.users.append next.users }
  else none

/-- One configuration of all documents. -/
def ofDocuments? : List Contents → Option Contents
  | [] => some empty
  | k :: rest => rest.foldlM merge? k

end Contents

end Oncall.Kubeconfig
