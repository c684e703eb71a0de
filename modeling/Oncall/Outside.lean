import Oncall.PagerDuty.Client
import Oncall.PagerDuty.Events
import Oncall.Source.Kubernetes
import Oncall.Vault.Cache

/-!
Everything that commands ask of the world around them: objects, PagerDuty, Vault with its cache,
directories, and the standard output. Log lines go to the standard output too, among the lines that
are printed there.
-/

namespace Oncall

/-- Where objects are read: from memory, or from the API of a server. -/
inductive Source where
  | memory (objects : ObjectStore)
  | cluster (server : Option Url)

/-- What an object is read for. -/
inductive Purpose where
  | ticketing
  | access
  deriving DecidableEq, Repr

/-- One thing that is asked of the world. -/
inductive Ask where
  | object (purpose : Purpose) (c : ObjectCall)
  | pagerDuty (client : PagerDuty.Client) (c : PagerDuty.Call)
  | cache (c : Vault.CacheCall)
  | makeDirectories (path : String)
  | log (e : LogEvent)
  | print (line : String)

namespace Ask

abbrev Reply : Ask → Type
  | .object _ c => c.Reply
  | .pagerDuty _ c => c.Reply
  | .cache c => c.Reply
  | .makeDirectories _ => Except FileError Unit
  | .log _ | .print _ => Unit

/-- The line that is printed. -/
def line? : Ask → Option String
  | .print line => some line
  | _ => none

/-- What the program logs about the reply to what it asked. -/
def events : (a : Ask) → a.Reply → List LogEvent
  | .object .ticketing c, r => PagerDuty.TicketingConfig.events c r
  | .pagerDuty _ c, r => c.events r
  | .log e, () => [e]
  | _, _ => []

end Ask

/-- A workflow over the whole world. -/
abbrev Errand (α : Type) := Workflow Ask Ask.Reply Unit α

namespace Errand

def ofReading {α : Type} (purpose : Purpose) (w : Reading α) : Errand α :=
  w.lift (.object purpose) (fun _ r => r) id

def ofCalls {α σ : Type} (client : PagerDuty.Client)
    (w : Workflow PagerDuty.Call PagerDuty.Call.Reply σ α) : Errand α :=
  w.lift (.pagerDuty client) (fun _ r => r) fun _ => ()

def ofLookup {α : Type} (w : Vault.Lookup α) : Errand α := w.lift .cache (fun _ r => r) id

end Errand

/-- What appears on the standard output: a line that is printed, or the log line of an event. -/
inductive Shown where
  | line (text : String)
  | event (e : LogEvent)
  deriving DecidableEq, Repr

/-- The world. One peer stands behind every address. Events that are `enabled` are shown; `aside` is
what else is logged when something is asked, by lookups in the cache and by all that lies below. -/
structure World extends Vault.CacheWorld where
  source : Source
  enabled : LogEvent → Bool := LogDirective.enable defaultDirectives
  aside : (a : Ask) → a.Reply → List LogEvent := fun _ _ => []
  output : List Shown := []

/-- What a source logs about an object that it has fetched. -/
def Source.events : Source → (a : Ask) → a.Reply → List LogEvent
  | .cluster _, .object _ (.secret nspace name), .ok _ =>
    [⟨.debug, "pdo_common::source", "Fetched secret", [("namespace", nspace), ("secret", name)]⟩]
  | .cluster _, .object _ (.configMap nspace name), .ok _ =>
    [⟨.debug, "pdo_common::source", "Fetched config map",
      [("namespace", nspace), ("config_map", name)]⟩]
  | _, _, _ => []

namespace World

/-- The world's reply, without what is shown meanwhile. -/
def reply : (a : Ask) → World → a.Reply × World
  | .object _ c, w =>
    match w.source with
    | .memory objects => (objects.answer c, w)
    | .cluster server =>
      let (r, peer) := Kubernetes.answer server c w.peer
      (r, { w with peer := peer })
  | .pagerDuty client c, w =>
    let (r, peer) := client.answer c w.peer
    (r, { w with peer := peer })
  | .cache c, w =>
    let (r, rest) := w.toCacheWorld.answer c
    (r, { w with toCacheWorld := rest })
  | .makeDirectories path, w =>
    let (r, files) := w.files.makeDirectories path
    (r, { w with files := files })
  | .log _, w | .print _, w => ((), w)

/-- All that is logged about a reply. -/
def events (w : World) (a : Ask) (r : a.Reply) : List LogEvent :=
  w.aside a r ++ w.source.events a r ++ a.events r

/-- What is shown when something is asked and replied to. -/
def shown (w : World) (a : Ask) (r : a.Reply) : List Shown :=
  ((w.events a r).filter w.enabled).map .event ++ a.line?.toList.map .line

def answer (a : Ask) (w : World) : a.Reply × World :=
  let (r, after) := w.reply a
  (r, { after with output := w.output ++ w.shown a r })

end World

end Oncall
