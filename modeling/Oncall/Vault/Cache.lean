import Oncall.Files
import Oncall.Vault.Access
import Oncall.Vault.Client
import Oncall.Workflow

/-!
Secrets through a cache of files. A file that is young enough is served; otherwise Vault is asked
and the file is written. A failed write does not fail the lookup, and a file that cannot be read is
removed and Vault asked once more. Lookups that share a file run one at a time.
-/

namespace Oncall.Vault

/-- What a lookup asks of the world. -/
inductive CacheCall where
  | now
  | changed (path : String)
  | fetch (url token path : String)
  | warn (text : String)
  | write (path text : String)
  | readText (path : String)
  | remove (path : String)
  deriving DecidableEq, Repr

abbrev CacheCall.Reply : CacheCall → Type
  | .now => Instant
  | .changed _ => Except FileError Instant
  | .fetch _ _ _ => Except ApiError SecretResponse
  | .warn _ => Unit
  | .write _ _ => Except FileError Unit
  | .readText _ => Except FileError String
  | .remove _ => Except FileError Unit

abbrev Lookup (α : Type) := Workflow CacheCall CacheCall.Reply Unit α

/-- How long a file is served: six hours. -/
def defaultMaxAge : Nat := 6 * 60 * 60 * nanosPerSecond

structure Cache where
  dir : String
  maxAge : Nat
  deriving DecidableEq, Repr

/-- The file name for an access; separators become underscores. -/
def cacheName (a : Access) : String :=
  String.ofList
    ((a.mount ++ "-" ++ a.property).toList.map fun c => if c = '/' ∨ c = '\\' then '_' else c)

namespace Cache

/-- The file for an access. -/
def path (c : Cache) (a : Access) : String := joinPath c.dir (cacheName a)

/-- Whether the file is there and young enough. -/
def isFresh (c : Cache) (path : String) : Lookup Bool :=
  .call () (.changed path) fun
    | .error _ => .done false
    | .ok changed => .call () .now fun now => .done (now.isFresh changed c.maxAge)

/-- Logs texts in order. -/
def warnAll : List String → Lookup Unit
  | [] => .done ()
  | t :: ts => .call () (.warn t) fun _ => warnAll ts

/-- Asks Vault for the property. -/
def ask (a : Access) : Lookup (Except Error String) :=
  .call () (.fetch a.url a.token a.fullPath) fun
    | .error e => .done (.error (.api e))
    | .ok r =>
      let (warnings, result) := r.extract a.fullPath a.property
      (warnAll warnings).bind fun _ => .done result

/-- Writes the file; one that could not be written is removed. -/
def save (path text : String) : Lookup Bool :=
  .call () (.write path text) fun
    | .ok () => .done true
    | .error _ => .call () (.remove path) fun _ => .done false

/-- Serves the file, or Vault's word if the file cannot be read. -/
def serve (path : String) (a : Access) : Lookup (Except Error String) :=
  .call () (.readText path) fun
    | .ok text => .done (.ok text)
    | .error _ => .call () (.remove path) fun _ => ask a

/-- Asks Vault, saves the answer and serves it. -/
def refresh (path : String) (a : Access) : Lookup (Except Error String) :=
  (ask a).bind fun
    | .error e => .done (.error e)
    | .ok text => (save path text).bind fun saved =>
      if saved then serve path a else .done (.ok text)

/-- The lookup of a secret. -/
def get (c : Cache) (a : Access) : Job CacheCall CacheCall.Reply Unit (Except Error String) :=
  let path := c.path a
  .locked path ()
    ((c.isFresh path).bind fun fresh => if fresh then serve path a else refresh path a)

end Cache

/-- Files, Vault and the log. -/
structure CacheWorld where
  files : FileSystem
  peer : Http.Peer
  warnings : List String

namespace CacheWorld

/-- The result of a file operation that changes the files. -/
def changeFiles (w : CacheWorld) (r : Except FileError FileSystem) :
    Except FileError Unit × CacheWorld :=
  match r with
  | .ok files => (.ok (), { w with files := files })
  | .error e => (.error e, w)

def answer : (c : CacheCall) → CacheWorld → c.Reply × CacheWorld
  | .now, w => (w.files.clock, w)
  | .changed path, w => (w.files.changed path, w)
  | .fetch url token path, w =>
    let (r, peer) := read url token path w.peer
    (r, { w with peer := peer })
  | .warn text, w => ((), { w with warnings := w.warnings ++ [text] })
  | .write path text, w => w.changeFiles (w.files.write path (Utf8.encode text.toList))
  | .readText path, w => (w.files.readText path, w)
  | .remove path, w => w.changeFiles (w.files.remove path)

/-- The clock moves on by a number of nanoseconds, unless it would run out. -/
def pass (span : Nat) (w : CacheWorld) : CacheWorld :=
  { w with files.clock := w.files.clock.after span }

end CacheWorld

end Oncall.Vault
