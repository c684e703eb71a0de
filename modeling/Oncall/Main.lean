import Oncall.Cli.Run
import Oncall.Source.Kubeconfig.Connect
import Std.Time.DateTime.Timestamp

/-!
The command line program. It reads its kubeconfig and makes directories; no connection is ever
established, so every request over the network fails the way one without a response does.
-/

namespace Oncall.Cli

/-- The world without a network. -/
def offline (server : Option Url) : World :=
  { files := .empty Instant.epoch
    peer := ⟨[], false, [], []⟩
    warnings := []
    source := .cluster server }

/-- Does what is asked, directories and printing for real. Without a network there is no reply to
log. -/
def perform (w : World) : (a : Ask) → IO a.Reply
  | .makeDirectories path => do
    try
      IO.FS.createDirAll path
      pure (.ok ())
    catch _ => pure (.error .alreadyExists)
  | .print line => IO.println line
  | a => pure (w.answer a).1

/-- The environment as far as flags look at it. -/
def environment : IO Environment := do
  let names := (Level.globalFlags ++ Level.service.ownFlags).filterMap Flag.envName?
  let found ← names.mapM fun name => do pure ((← IO.getEnv name).map (name, ·))
  pure (found.filterMap id)

/-- The content of a file that can be read. -/
def readFile (path : String) : IO (Option Bytes) := do
  try
    let bytes ← IO.FS.readBinFile path
    pure (some bytes.toList)
  catch _ => pure none

/-- The present time. -/
def now : IO Instant := do
  let t ← Std.Time.Timestamp.now
  pure ((Instant.ofNanos? t.toNanosecondsSinceUnixEpoch.val).getD .epoch)

/-- Connects to the server that a kubeconfig leads to; without a path it is looked for at home. -/
def connect (path : Option String) : IO (Except ConfigError (Option Url)) := do
  let home := (← IO.getEnv "HOME").getD ""
  (Kubeconfig.connect (← now) (path.getD (home ++ "/.kube/config"))).run.runIn readFile

/-- Runs an invocation. -/
def execute (i : Invocation) : IO (Except Error Unit) := do
  let server ← connect i.kubeconfig
  (i.run server).runIn (perform (offline server.toOption.join))

end Oncall.Cli

open Oncall.Cli in
def main (args : List String) : IO UInt32 := do
  match Invocation.parse ("oncall" :: args) (← environment) with
  | .error r =>
    IO.eprintln r.message
    pure (UInt32.ofNat r.exitCode)
  | .ok i =>
    match ← execute i with
    | .ok _ => pure 0
    | .error e =>
      IO.eprintln e.message
      pure 1
