import Oncall.Text.Quoted

/-!
What is logged, and how log lines are set up. An event is let through by the directive that names
most of its target, if that goes as far as the event's level. A process has one place for its log,
and it can be taken only once.
-/

namespace Oncall

inductive LogFormat where
  | plain
  | json
  deriving DecidableEq, Repr

namespace LogFormat

def name : LogFormat → String
  | .plain => "plain"
  | .json => "json"

/-- The format of a name, which is lower case. -/
def ofName? (s : String) : Option LogFormat := [plain, json].find? fun f => f.name == s

def shown : LogFormat → String
  | .plain => "Plain"
  | .json => "Json"

end LogFormat

/-- How much an event matters, what matters most first. -/
inductive LogLevel where
  | error
  | warn
  | info
  | debug
  | trace
  deriving DecidableEq, Repr

namespace LogLevel

def name : LogLevel → String
  | .error => "error"
  | .warn => "warn"
  | .info => "info"
  | .debug => "debug"
  | .trace => "trace"

def rank : LogLevel → Nat
  | .error => 1
  | .warn => 2
  | .info => 3
  | .debug => 4
  | .trace => 5

end LogLevel

/-- Something that happened in a part of the program, with what is known about it. -/
structure LogEvent where
  level : LogLevel
  target : String
  message : String
  fields : List (String × String)
  deriving DecidableEq, Repr

/-- Lets events through up to a level, if their target starts with a text. -/
structure LogDirective where
  target : String
  level : LogLevel
  deriving DecidableEq, Repr

namespace LogDirective

def text (d : LogDirective) : String :=
  if d.target.isEmpty then d.level.name else d.target ++ "=" ++ d.level.name

/-- The one of two directives that names more of a target; the later one if they name the same. -/
def closer : Option LogDirective → LogDirective → Option LogDirective
  | some a, b => if b.target.length < a.target.length then some a else some b
  | none, b => some b

/-- The directive that decides on a target. -/
def deciding? (ds : List LogDirective) (target : String) : Option LogDirective :=
  (ds.filter fun d => d.target.toList.isPrefixOf target.toList).foldl closer none

/-- Whether an event is let through. -/
def enable (ds : List LogDirective) (e : LogEvent) : Bool :=
  (deciding? ds e.target).any fun d => e.level.rank ≤ d.level.rank

end LogDirective

/-- What is let through if nothing else is asked for. -/
def defaultDirectives : List LogDirective :=
  [⟨"", .info⟩, ⟨"pdo", .debug⟩, ⟨"kube", .info⟩, ⟨"hyper", .warn⟩, ⟨"reqwest", .warn⟩]

def defaultFilter : String := ",".intercalate (defaultDirectives.map LogDirective.text)

/-- A filter, if there is one, wins over the default. -/
structure TracingConfig where
  format : LogFormat
  filter : Option String
  deriving DecidableEq, Repr

def TracingConfig.shown (c : TracingConfig) : String :=
  shownRecord "TracingConfig" [
    ("format", c.format.shown),
    ("filter", match c.filter with
      | none => "None"
      | some f => "Some(" ++ quoted f ++ ")")]

/-- Why the log could not be set up. -/
structure TelemetryError where
  reason : String
  deriving DecidableEq, Repr

def TelemetryError.message (e : TelemetryError) : String :=
  "failed to initialize tracing subscriber: " ++ e.reason

def alreadyInstalled : TelemetryError := ⟨"a global default trace dispatcher has already been set"⟩

/-- Takes the place for the log, unless it is taken. -/
def initTracing (_ : TracingConfig) (taken : Bool) : Except TelemetryError Unit :=
  if taken then .error alreadyInstalled else .ok ()

end Oncall
