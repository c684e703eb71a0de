import Oncall.Cli.Grammar

/-!
Invocations of the program as their words and environment state them. A flag's value comes from the
words, else from the environment, else from its default. A global flag may stand on several levels;
the deepest counts, unless one above it was given in a stronger way.
-/

namespace Oncall.Cli

/-- An existing cluster, and where PagerDuty is. -/
structure ClusterArgs where
  nspace : String
  clusterName : String
  pagerDutyUrl : String
  deriving DecidableEq, Repr

inductive Command where
  | provision (clusterId baseDomain pagerDutyUrl : String)
  | service (c : ClusterArgs)
  | integrationKey (c : ClusterArgs)
  | deprovision (c : ClusterArgs)
  | getSecret (nspace secretName : String) (cacheDir : Option String)
  deriving DecidableEq, Repr

structure Invocation where
  kubeconfig : Option String
  logFormat : LogFormat
  command : Command
  deriving DecidableEq, Repr

/-- Why there is nothing to run. -/
inductive Refusal where
  | help
  | version
  | helpForNothing
  | invalidValue
  | unknownArgument
  | tooManyValues
  | repeatedArgument
  | invalidSubcommand
  | missingSubcommand
  | missingArgument
  deriving DecidableEq, Repr

def Refusal.message : Refusal → String
  | .help => "help was asked for"
  | .version => "the version was asked for"
  | .helpForNothing => "a command is needed"
  | .invalidValue => "a value is missing or invalid"
  | .unknownArgument => "an argument is not known here"
  | .tooManyValues => "a flag takes no value"
  | .repeatedArgument => "a flag is given twice"
  | .invalidSubcommand => "there is no such command"
  | .missingSubcommand => "a command is missing"
  | .missingArgument => "a flag is missing"

/-- Explaining what was asked about is a success. -/
def Refusal.exitCode : Refusal → Nat
  | .help | .version => 0
  | _ => 2

/-- What a word looks like before it is known what it is for. -/
inductive Word where
  | escape
  | long (name : String) (value : Option String)
  | short (letters : List Char)
  | plain

/-- A name up to the first equals sign, and the value after it. -/
def splitValue (cs : List Char) : String × Option String :=
  match Parts.cut (· = '=') cs with
  | (name, []) => (String.ofList name, none)
  | (name, _ :: value) => (String.ofList name, some (String.ofList value))

def Word.ofString (s : String) : Word :=
  match s.toList with
  | ['-', '-'] => .escape
  | '-' :: '-' :: rest => .long (splitValue rest).1 (splitValue rest).2
  | '-' :: c :: rest => .short (c :: rest)
  | _ => .plain

/-- What was read on one level. The value of the last flag is settled when the next one starts or
the words end. -/
structure Scope where
  level : Level
  found : List (Flag × String)
  pending : Option (Flag × Option String)

namespace Scope

def start (l : Level) : Scope := ⟨l, [], none⟩

/-- A flag gets its value. -/
def take (s : Scope) (f : Flag) (value : String) : Except Refusal Scope :=
  if (s.found.lookup f).isSome then .error .repeatedArgument
  else if f.accepts value then .ok { s with found := s.found ++ [(f, value)] }
  else .error .invalidValue

def settle (s : Scope) : Except Refusal Scope :=
  match s.pending with
  | none => .ok s
  | some (_, none) => .error .invalidValue
  | some (f, some value) => { s with pending := none }.take f value

/-- Whether the next word may be the value of a flag. -/
def isWaiting (s : Scope) : Bool := s.pending.any fun p => p.2.isNone

/-- A flag stands here, with a value attached or to come. -/
def flag (s : Scope) (f : Flag) (attached : Option String) : Except Refusal Scope := do
  let s ← s.settle
  match attached with
  | some value => s.take f value
  | none => .ok { s with pending := some (f, none) }

/-- Something is to be shown instead of a command being run. -/
def shows {α : Type} (s : Scope) (r : Refusal) : Except Refusal α := s.settle.bind fun _ => .error r

/-- A flag without a value that shows something. -/
def showing? (s : Scope) (name : String) : Option Refusal :=
  if name = "help" then some .help
  else if name = "version" ∧ s.level.tellsVersion then some .version
  else none

def long (s : Scope) (name : String) (value : Option String) : Except Refusal Scope :=
  match s.level.long? name, s.showing? name with
  | some f, _ => s.flag f value
  | none, some r => if value.isSome then .error .tooManyValues else s.shows r
  | none, none => .error .unknownArgument

/-- The value attached to a letter; an equals sign may stand between them. -/
def attached? : List Char → Option String
  | [] => none
  | '=' :: rest => some (String.ofList rest)
  | rest => some (String.ofList rest)

def short (s : Scope) : List Char → Except Refusal Scope
  | [] => .ok s
  | c :: rest =>
    match s.level.short? c with
    | some f => s.flag f (attached? rest)
    | none =>
      if c = 'h' then s.shows .help
      else if c = 'V' ∧ s.level.tellsVersion then s.shows .version
      else .error .unknownArgument

/-- A word that nothing asks for. -/
def stray {α : Type} (s : Scope) (word : String) (escaped : Bool) : Except Refusal α :=
  if s.level.isGroup ∧ ¬(escaped ∧ s.level.knows word) then .error .invalidSubcommand
  else .error .unknownArgument

end Scope

/-- What has been read: the level that words are for now, those above it from the inside out, and
whether flags are over. -/
structure Reader where
  scope : Scope
  outer : List Scope
  escaped : Bool

namespace Reader

def start : Reader := ⟨.start .program, [], false⟩

def enter (r : Reader) (l : Level) : Reader := ⟨.start l, r.scope :: r.outer, r.escaped⟩

/-- A word for the level as it is. -/
def word (r : Reader) (w : String) : Except Refusal Reader :=
  match Word.ofString w with
  | .escape => .ok { r with escaped := true }
  | .long name value => (r.scope.long name value).map fun s => { r with scope := s }
  | .short letters => (r.scope.short letters).map fun s => { r with scope := s }
  | .plain =>
    match r.scope.pending with
    | some (f, none) => .ok { r with scope.pending := some (f, some w) }
    | _ => r.scope.stray w false

/-- The words after a command that explains others have to lead to a command. -/
def explain (l : Level) : List String → Refusal
  | [] => .help
  | w :: ws =>
    match l.child? w with
    | some child => explain child ws
    | none => if l.isGroup ∧ w = Level.helpName ∧ ws = [] then .help else .invalidSubcommand

/-- Reads all words. -/
def read (r : Reader) : List String → Except Refusal Reader
  | [] => .ok r
  | w :: ws =>
    if r.escaped then r.scope.stray w true
    else if r.scope.isWaiting then (r.word w).bind fun r => r.read ws
    else
      match r.scope.level.child? w with
      | some l => (r.enter l).read ws
      | none =>
        if r.scope.level.isGroup ∧ w = Level.helpName then .error (explain r.scope.level ws)
        else (r.word w).bind fun r => r.read ws

end Reader

/-- Where a value came from, the weakest first. -/
inductive Origin where
  | default
  | environment
  | words
  deriving DecidableEq, Repr

def Origin.rank : Origin → Nat
  | .default => 0
  | .environment => 1
  | .words => 2

structure Setting where
  origin : Origin
  value : String
  deriving DecidableEq, Repr

abbrev Settings := List (Flag × Setting)

def Settings.value? (s : Settings) (f : Flag) : Option String := (s.lookup f).map (·.value)

/-- The setting that counts of one further out and one further in. -/
def Setting.stronger (outer inner : Option Setting) : Option Setting :=
  match outer, inner with
  | some a, some b => if b.origin.rank < a.origin.rank then some a else some b
  | some a, none => some a
  | none, b => b

abbrev Environment := List (String × String)

namespace Scope

/-- The setting of a flag on this level. A variable that is looked at has to be acceptable. -/
def setting (s : Scope) (env : Environment) (f : Flag) : Except Refusal (Option Setting) :=
  match s.found.lookup f with
  | some value => .ok (some ⟨.words, value⟩)
  | none =>
    match f.envName?.bind fun v => List.lookup v env with
    | some value =>
      if f.accepts value then .ok (some ⟨.environment, value⟩) else .error .invalidValue
    | none => .ok (f.default?.map fun value => ⟨.default, value⟩)

/-- All settings of the level, when its words are over. -/
def settings (s : Scope) (env : Environment) : Except Refusal Settings := do
  let s ← s.settle
  let found ← s.level.flags.mapM fun f => (s.setting env f).map fun v => v.map (f, ·)
  .ok (found.filterMap id)

end Scope

def clusterArgs? (s : Settings) : Option ClusterArgs := do
  some ⟨← s.value? .nspace, ← s.value? .clusterName, ← s.value? .pagerDutyUrl⟩

/-- The command of a level; none if it lacks a flag. -/
def Command.ofSettings? (s : Settings) : Level → Option Command
  | .provision =>
    do some (.provision (← s.value? .clusterId) (← s.value? .baseDomain) (← s.value? .pagerDutyUrl))
  | .service => (clusterArgs? s).map .service
  | .integrationKey => (clusterArgs? s).map .integrationKey
  | .deprovision => (clusterArgs? s).map .deprovision
  | .get => do some (.getSecret (← s.value? .nspace) (← s.value? .secretName) (s.value? .cacheDir))
  | .program | .pagerDuty | .vault => none

/-- The command that the innermost level is for. A group needs a command, and one with nothing at
all explains itself. -/
def Level.command (l : Level) (s : Settings) : Except Refusal Command :=
  if l.isGroup then
    if s.all fun x => x.2.origin = .default then .error .helpForNothing
    else .error .missingSubcommand
  else
    match Command.ofSettings? s l with
    | some c => .ok c
    | none => .error .missingArgument

/-- The global setting of a flag; levels come from the outside in. -/
def globalSetting (levels : List Settings) (f : Flag) : Option Setting :=
  levels.foldl (fun outer s => Setting.stronger outer (s.lookup f)) none

/-- Reads an invocation; the first word is the program's name. Inner levels are settled before those
around them. -/
def Invocation.parse (args : List String) (env : Environment) : Except Refusal Invocation := do
  let r ← Reader.start.read args.tail
  let inner ← r.scope.settings env
  let c ← r.scope.level.command inner
  let outer ← r.outer.mapM fun s => s.settings env
  let levels := outer.reverse ++ [inner]
  let value := fun f => (globalSetting levels f).map (·.value)
  .ok ⟨value .kubeconfig, ((value .logFormat).bind LogFormat.ofName?).getD .plain, c⟩

end Oncall.Cli
