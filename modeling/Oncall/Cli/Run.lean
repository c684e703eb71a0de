import Oncall.Cli.Invocation
import Oncall.PagerDuty.Provision
import Oncall.PagerDuty.Resolve
import Oncall.Vault.Secret

/-!
What commands do. A command does all else that it has to do before it prints its result.
-/

namespace Oncall.Cli

open PagerDuty (Client TicketingConfig)

inductive Error where
  | config (e : ConfigError)
  | pagerDuty (e : PagerDuty.Error)
  | vault (e : Vault.Error)
  | io (context : String) (cause : FileError)
  | telemetry (e : TelemetryError)
  deriving DecidableEq, Repr

def Error.message : Error → String
  | .config e => e.message
  | .pagerDuty e => e.message
  | .vault e => e.message
  | .io context cause => context ++ ": " ++ cause.message
  | .telemetry e => e.message

/-- A command; it prints its result before it ends. -/
abbrev Printing := Errand (Except Error Unit)

def failing (e : Error) : Printing := .done (.error e)

/-- Prints lines and ends. -/
def printing : List String → Printing
  | [] => .done (.ok ())
  | line :: lines => .call () (.print line) fun () => printing lines

/-- Goes on with what PagerDuty returned. -/
def onSuccess {α : Type} (next : α → Printing) : Except PagerDuty.Error α → Printing
  | .ok a => next a
  | .error e => failing (.pagerDuty e)

def clientOf (c : TicketingConfig) (url : String) : Client := .connect url c.apiKey

def provisionedEvent (c : TicketingConfig) : LogEvent :=
  ⟨.info, "pdo_cli::commands::pagerduty", "Provisioned PagerDuty service",
    [("cluster", c.clusterId)]⟩

def provision (clusterId baseDomain url : String) : Printing :=
  let config := TicketingConfig.forCluster clusterId baseDomain
  (Errand.ofReading .ticketing config.loadSecret).bind fun
    | (_, .error e) => failing (.pagerDuty (.config e))
    | (c, .ok ()) => (Errand.ofCalls (clientOf c url) c.provision.body).bind fun (c, r) =>
      onSuccess (fun id => .call () (.log (provisionedEvent c)) fun () =>
        printing ["SERVICE_ID=" ++ c.serviceId, "INTEGRATION_ID=" ++ id]) r

/-- Does something with the client and the stored IDs of a cluster. -/
def withCluster (a : ClusterArgs) (next : TicketingConfig → Client → Printing) : Printing :=
  (Errand.ofReading .ticketing (TicketingConfig.loadCluster a.nspace a.clusterName)).bind fun
    | .error e => failing (.pagerDuty (.config e))
    | .ok c => next c (clientOf c a.pagerDutyUrl)

def showService (a : ClusterArgs) : Printing :=
  withCluster a fun c client =>
    (Errand.ofCalls client (PagerDuty.getService c.serviceId)).bind
      (onSuccess fun s => printing [s.id ++ "\t" ++ s.name])

def showIntegrationKey (a : ClusterArgs) : Printing :=
  withCluster a fun c client =>
    (Errand.ofCalls client (PagerDuty.getIntegrationKey c.serviceId c.integrationId)).bind
      (onSuccess fun key => printing [key])

def deprovision (a : ClusterArgs) : Printing :=
  withCluster a fun c client =>
    (Errand.ofCalls client (PagerDuty.deprovision c.serviceId)).bind
      (onSuccess fun () => printing ["deleted " ++ c.serviceId])

/-- Where cache files are if no directory is named. -/
def defaultCacheDir : String := "/tmp"

def cacheIn (dir : String) : Vault.Cache := ⟨dir, Vault.defaultMaxAge⟩

def printSecret (c : Vault.Cache) (nspace secretName : String) : Printing :=
  (Vault.getSecret c nspace secretName).bind fun
    | .ok secret => printing [secret]
    | .error e => failing (.vault e)

/-- A directory that is named is made before anything else is done. -/
def getSecret (nspace secretName : String) : Option String → Printing
  | none => printSecret (cacheIn defaultCacheDir) nspace secretName
  | some dir =>
    .call () (.makeDirectories dir) fun
      | .ok () => printSecret (cacheIn dir) nspace secretName
      | .error e => failing (.io ("failed to create cache directory " ++ dir) e)

def Command.run : Command → Printing
  | .provision clusterId baseDomain url => Cli.provision clusterId baseDomain url
  | .service c => showService c
  | .integrationKey c => showIntegrationKey c
  | .deprovision c => Cli.deprovision c
  | .getSecret nspace secretName cacheDir => Cli.getSecret nspace secretName cacheDir

/-- What an invocation does, once connecting to a server of objects has succeeded or failed. -/
def Invocation.run {α : Type} (i : Invocation) : Except ConfigError α → Printing
  | .ok _ => i.command.run
  | .error e => failing (.config e)

/-- Sets up the log of an invocation. -/
def Invocation.initTracing (i : Invocation) (taken : Bool) : Except Error Unit :=
  (Oncall.initTracing ⟨i.logFormat, none⟩ taken).mapError .telemetry

end Oncall.Cli
