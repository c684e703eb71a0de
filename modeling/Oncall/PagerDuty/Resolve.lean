import Oncall.PagerDuty.Ticketing
import Oncall.Source.Objects

/-!
Filling a config from the objects that hold it. Each step reads one object; if that fails, the
config stays as it was.
-/

namespace Oncall.PagerDuty

namespace TicketingConfig

/-- Takes credentials and defaults from the operator's Secret. -/
def loadSecret (c : TicketingConfig) : Reading (TicketingConfig × Except ConfigError Unit) :=
  .call () (.secret operatorNamespace apiKeySecret) fun
    | .error e => .done (c, .error e)
    | .ok payload => .done (c.readSecret payload)

/-- Takes the stored IDs of a cluster from its ConfigMap. -/
def loadIds (c : TicketingConfig) (nspace cluster : String) :
    Reading (TicketingConfig × Except ConfigError Unit) :=
  let name := clusterConfigMapName cluster
  .call () (.configMap nspace name) fun
    | .error e => .done (c, .error e)
    | .ok texts => .done (c.readIds (objectRef nspace name) (Payload.ofTexts texts))

/-- The config of a cluster that has been provisioned. -/
def loadCluster (nspace cluster : String) : Reading (Except ConfigError TicketingConfig) :=
  empty.loadSecret.bind fun
    | (_, .error e) => .done (.error e)
    | (c, .ok ()) => (c.loadIds nspace cluster).bind fun
      | (_, .error e) => .done (.error e)
      | (c, .ok ()) => .done (.ok c)

end TicketingConfig

end Oncall.PagerDuty
