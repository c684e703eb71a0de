import Oncall.Outside

/-!
The secret that a Kubernetes Secret points to.
-/

namespace Oncall.Vault

/-- Reads where the secret lives, and looks it up through the cache. -/
def getSecret (c : Cache) (nspace secretName : String) : Errand (Except Error String) :=
  (Errand.ofReading .access (Access.resolve nspace secretName)).bind fun
    | .error e => .done (.error (.config e))
    | .ok a => Errand.ofLookup (c.get a).body

end Oncall.Vault
