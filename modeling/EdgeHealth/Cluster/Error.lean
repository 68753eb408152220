import EdgeHealth.Text.Pieces

/-!
# Failures of the cluster

Why a question to the cluster was not answered.

## Main definitions

* `ClusterError` : the causes.
* `ClusterError.message` : their wording.
* `ClusterError.isNotFound`, `ClusterError.isConnectivity` : the causes that are treated apart.
-/

namespace EdgeHealth

/-- Why a question to the cluster was not answered. -/
inductive ClusterError where
  /-- The cluster could not be reached. -/
  | connectivity (message : String)
  /-- The thing asked for does not exist. -/
  | notFound (kind name : String)
  /-- There was no answer in time; the time is in milliseconds. -/
  | timeout (operation : String) (after : Nat)
  /-- The cluster refused. -/
  | api (code : Nat) (message : String)
  /-- The answer could not be understood. -/
  | decode (message : String)
  deriving DecidableEq, Repr

namespace ClusterError

/-- The wording of a failure. -/
def message : ClusterError → String
  | .connectivity text => s!"Unable to reach the cluster API: {text}"
  | .notFound kind name => s!"{kind} '{name}' not found"
  | .timeout operation after => s!"{operation} timed out after {after / 1000}s"
  | .api code text => s!"Kubernetes API error ({code}): {text}"
  | .decode text => s!"Unable to decode response: {text}"

/-- Whether the thing asked for does not exist. -/
def isNotFound : ClusterError → Bool
  | .notFound .. => true
  | _ => false

/-- Whether the cluster was not reached, or not in time. -/
def isConnectivity : ClusterError → Bool
  | .connectivity _ => true
  | .timeout .. => true
  | _ => false

end ClusterError

end EdgeHealth
