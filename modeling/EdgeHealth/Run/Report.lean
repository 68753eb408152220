import EdgeHealth.Evaluate.Pods
import EdgeHealth.Evaluate.Readiness
import EdgeHealth.Evaluate.Resources
import EdgeHealth.Evaluate.Statistics
import EdgeHealth.Run.Discovery
import EdgeHealth.Run.Planned
import EdgeHealth.Run.Request

/-!
# The report of a run

A run looks at what the cluster offers, and then at each service: what its API serves, its kinds of
resources, its pods, and for the diagnostics the statistics of the broker.

## Main definitions

* `RunRequest.plansBefore` : the checks before deployment.
* `RunRequest.kindPlan`, `RunRequest.plansBeside` : the checks of a service.
* `RunRequest.before`, `RunRequest.after` : the two phases as sessions with the cluster.
* `RunRequest.report` : the whole run.
-/

namespace EdgeHealth.RunRequest

/-! ### Before deployment -/

/-- The checks before deployment. The storage classes are looked at only where some are named. -/
def plansBefore (q : RunRequest) (context : RunContext) : List Planned :=
  let scope := q.scopeBefore context
  [⟨Readiness.versionCheck, Readiness.versionDescription, Readiness.versionTarget,
      Readiness.checkVersion scope q.policy⟩,
    ⟨Readiness.nodesCheck, Readiness.nodesDescription, Readiness.nodesTarget,
      Readiness.checkNodes scope q.policy⟩] ++
  if q.policy.storageClasses.isEmpty then []
  else
    [⟨Readiness.storageCheck, Readiness.storageDescription, Readiness.storageTarget,
      Readiness.checkStorageClasses scope q.policy⟩]

/-- The phase before deployment. -/
def before (q : RunRequest) (context : RunContext) : Session (List Check) :=
  Session.forEach (Planned.run context.deadline) (q.plansBefore context)

/-! ### After deployment -/

/-- The check of a kind. -/
def kindPlan (q : RunRequest) (context : RunContext) (k : Kind) : Planned :=
  ⟨k.checkName, k.description, k.target, k.check (q.scopeAfter context)⟩

/-- The checks of a service beside those of its kinds. A request for single kinds leaves the pods
out. -/
def plansBeside (q : RunRequest) (context : RunContext) (s : Service) : List Planned :=
  let scope := q.scopeAfter context
  (if q.kinds.isNone then
    [⟨s.podCheck, s.podCheckDescription, s!"{s.word}/pods", s.checkPods scope⟩]
  else []) ++
  if s = .diagnostics ∧ context.brokerStats then
    [⟨Statistics.checkName, Statistics.description, Statistics.target, Statistics.check scope⟩]
  else []

/-- The check of a kind, or the check that says that the kind is not served. -/
def kindCheck (q : RunRequest) (context : RunContext) (served : List Kind) (k : Kind) :
    Session Check :=
  if served.contains k then (q.kindPlan context k).run context.deadline
  else Session.pure (Discovery.absentKind q.withDisplays k)

/-- The checks of a service whose API has been discovered. -/
def discovered (q : RunRequest) (context : RunContext) (s : Service)
    (resources : List ApiResource) : Session (List Check) := do
  let served := Discovery.served s resources
  let ofKinds ← Session.forEach (q.kindCheck context served) (q.selectedKinds s)
  let beside ← Session.forEach (Planned.run context.deadline) (q.plansBeside context s)
  return Discovery.check q.withDisplays s served :: ofKinds ++ beside

/-- The checks of a service whose API has not been discovered in time. -/
def undiscovered (q : RunRequest) (context : RunContext) (s : Service) : List Check :=
  .cancelled s.enumerationCheck (Discovery.description s) s.api.text ::
    ((q.selectedKinds s).map (q.kindPlan context) ++ q.plansBeside context s).map
      Planned.cancelled

/-- The checks of a service once its API was asked for. Without an answer there was none in time. -/
def afterDiscovery (q : RunRequest) (context : RunContext) (s : Service) :
    Option (Except ClusterError (List ApiResource)) → Session (List Check)
  | some (.ok resources) => q.discovered context s resources
  | some (.error e) =>
    if e.isNotFound then return [Discovery.missingApi q.withDisplays s]
    else return [.failed s.enumerationCheck (Discovery.description s) s.api.text e]
  | none => return q.undiscovered context s

/-- The phase after deployment for one service. -/
def afterFor (q : RunRequest) (context : RunContext) (s : Service) : Session (List Check) := do
  q.afterDiscovery context s
    (← Session.within context.deadline (Session.ask (.listApiResources s.api)))

/-- The phase after deployment. -/
def after (q : RunRequest) (context : RunContext) : Session (List Check) := do
  let checks ← Session.forEach (q.afterFor context) q.selectedServices
  return checks.flatten

/-! ### The whole run -/

/-- The phase before deployment, if it is asked for. -/
def beforeIfAsked (q : RunRequest) (context : RunContext) : Session (List Check) :=
  if q.runsBefore then q.before context else pure []

/-- The phase after deployment, if it is asked for. -/
def afterIfAsked (q : RunRequest) (context : RunContext) : Session (List Check) :=
  if q.runsAfter then q.after context else pure []

/-- The report of a run. -/
def report (q : RunRequest) (context : RunContext) : Session Report := do
  let before ← q.beforeIfAsked context
  let after ← q.afterIfAsked context
  return ⟨q.title, before, after⟩

end EdgeHealth.RunRequest
