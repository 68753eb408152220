import EdgeHealth.Evaluate.Finding

/-!
# What a run is asked to do

The request for a run: the phases, the services, the kinds and names of resources, and how much of
each is shown.

## Main definitions

* `RunRequest` : the request.
* `RunRequest.runsBefore`, `RunRequest.runsAfter` : the phases of the run.
* `RunRequest.selectedServices` : the services of the run.
* `RunRequest.selectedKinds` : the kinds of a service that are looked at.
-/

namespace EdgeHealth

/-- What a run is asked to do. -/
structure RunRequest where
  /-- The heading of the report. -/
  title : Option String
  /-- The services; all of them when there is none. -/
  services : List Service
  /-- Whether the checks before deployment are asked for. -/
  beforeDeployment : Bool
  /-- Whether the checks after deployment are asked for. -/
  afterDeployment : Bool
  /-- Whether lines for human readers are kept. -/
  withDisplays : Bool
  /-- How much of a resource is shown. -/
  level : DetailLevel
  /-- Words for the kinds that are looked at; all kinds without them. -/
  kinds : Option (List String)
  /-- A pattern for the names of the resources that are looked at. -/
  namePattern : Option String
  /-- The kinds that are left out. -/
  excluded : List Kind
  /-- What the cluster has to offer. -/
  policy : ReadinessPolicy
  deriving DecidableEq, Repr, Inhabited

namespace RunRequest

/-- Whether the checks before deployment run. A request for no phase is one for both. -/
def runsBefore (q : RunRequest) : Bool := q.beforeDeployment || !q.afterDeployment

/-- Whether the checks after deployment run. A request for no phase is one for both. -/
def runsAfter (q : RunRequest) : Bool := q.afterDeployment || !q.beforeDeployment

/-- The services of the run, in the order of the catalog. -/
def selectedServices (q : RunRequest) : List Service :=
  Service.all.filter fun s => q.services.isEmpty || q.services.contains s

/-- Whether a kind is looked at. -/
def selects (q : RunRequest) (k : Kind) : Bool :=
  (match q.kinds with
    | none => true
    | some filters => filters.any k.matchesFilter) && !q.excluded.contains k

/-- The kinds of a service that are looked at, in the order in which they are checked. -/
def selectedKinds (q : RunRequest) (s : Service) : List Kind := s.kinds.filter q.selects

/-- The scope of the checks before deployment. -/
def scopeBefore (q : RunRequest) (context : RunContext) : Scope :=
  ⟨context, .any, q.level, q.withDisplays⟩

/-- The scope of the checks after deployment. -/
def scopeAfter (q : RunRequest) (context : RunContext) : Scope :=
  ⟨context, .ofPattern q.namePattern, q.level, q.withDisplays⟩

end RunRequest

end EdgeHealth
