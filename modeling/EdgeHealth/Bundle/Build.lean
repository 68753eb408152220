import EdgeHealth.Bundle.Archive
import EdgeHealth.Bundle.Pool
import EdgeHealth.Bundle.Task
import EdgeHealth.Cluster.Session
import EdgeHealth.Run.Discovery

/-!
# Building a bundle

A bundle is built in four steps. The cluster is asked which services there are; a pool of workers
collects what needs no further plan; another one collects what follows from the pods; and all that
was collected goes into an archive. A failure of a task is a warning; a failure of the first step is
one of the whole.

## Main definitions

* `BundleRequest`, `BundleError` : what is asked for, and why it is not done.
* `Survey` : the services and kinds that there are.
* `Collection` : what has been collected, with `Collection.phase`.
* `Collection.run` : the collection of a bundle, in two phases.
* `Bundle.build` : the bundle in its directory.
-/

namespace EdgeHealth

/-- What kind of a bundle is asked for. -/
structure BundleRequest where
  /-- The services; all those that the cluster serves when they are not given. -/
  services : Option (List Service)
  /-- The age of the oldest log lines in seconds. Without a positive one there are no logs. -/
  logAge : Int
  /-- The name of the directory for the archive. -/
  directory : String
  /-- The name of the file of the archive. -/
  fileName : String
  deriving DecidableEq, Repr

/-- The name of the file of an archive that is written at a point in time. -/
def BundleRequest.fileNameAt (t : Instant) : String := s!"support_bundle_{t.compact}.zip"

/-- Why there is no bundle. -/
inductive BundleError where
  /-- The cluster did not say which services there are. -/
  | unreachable (cause : ClusterError)
  /-- The directory is none. -/
  | invalidDirectory (path : String)
  /-- There is no service to collect from. -/
  | noServices
  /-- Two entries of the archive have one path. -/
  | repeatedPath
  deriving DecidableEq, Repr

/-- The wording of an error; a repeated path has no wording of its own. -/
def BundleError.message? : BundleError → Option String
  | .unreachable cause => some s!"Cannot collect a support bundle: {cause.message}"
  | .invalidDirectory path =>
    some s!"Bundle directory {path} does not exist or is not a directory"
  | .noServices => some "No services selected for the support bundle"
  | .repeatedPath => none

/-! ### The services -/

/-- The services to collect from, and which of their kinds are served. -/
structure Survey where
  /-- The services. -/
  services : List Service
  /-- The kinds that are served. -/
  kinds : List Kind
  /-- What did not go well. -/
  warnings : List String
  deriving DecidableEq, Repr, Inhabited

namespace Survey

/-- Two surveys put together. -/
def append (a b : Survey) : Survey :=
  ⟨a.services ++ b.services, a.kinds ++ b.kinds, a.warnings ++ b.warnings⟩

/-- The survey of a service, given what its API serves. A service that was asked for by name stays,
with a warning, when there is no such API. -/
def ofAnswer (named : Bool) (s : Service) :
    Except ClusterError (List ApiResource) → Except BundleError Survey
  | .ok resources => .ok ⟨[s], Discovery.served s resources, []⟩
  | .error e =>
    if e.isConnectivity then .error (.unreachable e)
    else if named then .ok ⟨[s], [], [s!"{s.api.text} API not detected: {e.message}"]⟩
    else .ok default

/-- The services that may be collected from, in the order of the catalog. -/
def candidates : Option (List Service) → List Service
  | none => Service.all
  | some services => Service.all.filter services.contains

/-- The survey of services, one after another. -/
def ofServices (named : Bool) : List Service → ExceptT BundleError Session Survey
  | [] => return default
  | s :: rest => do
    let answer ← ExceptT.lift (Session.ask (.listApiResources s.api))
    let one ← ExceptT.mk (Session.pure (ofAnswer named s answer))
    let others ← ofServices named rest
    return one.append others

/-- The survey of a request. The cluster has to tell its version first. -/
def take (services : Option (List Service)) : ExceptT BundleError Session Survey := do
  match ← ExceptT.lift (Session.ask .serverVersion) with
  | .error e => throw (.unreachable e)
  | .ok _ => do
    let survey ← ofServices services.isSome (candidates services)
    if survey.services.isEmpty then throw .noServices else return survey

end Survey

/-! ### Collecting -/

/-- What has been collected. -/
structure Collection where
  /-- The artifacts by their paths. Of two with one path the first is kept. -/
  artifacts : Table Payload
  /-- What did not go well. -/
  warnings : List String
  /-- The pods that were found. -/
  pods : List Pod
  /-- How many tasks were not started. -/
  skipped : Nat
  /-- The questions that were put, in order. -/
  calls : List Call
  /-- Whether the collection was cancelled. -/
  cancelled : Bool
  deriving DecidableEq, Repr

/-- The pool that collects. -/
abbrev TaskPool : Type := Pool Task (Except ClusterError Harvest)

/-- How a pool comes to rest, after some count of questions has been put before it. -/
abbrev Conductor : Type := (asked : Nat) → TaskPool → TaskPool

namespace Collection

/-- What the tasks come to on a cluster. -/
def labour (cluster : Cluster) (logAge : Int) : Labour Task (Except ClusterError Harvest) where
  result _ t := t.harvest logAge (cluster.reply (t.call logAge)).answer
  duration _ t := (cluster.reply (t.call logAge)).delay

/-- A collection with the outcome of one more task. -/
def add (c : Collection) : Task × Except ClusterError Harvest → Collection
  | (_, .ok h) =>
    { c with
      artifacts := h.artifacts.foldl (fun t a => t.insertNew a.path a.payload) c.artifacts
      pods := c.pods ++ h.pods }
  | (t, .error e) =>
    { c with warnings := c.warnings ++ [s!"Failed to collect {t.title}: {e.message}"] }

/-- A collection after tasks were put to a pool of workers. -/
def phase (workers : Nat) (conduct : Conductor) (logAge : Int) (c : Collection)
    (tasks : List Task) : Collection :=
  let pool := conduct c.calls.length (Pool.start workers c.cancelled tasks)
  { (pool.inOrder tasks.length).foldl add c with
    skipped := c.skipped + pool.skipped tasks.length
    calls := c.calls ++ pool.started.map (Task.call logAge)
    cancelled := pool.cancelled }

/-- The collection before its first task. -/
def ofSurvey (survey : Survey) (calls : List Call) : Collection :=
  ⟨Table.empty, survey.warnings, [], 0, calls, false⟩

/-- A collection with the warning that it was cancelled, if it was. -/
def noteCancelled (c : Collection) : Collection :=
  if c.cancelled then
    { c with
      warnings := c.warnings ++ [s!"Collection cancelled; {c.skipped} task(s) not started."] }
  else c

/-- The collection of all tasks, in two phases. After a cancellation there is no second one. -/
def run (workers : Nat) (conduct : Conductor) (logAge : Int) (survey : Survey)
    (calls : List Call) : Collection :=
  let first := (ofSurvey survey calls).phase workers conduct logAge
    (Task.initial survey.services survey.kinds)
  let all :=
    if first.cancelled then first
    else first.phase workers conduct logAge (Task.followUp logAge first.pods)
  all.noteCancelled

/-- The entries of the archive: the artifacts that are kept. -/
def entries (c : Collection) : List (String × String) :=
  c.artifacts.toList.filterMap fun (path, payload) =>
    payload.contents?.map fun contents => (path, contents)

end Collection

/-! ### The bundle -/

/-- A bundle that has been written. -/
structure Bundle where
  /-- The services that were collected from. -/
  services : List Service
  /-- What did not go well. -/
  warnings : List String
  deriving DecidableEq, Repr

/-- How building a bundle ended. -/
structure BundleOutcome where
  /-- The bundle, or why there is none. -/
  result : Except BundleError Bundle
  /-- The directory afterwards; none if there is no such directory. -/
  directory : Option Directory
  /-- The questions that were put. -/
  calls : List Call

namespace Bundle

/-- A conductor by which the steps are taken in the order of time. The work is cancelled once
`cancelAfter` questions have been put. -/
def inTime (cluster : Cluster) (logAge : Int) (cancelAfter : Option Nat) : Conductor :=
  fun asked pool =>
    pool.drive (Collection.labour cluster logAge) (cancelAfter.map fun n => n - asked)

/-- The questions in the trace of a session. -/
def callsOf (events : List Event) : List Call :=
  events.filterMap fun e =>
    match e with
    | .asked call => some call
    | .sent _ => none

/-- The bundle of a collection, written into a directory. -/
def store (q : BundleRequest) (d : Directory) (survey : Survey) (c : Collection) :
    BundleOutcome :=
  let (written, after) := d.write q.fileName c.entries
  ⟨if written then .ok ⟨survey.services, c.warnings⟩ else .error .repeatedPath, some after,
    c.calls⟩

/-- A bundle for which all tasks of a survey are collected in some way. The directory is none if
there is no such directory. -/
def buildBy (collect : Survey → List Call → Collection) (cluster : Cluster)
    (directory : Option Directory) (q : BundleRequest) : BundleOutcome :=
  match directory with
  | none => ⟨.error (.invalidDirectory q.directory), none, []⟩
  | some d =>
    let surveyed := Session.run (Survey.take q.services).run cluster
    let calls := callsOf surveyed.events
    match surveyed.result with
    | .ok (.ok survey) => store q d survey (collect survey calls)
    | .ok (.error e) => ⟨.error e, some d, calls⟩
    | .error _ => ⟨.error .noServices, some d, calls⟩

/-- A bundle, built by some workers. -/
def build (cluster : Cluster) (workers : Nat) (conduct : Conductor)
    (directory : Option Directory) (q : BundleRequest) : BundleOutcome :=
  buildBy (Collection.run workers conduct q.logAge) cluster directory q

end Bundle

end EdgeHealth
