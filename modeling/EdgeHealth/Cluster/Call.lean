import EdgeHealth.Catalog
import EdgeHealth.Cluster.Error
import EdgeHealth.Kube.Node
import EdgeHealth.Kube.Pod
import EdgeHealth.Resource
import EdgeHealth.Version

/-!
# Questions to the cluster

The questions that checks and bundles put to a cluster, and what the answers to them are. A cluster
is what answers: for each question it says how long the answer takes, and the answer or a failure.

## Main definitions

* `Call` : the questions.
* `Call.Answer` : the type of the answers to a question.
* `Cluster` : a reply to every question.
-/

namespace EdgeHealth

/-- The kinds of workloads that are listed by namespace. -/
inductive Workload where
  | deployment
  | daemonSet
  | replicaSet
  | statefulSet
  | service
  | event
  deriving DecidableEq, Repr

namespace Workload

/-- The kinds of workloads, in order. -/
def all : List Workload := [.deployment, .daemonSet, .replicaSet, .statefulSet, .service, .event]

/-- The word for a kind of workloads. -/
def word : Workload → String
  | .deployment => "deployment"
  | .daemonSet => "daemonset"
  | .replicaSet => "replicaset"
  | .statefulSet => "statefulset"
  | .service => "service"
  | .event => "event"

end Workload

/-- A resource that an API serves: the name under which it is asked for, and its kind. -/
structure ApiResource where
  /-- The name; a part of a resource has its name after a slash. -/
  name : String
  /-- The name of the kind. -/
  kind : String
  deriving DecidableEq, Repr

/-- What comes of a connection to a port of a pod. -/
inductive Connection where
  /-- The request cannot be written. -/
  | failsWriting (reason : String)
  /-- The request cannot be sent. -/
  | failsSending (reason : String)
  /-- The response cannot be read. -/
  | failsReading (reason : String)
  /-- No response ever comes. -/
  | stalls
  /-- The bytes of the response, up to its end. -/
  | responds (bytes : List Nat)
  deriving DecidableEq, Repr

/-- A question to the cluster. -/
inductive Call where
  /-- The version of the cluster. -/
  | serverVersion
  /-- All nodes. -/
  | listNodes
  /-- The names of all storage classes; a class may have none. -/
  | listStorageClasses
  /-- The pods of a namespace, or of all, with a label, or with any. -/
  | listPods (ns selector : Option String)
  /-- The log of a container over the last seconds. -/
  | readPodLog (ns pod container : String) (sinceSeconds : Int)
  /-- The workloads of a kind in a namespace. -/
  | listWorkloads (kind : Workload) (ns : String)
  /-- The resources that an API serves. -/
  | listApiResources (api : ApiVersion)
  /-- The custom resources of a kind in all namespaces. -/
  | listObjects (api : ApiVersion) (plural : String)
  /-- The custom resources of a kind in a namespace. -/
  | listObjectsIn (api : ApiVersion) (ns plural : String)
  /-- A custom resource. -/
  | getObject (api : ApiVersion) (ns plural name : String)
  /-- A connection to a port of a pod. -/
  | forwardPort (ns pod : String) (port : Nat)
  deriving DecidableEq, Repr

/-- The answers to a question. -/
abbrev Call.Answer : Call → Type
  | .serverVersion => Version
  | .listNodes => List Node
  | .listStorageClasses => List (Option String)
  | .listPods .. => List Pod
  | .readPodLog .. => String
  | .listWorkloads .. => List Json
  | .listApiResources _ => List ApiResource
  | .listObjects .. => List Resource
  | .listObjectsIn .. => List Resource
  | .getObject .. => Resource
  | .forwardPort .. => Connection

/-- A reply: how long it takes, in milliseconds, and an answer or a failure. -/
structure Reply (α : Type) where
  /-- How long the reply takes. -/
  delay : Nat
  /-- The answer, or why there is none. -/
  answer : Except ClusterError α

/-- A cluster: a reply to every question, which depends on nothing but the question. -/
structure Cluster where
  /-- The reply to a question. -/
  reply : (c : Call) → Reply c.Answer

end EdgeHealth
