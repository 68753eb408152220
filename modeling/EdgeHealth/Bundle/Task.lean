import EdgeHealth.Bundle.Payload
import EdgeHealth.Cluster.Call

/-!
# Tasks of a bundle

A bundle is collected by tasks. A task puts one question to the cluster and turns the answer into
artifacts; the tasks for pods also yield the pods, from which further tasks are planned.

## Main definitions

* `Task` : the tasks.
* `Task.call` : the question of a task.
* `Task.harvest` : what a task makes of the answer.
* `Task.initial`, `Task.followUp` : the tasks of the two phases.
-/

namespace EdgeHealth

/-- One task of collecting a bundle. -/
inductive Task where
  /-- The custom resources of a kind. -/
  | resources (kind : Kind)
  /-- The pods of a service. -/
  | pods (service : Service)
  /-- The nodes. -/
  | nodes
  /-- The log of a container. -/
  | podLog (ns pod container : String)
  /-- The measurement of a pod. -/
  | podMetric (ns pod : String)
  /-- The workloads of a kind in a namespace. -/
  | workloads (ns : String) (kind : Workload)
  deriving DecidableEq, Repr

/-- What a task yields. -/
structure Harvest where
  /-- The artifacts. -/
  artifacts : List Artifact
  /-- The pods from which further tasks are planned. -/
  pods : List Pod
  deriving DecidableEq, Repr, Inhabited

namespace Task

/-- The API of the measurements of pods. -/
def metricsApi : ApiVersion := ⟨"metrics.k8s.io", "v1beta1"⟩

/-- What a task collects, in words. -/
def title : Task → String
  | .resources kind => s!"custom resources {kind.plural}"
  | .pods service => s!"pods for {service.word}"
  | .nodes => "nodes"
  | .podLog ns pod container => s!"log of pod {ns}/{pod} container {container}"
  | .podMetric ns pod => s!"metrics of pod {ns}/{pod}"
  | .workloads ns kind => s!"{kind.word}s in namespace {ns}"

/-- The question of a task, given the age of the oldest log lines in seconds. -/
def call (logAge : Int) : Task → Call
  | .resources kind => .listObjects kind.api kind.plural
  | .pods service => .listPods none (some service.podSelector)
  | .nodes => .listNodes
  | .podLog ns pod container => .readPodLog ns pod container logAge
  | .podMetric ns pod => .getObject metricsApi ns "pods" pod
  | .workloads ns kind => .listWorkloads kind ns

/-- The artifact for a custom resource. -/
def resourceArtifact (kind : Kind) (r : Resource) : Artifact :=
  ⟨s!"{Resource.ns r}/{kind.word}.{Resource.name r}.yaml", .yaml r⟩

/-- The artifact for a pod. -/
def podArtifact (p : Pod) : Artifact :=
  ⟨s!"{p.nsOr allNamespaces}/pod.{p.name}.yaml", .yaml p.toJson⟩

/-- What a task makes of the answer to its question. That there is no measurement of a pod is no
failure. -/
def harvest (logAge : Int) :
    (t : Task) → Except ClusterError (t.call logAge).Answer → Except ClusterError Harvest
  | .resources kind, answer =>
    answer.map fun (resources : List Resource) => ⟨resources.map (resourceArtifact kind), []⟩
  | .pods _, answer => answer.map fun (pods : List Pod) => ⟨pods.map podArtifact, pods⟩
  | .nodes, answer =>
    answer.map fun (nodes : List Node) =>
      ⟨[⟨"nodes.yaml", .yaml (.array (nodes.map Node.toJson))⟩], []⟩
  | .podLog ns pod container, answer =>
    answer.map fun (log : String) => ⟨[⟨s!"{ns}/pod.{pod}.{container}.log", .text log⟩], []⟩
  | .podMetric ns pod, answer =>
    match answer with
    | .ok (metric : Resource) => .ok ⟨[⟨s!"{ns}/pod.{pod}.metric.yaml", .yaml metric⟩], []⟩
    | .error e => if e.isNotFound then .ok default else .error e
  | .workloads ns kind, answer =>
    answer.map fun (items : List Json) =>
      ⟨[⟨s!"{ns}/{kind.word}s.json", .json (.array items)⟩], []⟩

/-! ### Planning -/

/-- The tasks that need no pods: the kinds that are served and the pods of each service, and the
nodes. -/
def initial (services : List Service) (kinds : List Kind) : List Task :=
  (services.flatMap fun s =>
    (s.kinds.filter kinds.contains).map Task.resources ++ [Task.pods s]) ++ [.nodes]

/-- The namespace and the name of a pod that has both. -/
def address? (p : Pod) : Option (String × String) :=
  p.metadata.ns.bind fun ns => p.metadata.name.map fun name => (ns, name)

/-- The pods that have a namespace and a name, each of those pairs once, at its first place. -/
def distinctPods (pods : List Pod) : List ((String × String) × Pod) :=
  pods.foldl
    (fun seen p =>
      match address? p with
      | none => seen
      | some address => if seen.any (·.1 == address) then seen else seen ++ [(address, p)])
    []

/-- The namespaces of a list of addresses, each once, at its first place. -/
def distinctNamespaces (addresses : List (String × String)) : List String :=
  addresses.foldl
    (fun seen address => if seen.contains address.1 then seen else seen ++ [address.1]) []

/-- The names of the containers of a pod, those that run first in front. -/
def containersOf (p : Pod) : List String :=
  match p.spec with
  | none => []
  | some spec => spec.initContainers.getD [] ++ spec.containers

/-- The tasks for a pod. Logs are collected only for a positive age. -/
def forPod (logAge : Int) (ns name : String) (p : Pod) : List Task :=
  (if 0 < logAge then (containersOf p).map fun container => podLog ns name container else []) ++
    [podMetric ns name]

/-- The tasks that follow from the pods: their logs and measurements, and the workloads of their
namespaces. -/
def followUp (logAge : Int) (pods : List Pod) : List Task :=
  let distinct := distinctPods pods
  (distinct.flatMap fun ((ns, name), p) => forPod logAge ns name p) ++
    (distinctNamespaces (distinct.map Prod.fst)).flatMap fun ns => Workload.all.map (workloads ns)

end Task

end EdgeHealth
