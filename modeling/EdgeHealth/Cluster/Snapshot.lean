import EdgeHealth.Cluster.Call

/-!
# A cluster held as data

A snapshot holds what a cluster contains, and answers every question from that. Single questions may
be made to fail or to take time.

## Main definitions

* `Snapshot` : the contents of a cluster.
* `Snapshot.answer` : the answer to a question.
* `Snapshot.cluster` : the cluster that a snapshot stands for.
-/

namespace EdgeHealth

open EdgeHealth.Text

/-- The contents of a cluster. -/
structure Snapshot where
  /-- The version. -/
  version : Version
  /-- The nodes. -/
  nodes : List Node
  /-- The pods. -/
  pods : List Pod
  /-- The names of the storage classes. -/
  storageClasses : List (Option String)
  /-- The resources that each API serves, by group and version. -/
  apis : List (String × List ApiResource)
  /-- The custom resources, by plural and group with a dot between them. -/
  objects : List (String × List Resource)
  /-- The measurements of pods, by namespace and pod with a slash between them. -/
  metrics : List (String × Json)
  /-- The logs, by namespace, pod and container with slashes between them. -/
  logs : List (String × String)
  /-- The workloads, by kind and namespace with a colon between them. -/
  workloads : List (String × List Json)
  /-- What comes of connections to pods; without it none comes about. -/
  connection : Option Connection
  /-- The questions that fail. -/
  failure : Call → Option ClusterError
  /-- How long replies take. -/
  delay : Call → Nat

namespace Snapshot

/-- The API group of the measurements of pods. -/
def metricsGroup : String := "metrics.k8s.io"

/-- Whether a pod has the label that one term of a selector asks for. -/
def termHolds (p : Pod) (term : List Char) : Bool :=
  match cutAt? ['='] term with
  | some (name, value) =>
    p.hasLabel (String.ofList (trimBlank name)) (String.ofList (trimBlank value))
  | none => false

/-- Whether a pod has all labels that a selector asks for. -/
def selects (selector : String) (p : Pod) : Bool :=
  ((splitOn ',' selector.toList).filter fun term => !term.isEmpty).all (termHolds p)

/-- The custom resources of a kind. -/
def objectsOf (s : Snapshot) (api : ApiVersion) (plural : String) : List Resource :=
  (s.objects.lookup s!"{plural}.{api.group}").getD []

/-- Whether a custom resource stands in a namespace. -/
def isIn (ns : String) (r : Resource) : Bool := Json.textAt? r "metadata.namespace" == some ns

/-- A custom resource, or a measurement of a pod. -/
def object (s : Snapshot) (api : ApiVersion) (ns plural name : String) :
    Except ClusterError Resource :=
  let found :=
    if api.group = metricsGroup then s.metrics.lookup s!"{ns}/{name}"
    else (s.objectsOf api plural).find? fun r =>
      isIn ns r && Json.textAt? r "metadata.name" == some name
  match found with
  | some r => .ok r
  | none => .error (.notFound plural name)

/-- The answer to a question. -/
def answer (s : Snapshot) : (c : Call) → Except ClusterError c.Answer
  | .serverVersion => .ok s.version
  | .listNodes => .ok s.nodes
  | .listStorageClasses => .ok s.storageClasses
  | .listPods ns selector =>
    .ok (s.pods.filter fun p =>
      (ns.isNone || p.metadata.ns == ns) && selector.all fun text => selects text p)
  | .readPodLog ns pod container _ =>
    .ok ((s.logs.lookup s!"{ns}/{pod}/{container}").getD s!"log of {ns}/{pod}/{container}\n")
  | .listWorkloads kind ns => .ok ((s.workloads.lookup s!"{kind.word}:{ns}").getD [])
  | .listApiResources api =>
    match s.apis.lookup api.text with
    | some resources => .ok resources
    | none => .error (.notFound "api" api.text)
  | .listObjects api plural => .ok (s.objectsOf api plural)
  | .listObjectsIn api ns plural => .ok ((s.objectsOf api plural).filter (isIn ns))
  | .getObject api ns plural name => s.object api ns plural name
  | .forwardPort _ pod port =>
    match s.connection with
    | some connection => .ok connection
    | none => .error (.connectivity s!"cannot forward to {pod}:{port}")

/-- The cluster that a snapshot stands for. -/
def cluster (s : Snapshot) : Cluster where
  reply c := ⟨s.delay c, match s.failure c with
    | some e => .error e
    | none => s.answer c⟩

end Snapshot

end EdgeHealth
