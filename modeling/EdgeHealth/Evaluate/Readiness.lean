import EdgeHealth.Evaluate.Finding

/-!
# Checking what a cluster offers

The checks before deployment: the version of the cluster, its nodes and its storage classes, as a
policy demands them.

The processing power that is demanded of a node is computed with 64 bits. The check of the nodes is
aborted if it is too great for that.

## Main definitions

* `Readiness.checkVersion` : the check of the version.
* `Readiness.checkNodes` : the check of the nodes.
* `Readiness.checkStorageClasses` : the check of the storage classes.
-/

namespace EdgeHealth.Readiness

/-- A text as a value; `null` where there is none. -/
def textOrNull : Option String → Json
  | some s => .string s
  | none => .null

/-- The status of something that has to hold of a value which may be unknown. -/
def statusOf {α : Type} (value : Option α) (holds : α → Bool) : Status :=
  match value with
  | some a => if holds a then .success else .error
  | none => .warning

/-! ### The version -/

/-- The name of the check of the version. -/
def versionCheck : String := "evalK8sVers"

/-- What the check of the version does. -/
def versionDescription : String := "Evaluate Kubernetes server"

/-- The target of the check of the version. -/
def versionTarget : String := "k8s"

/-- The notes about the version, or about why it is not known. -/
def versionNotes (policy : ReadinessPolicy) (answer : Except ClusterError Version) : List Note :=
  let condition := s!"(k8s version)>={policy.minVersion.text}"
  let (status, text, line) := match answer with
    | .ok version =>
      let status : Status := if version.atLeast policy.minVersion then .success else .error
      (status, version.text,
        ((((Display.blank 0).plain "Require ").label s!"k8s >={policy.minVersion.text}").plain
          ", detected ").status version.text status)
    | .error e =>
      let message :=
        if e.isConnectivity then s!"Unable to fetch Kubernetes version: {e.message}" else e.message
      (.error, message, .notice 0 message .error)
  [⟨versionTarget, allNamespaces, .declare [] (some "Kubernetes server version")⟩,
    .observe versionTarget allNamespaces condition (.of status (.string text)),
    .display versionTarget allNamespaces [line]]

/-- The check of the version, which does not fail. -/
def checkVersion (scope : Scope) (policy : ReadinessPolicy) : Attempt Check := do
  let answer ← Attempt.askFor .serverVersion
  return .ofNotesFor scope.withDisplays versionCheck versionDescription
    (versionNotes policy answer)

/-! ### The nodes -/

/-- The name of the check of the nodes. -/
def nodesCheck : String := "evalClusterNodes"

/-- What the check of the nodes does. -/
def nodesDescription : String := "Evaluate cluster nodes"

/-- The target of the check of the nodes. -/
def nodesTarget : String := "cluster/nodes"

/-- What one demand on a node came to. -/
structure NodeFinding where
  /-- The condition. -/
  condition : String
  /-- The outcome. -/
  status : Status
  /-- What the node says. -/
  value : Option String
  /-- The label under which it is shown. -/
  label : String
  /-- What is shown. -/
  text : String
  deriving DecidableEq, Repr

/-- What a node says, unless it is empty. -/
def said (text : Option String) : Option String := text.filter fun s => !s.isEmpty

/-- What is shown of what a node says. -/
def shown (text : Option String) : String := text.getD "N/A"

/-- The least processing power of a node in thousandths of a core. -/
def minCpuMillis (policy : ReadinessPolicy) : Nat := policy.minVcpu * 1000

/-- The demand on the architecture of a node. -/
def architectureFinding (policy : ReadinessPolicy) (n : Node) : NodeFinding :=
  let value := said (n.info?.map NodeInfo.architecture)
  let allowed := Text.joinWith "," policy.architectures
  ⟨s!"info.architecture in ({allowed})",
    statusOf value policy.architectures.contains, value, "Architecture", shown value⟩

/-- The demand on the processing power of a node. -/
def cpuFinding (policy : ReadinessPolicy) (n : Node) : NodeFinding :=
  let value := n.allocatable? "cpu"
  ⟨s!"condition.cpu>={policy.minVcpu}",
    statusOf (value.bind Quantity.cpuMillis?) fun millis => minCpuMillis policy ≤ millis,
    value, "CPU", shown value⟩

/-- The demand on the memory of a node, given the least memory in bytes. -/
def memoryFinding (policy : ReadinessPolicy) (least : Nat) (n : Node) : NodeFinding :=
  let value := n.allocatable? "memory"
  let bytes := value.bind Quantity.memoryBytes?
  ⟨s!"condition.memory>={policy.minMemory}", statusOf bytes fun b => least ≤ b,
    value, "Memory", shown (bytes.map Quantity.formatBytes)⟩

/-- The demand on the kernel of a node, given the oldest kernel. -/
def kernelFinding (least : Version) (n : Node) : NodeFinding :=
  let value := said (n.info?.map NodeInfo.kernelVersion)
  ⟨s!"info.kernel_version>={least.text}",
    statusOf (value.bind Version.read?) fun v => v.atLeast least,
    value, "Kernel", shown value⟩

/-- What all demands on a node came to. -/
def nodeFindings (policy : ReadinessPolicy) (least : Nat) (n : Node) : List NodeFinding :=
  [architectureFinding policy n, cpuFinding policy n, memoryFinding policy least n] ++
    (policy.minKernel.map fun kernel => kernelFinding kernel n).toList

/-- The lines about the machine of a node. -/
def machineLines (n : Node) : List Display :=
  match n.info? with
  | none => []
  | some info =>
    [Display.field 4 "OS image" info.osImage, Display.field 4 "Kubelet" info.kubeletVersion,
      Display.field 4 "Container runtime" info.containerRuntimeVersion]

/-- The lines about a node. -/
def nodeLines (level : DetailLevel) (n : Node) (findings : List NodeFinding) : List Display :=
  let status := Status.worstOf (findings.map NodeFinding.status)
  (((Display.blank 0).plain "Node ").value n.name).status s!" {status.word}" status ::
    findings.map (fun f => Display.statusField 4 f.label f.text f.status) ++
    (if level.isVerbose then machineLines n else [])

/-- The notes about a node. -/
def nodeNotes (level : DetailLevel) (policy : ReadinessPolicy) (least : Nat) (n : Node) :
    List Note :=
  let findings := nodeFindings policy least n
  findings.map (fun f =>
    .observe nodesTarget allNamespaces f.condition
      ⟨f.status, textOrNull f.value, some n.name, some "node"⟩) ++
  [.display nodesTarget allNamespaces (nodeLines level n findings)]

/-- The notes about the nodes, given the least memory in bytes. -/
def nodesNotes (level : DetailLevel) (policy : ReadinessPolicy) (least : Nat)
    (nodes : List Node) : List Note :=
  .observe nodesTarget allNamespaces s!"len({nodesTarget})>=1"
      (.of .success (.ofNat nodes.length)) ::
    nodes.flatMap (nodeNotes level policy least)

/-- The notes when there are no nodes. -/
def noNodesNotes : List Note :=
  [.observe nodesTarget allNamespaces s!"len({nodesTarget})>=1"
      (.of .error (.string "No nodes detected.")),
    .display nodesTarget allNamespaces [.notice 0 "No nodes detected." .error]]

/-- The notes about a list of nodes. Where there are nodes, this fails if the memory that the policy
demands is no quantity, and is aborted if the processing power is too great for 64 bits. -/
def gatherNodes (level : DetailLevel) (policy : ReadinessPolicy) (nodes : List Node) :
    Attempt (List Note) :=
  match nodes, policy.minMemoryBytes with
  | [], _ => return noNodesNotes
  | _, .error e => Attempt.fail (.decode (e.message?.getD ""))
  | _, .ok least =>
    if minCpuMillis policy < UInt64.size then return nodesNotes level policy least nodes
    else Attempt.abort

/-- The check of the nodes. -/
def checkNodes (scope : Scope) (policy : ReadinessPolicy) : Attempt Check := do
  let nodes ← Attempt.ask .listNodes
  let notes ← gatherNodes scope.level policy nodes
  return .ofNotesFor scope.withDisplays nodesCheck nodesDescription notes

/-! ### The storage classes -/

/-- The name of the check of the storage classes. -/
def storageCheck : String := "evalStorageClasses"

/-- What the check of the storage classes does. -/
def storageDescription : String := "Evaluate storage classes"

/-- The target of the check of the storage classes. -/
def storageTarget : String := "cluster/storage-classes"

/-- The line about one storage class. -/
def storageLine (policy : ReadinessPolicy) (name : String) : Display :=
  ((Display.blank 4).plain "- ").status name
    (if policy.storageClasses.contains name then .success else .skipped)

/-- The notes about the storage classes with these names. -/
def storageNotes (policy : ReadinessPolicy) (names : List String) : List Note :=
  let accepted := names.filter policy.storageClasses.contains
  let demanded := Text.joinWith "," policy.storageClasses
  let (status, value, verdict) : Status × Json × String :=
    if accepted.isEmpty then
      (.error,
        .string s!"No storage class from ({Text.enumerated policy.storageClasses}) detected.",
        "none acceptable")
    else (.success, .ofTexts accepted, "ok")
  [.observe storageTarget allNamespaces
      s!"any(storageclass in ({demanded}))" (.of status value),
    .display storageTarget allNamespaces
      (((Display.blank 0).plain "Storage classes: ").status verdict status ::
        names.map (storageLine policy))]

/-- The check of the storage classes. -/
def checkStorageClasses (scope : Scope) (policy : ReadinessPolicy) : Attempt Check := do
  let classes ← Attempt.ask .listStorageClasses
  return .ofNotesFor scope.withDisplays storageCheck storageDescription
    (storageNotes policy (classes.filterMap id))

end EdgeHealth.Readiness
