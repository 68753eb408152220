import EdgeHealth.Kube.Object

/-!
# Nodes

The nodes of the cluster, as far as checks and bundles look at them.

## Main definitions

* `Node` : a node, with `NodeInfo` and `NodeStatus`.
* `Node.ofJson?`, `Node.toJson` : a node as JSON.
-/

namespace EdgeHealth

open Json

/-- What a node says about its machine; a field that it does not know is empty. -/
structure NodeInfo where
  /-- The architecture of the processor. -/
  architecture : String
  /-- The identity of the running system. -/
  bootId : String
  /-- The version of the container runtime. -/
  containerRuntimeVersion : String
  /-- The version of the kernel. -/
  kernelVersion : String
  /-- The version of the network proxy. -/
  kubeProxyVersion : String
  /-- The version of the node agent. -/
  kubeletVersion : String
  /-- The identity of the machine. -/
  machineId : String
  /-- The operating system. -/
  operatingSystem : String
  /-- The image of the operating system. -/
  osImage : String
  /-- The identity of the hardware. -/
  systemUuid : String
  deriving DecidableEq, Repr

/-- How a node fares. -/
structure NodeStatus where
  /-- The quantities that pods may use, in the order of their names. -/
  allocatable : Option (List (String × String))
  /-- The machine. -/
  info : Option NodeInfo
  deriving DecidableEq, Repr

/-- A node. -/
structure Node where
  /-- Name, namespace and labels. -/
  metadata : Meta
  /-- How the node fares. -/
  status : Option NodeStatus
  deriving DecidableEq, Repr

namespace NodeInfo

/-- The machine in an object. -/
def ofJson? (v : Json) : Option NodeInfo :=
  if v.isObject then do
    let architecture ← v.maybeOr? "architecture" "" text?
    let bootId ← v.maybeOr? "bootID" "" text?
    let containerRuntimeVersion ← v.maybeOr? "containerRuntimeVersion" "" text?
    let kernelVersion ← v.maybeOr? "kernelVersion" "" text?
    let kubeProxyVersion ← v.maybeOr? "kubeProxyVersion" "" text?
    let kubeletVersion ← v.maybeOr? "kubeletVersion" "" text?
    let machineId ← v.maybeOr? "machineID" "" text?
    let operatingSystem ← v.maybeOr? "operatingSystem" "" text?
    let osImage ← v.maybeOr? "osImage" "" text?
    let systemUuid ← v.maybeOr? "systemUUID" "" text?
    return ⟨architecture, bootId, containerRuntimeVersion, kernelVersion, kubeProxyVersion,
      kubeletVersion, machineId, operatingSystem, osImage, systemUuid⟩
  else none

/-- The machine as an object. -/
def toJson (i : NodeInfo) : Json :=
  ofNamedTexts [("architecture", i.architecture), ("bootID", i.bootId),
    ("containerRuntimeVersion", i.containerRuntimeVersion), ("kernelVersion", i.kernelVersion),
    ("kubeProxyVersion", i.kubeProxyVersion), ("kubeletVersion", i.kubeletVersion),
    ("machineID", i.machineId), ("operatingSystem", i.operatingSystem), ("osImage", i.osImage),
    ("systemUUID", i.systemUuid)]

end NodeInfo

namespace NodeStatus

/-- The status of a node in an object. -/
def ofJson? (v : Json) : Option NodeStatus :=
  if v.isObject then do
    let allocatable ← v.maybe? "allocatable" texts?
    let info ← v.maybe? "nodeInfo" NodeInfo.ofJson?
    return ⟨allocatable, info⟩
  else none

/-- The status of a node as an object. -/
def toJson (s : NodeStatus) : Json :=
  .object (optionalMember "allocatable" (s.allocatable.map ofNamedTexts) ++
    optionalMember "nodeInfo" (s.info.map NodeInfo.toJson))

end NodeStatus

namespace Node

/-- The node in an object. -/
def ofJson? (v : Json) : Option Node :=
  if v.isObject then do
    let metadata ← v.maybeOr? "metadata" default Meta.ofJson?
    let status ← v.maybe? "status" NodeStatus.ofJson?
    return ⟨metadata, status⟩
  else none

/-- The node as an object. -/
def toJson (n : Node) : Json :=
  Kube.object "v1" "Node" ([("metadata", n.metadata.toJson)] ++
    optionalMember "status" (n.status.map NodeStatus.toJson))

/-- The name; empty when there is none. -/
def name (n : Node) : String := n.metadata.name.getD ""

/-- The machine. -/
def info? (n : Node) : Option NodeInfo := n.status.bind NodeStatus.info

/-- A quantity that pods may use. -/
def allocatable? (n : Node) (resource : String) : Option String :=
  (n.status.bind NodeStatus.allocatable).bind fun quantities => quantities.lookup resource

end Node

end EdgeHealth
