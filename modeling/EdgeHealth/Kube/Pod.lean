import EdgeHealth.Data.Instant
import EdgeHealth.Kube.Object

/-!
# Pods

The pods of the cluster, as far as checks and bundles look at them.

## Main definitions

* `Pod` : a pod, with `PodSpec`, `PodStatus` and `ContainerStatus`.
* `Pod.ofJson?`, `Pod.toJson` : a pod as JSON.
-/

namespace EdgeHealth

open Json

/-- What is known about a running container. -/
structure ContainerStatus where
  /-- The image. -/
  image : String
  /-- The identity of the image. -/
  imageId : String
  /-- The name of the container. -/
  name : String
  /-- Whether the container takes requests. -/
  ready : Bool
  /-- How often the container was started again, as a signed number of 32 bits. -/
  restartCount : Int
  deriving DecidableEq, Repr

/-- What a pod is made of. -/
structure PodSpec where
  /-- The names of the containers. -/
  containers : List String
  /-- The names of the containers that run before those. -/
  initContainers : Option (List String)
  /-- The node on which the pod runs. -/
  nodeName : Option String
  deriving DecidableEq, Repr

/-- How a pod fares. -/
structure PodStatus where
  /-- The phase. -/
  phase : Option String
  /-- When the pod was accepted. -/
  startTime : Option Instant
  /-- The containers. -/
  containers : Option (List ContainerStatus)
  deriving DecidableEq, Repr

/-- A pod. -/
structure Pod where
  /-- Name, namespace and labels. -/
  metadata : Meta
  /-- What the pod is made of. -/
  spec : Option PodSpec
  /-- How the pod fares. -/
  status : Option PodStatus
  deriving DecidableEq, Repr

/-- The name of a container. -/
def containerName? (v : Json) : Option String :=
  if v.isObject then v.maybeOr? "name" "" text? else none

/-- A container with nothing but its name. -/
def containerJson (name : String) : Json := .object [("name", .string name)]

namespace ContainerStatus

/-- The status of a container in an object. -/
def ofJson? (v : Json) : Option ContainerStatus :=
  if v.isObject then do
    let image ← v.maybeOr? "image" "" text?
    let imageId ← v.maybeOr? "imageID" "" text?
    let name ← v.maybeOr? "name" "" text?
    let ready ← v.maybeOr? "ready" false bool?
    let restartCount ← v.maybeOr? "restartCount" 0 fun count =>
      match count with
      | .int i => if Int32.minValue.toInt ≤ i && i ≤ Int32.maxValue.toInt then some i else none
      | _ => none
    return ⟨image, imageId, name, ready, restartCount⟩
  else none

/-- The status of a container as an object. -/
def toJson (c : ContainerStatus) : Json :=
  .object [("image", .string c.image), ("imageID", .string c.imageId), ("name", .string c.name),
    ("ready", .bool c.ready), ("restartCount", .int c.restartCount)]

end ContainerStatus

namespace PodSpec

/-- The parts of a pod in an object. -/
def ofJson? (v : Json) : Option PodSpec :=
  if v.isObject then do
    let containers ← v.maybeOr? "containers" [] (list? containerName?)
    let initContainers ← v.maybe? "initContainers" (list? containerName?)
    let nodeName ← v.maybe? "nodeName" text?
    return ⟨containers, initContainers, nodeName⟩
  else none

/-- The parts of a pod as an object. -/
def toJson (s : PodSpec) : Json :=
  .object ([("containers", .array (s.containers.map containerJson))] ++
    optionalMember "initContainers" (s.initContainers.map fun l => .array (l.map containerJson)) ++
    optionalMember "nodeName" (s.nodeName.map .string))

end PodSpec

namespace PodStatus

/-- The status of a pod in an object. -/
def ofJson? (v : Json) : Option PodStatus :=
  if v.isObject then do
    let phase ← v.maybe? "phase" text?
    let startTime ← v.maybe? "startTime" fun t => t.text?.bind Instant.read?
    let containers ← v.maybe? "containerStatuses" (list? ContainerStatus.ofJson?)
    return ⟨phase, startTime, containers⟩
  else none

/-- The status of a pod as an object. -/
def toJson (s : PodStatus) : Json :=
  .object (optionalMember "containerStatuses"
      (s.containers.map fun l => .array (l.map ContainerStatus.toJson)) ++
    optionalMember "phase" (s.phase.map .string) ++
    optionalMember "startTime" (s.startTime.map fun t => .string (t.written "Z")))

end PodStatus

namespace Pod

/-- The pod in an object. -/
def ofJson? (v : Json) : Option Pod :=
  if v.isObject then do
    let metadata ← v.maybeOr? "metadata" default Meta.ofJson?
    let spec ← v.maybe? "spec" PodSpec.ofJson?
    let status ← v.maybe? "status" PodStatus.ofJson?
    return ⟨metadata, spec, status⟩
  else none

/-- The pod as an object. -/
def toJson (p : Pod) : Json :=
  Kube.object "v1" "Pod" ([("metadata", p.metadata.toJson)] ++
    optionalMember "spec" (p.spec.map PodSpec.toJson) ++
    optionalMember "status" (p.status.map PodStatus.toJson))

/-- The name; empty when there is none. -/
def name (p : Pod) : String := p.metadata.name.getD ""

/-- The namespace; that of targets of no single namespace when there is none. -/
def nsOr (p : Pod) (missing : String) : String := p.metadata.ns.getD missing

/-- The phase. -/
def phase? (p : Pod) : Option String := p.status.bind PodStatus.phase

/-- Whether the labels hold a name with a value. -/
def hasLabel (p : Pod) (name value : String) : Bool :=
  (p.metadata.labels.getD []).any fun label => label.1 == name && label.2 == value

end Pod

end EdgeHealth
