import EdgeHealth.Json.Shape

/-!
# Shapes of the objects of the cluster

What the bodies of the responses of an API server have to hold. Of pods and nodes only the parts
are named that checks and bundles look at.

## Main definitions

* `Kube.objectMeta` : what every object says about itself.
* `Kube.resource` : an object of a known API version and kind.
* `Kube.listOf` : a list of objects.
* `Kube.customObject` : an object of any API version and kind.
-/

namespace EdgeHealth.Kube

open Json (Shape)
open Json.Shape

/-! ### Parts -/

/-- A signed integer of 32 bits. -/
def int32 : Shape := .integer Int32.minValue.toInt Int32.maxValue.toInt "i32"

/-- A signed integer of 64 bits. -/
def int64 : Shape := .integer Int64.minValue.toInt Int64.maxValue.toInt "i64"

/-- A list of texts. -/
def texts : Shape := .list .text

/-- Named texts. -/
def namedTexts : Shape := .table .text

/-- A text that is empty where it is missing. -/
def textField (name : String) : Field := standing name (.string "") .text

/-- A truth value that is false where it is missing. -/
def truthField (name : String) : Field := standing name (.bool false) .truth

/-- An integer that is zero where it is missing. -/
def countField (name : String) : Field := standing name (.int 0) int32

/-- A list that is empty where it is missing. -/
def listField (name : String) (item : Shape) : Field := standing name (.array []) (.list item)

/-- A record as the API server writes it. -/
def part (name : String) (fields : List Field) : Shape := .record name .lenient fields

/-- Whoever owns an object. -/
def ownerReference : Shape :=
  part "OwnerReference"
    [textField "apiVersion", maybe "blockOwnerDeletion" .truth, maybe "controller" .truth,
      textField "kind", textField "name", textField "uid"]

/-- Who has set which fields of an object. -/
def managedFieldsEntry : Shape :=
  part "ManagedFieldsEntry"
    [maybe "apiVersion" .text, maybe "fieldsType" .text, maybe "fieldsV1" .anything,
      maybe "manager" .text, maybe "operation" .text, maybe "subresource" .text,
      maybe "time" .moment]

/-- What every object says about itself. -/
def objectMeta : Shape :=
  part "ObjectMeta"
    [maybe "annotations" namedTexts, maybe "creationTimestamp" .moment,
      maybe "deletionGracePeriodSeconds" int64, maybe "deletionTimestamp" .moment,
      maybe "finalizers" texts, maybe "generateName" .text, maybe "generation" int64,
      maybe "labels" namedTexts, maybe "managedFields" (.list managedFieldsEntry),
      maybe "name" .text, maybe "namespace" .text, maybe "ownerReferences" (.list ownerReference),
      maybe "resourceVersion" .text, maybe "selfLink" .text, maybe "uid" .text]

/-- What every list says about itself. -/
def listMeta : Shape :=
  part "ListMeta"
    [maybe "continue" .text, maybe "remainingItemCount" int64, maybe "resourceVersion" .text,
      maybe "selfLink" .text]

/-- The metadata of an object, which always has some. -/
def metaField : Field := standing "metadata" (.object []) objectMeta

/-- An object of a known API version and kind. -/
def resource (apiVersion kind : String) (fields : List Field) : Shape :=
  part kind (("apiVersion", some .null, .word apiVersion) :: ("kind", some .null, .word kind) ::
    fields)

/-- A list of objects, whatever API version and kind it tells. -/
def listOf (item : Shape) : Shape :=
  .record "struct ObjectList" .keeping
    [("metadata", some (.object []), listMeta), ("items", none, .orNull (.list item) (.array []))]

/-- An object of any API version and kind. -/
def customObject : Shape :=
  .record "struct DynamicObject" .keeping [("metadata", none, objectMeta)]

/-! ### The server -/

/-- The version of the server. -/
def info : Shape :=
  part "Info"
    [textField "buildDate", textField "compiler", textField "gitCommit", textField "gitTreeState",
      textField "gitVersion", textField "goVersion", textField "major", textField "minor",
      textField "platform"]

/-- A resource that an API serves. -/
def apiResource : Shape :=
  part "APIResource"
    [maybe "categories" texts, maybe "group" .text, textField "kind", textField "name",
      truthField "namespaced", maybe "shortNames" texts, textField "singularName",
      maybe "storageVersionHash" .text, listField "verbs" .text, maybe "version" .text]

/-- The resources that an API serves. -/
def apiResourceList : Shape :=
  resource "v1" "APIResourceList"
    [textField "groupVersion", listField "resources" apiResource]

/-- A refusal. -/
def refusal : Shape :=
  .record "struct ErrorResponse" .strict
    [("status", none, .text), ("message", some (.string ""), .text),
      ("reason", some (.string ""), .text), ("code", none, .integer 0 Number.maxUInt16 "u16")]

/-! ### Nodes, storage classes and pods -/

/-- The machine of a node. -/
def nodeInfo : Shape :=
  part "NodeSystemInfo"
    [textField "architecture", textField "bootID", textField "containerRuntimeVersion",
      textField "kernelVersion", textField "kubeProxyVersion", textField "kubeletVersion",
      textField "machineID", textField "operatingSystem", textField "osImage",
      textField "systemUUID"]

/-- A node. -/
def node : Shape :=
  resource "v1" "Node"
    [metaField,
      maybe "status" (part "NodeStatus"
        [maybe "allocatable" namedTexts, maybe "capacity" namedTexts, maybe "nodeInfo" nodeInfo])]

/-- A term for the places where storage may be. -/
def topologyTerm : Shape :=
  part "TopologySelectorTerm"
    [maybe "matchLabelExpressions" (.list (part "TopologySelectorLabelRequirement"
      [textField "key", listField "values" .text]))]

/-- A storage class. -/
def storageClass : Shape :=
  resource "storage.k8s.io/v1" "StorageClass"
    [maybe "allowVolumeExpansion" .truth, maybe "allowedTopologies" (.list topologyTerm), metaField,
      maybe "mountOptions" texts, maybe "parameters" namedTexts, textField "provisioner",
      maybe "reclaimPolicy" .text, maybe "volumeBindingMode" .text]

/-- A container of a pod. -/
def container : Shape := part "Container" [textField "name"]

/-- The status of a container. -/
def containerStatus : Shape :=
  part "ContainerStatus"
    [textField "image", textField "imageID", textField "name", truthField "ready",
      countField "restartCount"]

/-- A pod. -/
def pod : Shape :=
  resource "v1" "Pod"
    [metaField,
      maybe "spec" (part "PodSpec"
        [listField "containers" container, maybe "initContainers" (.list container),
          maybe "nodeName" .text]),
      maybe "status" (part "PodStatus"
        [maybe "containerStatuses" (.list containerStatus), maybe "phase" .text,
          maybe "startTime" .moment])]

/-! ### Workloads -/

/-- A condition of a workload, with further fields before those that each has. -/
def condition (name : String) (fields : List Field) : Shape :=
  part name (maybe "lastTransitionTime" .moment :: fields ++
    [maybe "message" .text, maybe "reason" .text, textField "status", textField "type"])

/-- What a workload selects. -/
def labelSelector : Shape :=
  part "LabelSelector"
    [maybe "matchExpressions" (.list (part "LabelSelectorRequirement"
      [textField "key", textField "operator", maybe "values" texts])),
      maybe "matchLabels" namedTexts]

/-- What pods a workload makes. The pods themselves are not looked into. -/
def podTemplate : Shape :=
  part "PodTemplateSpec" [maybe "metadata" objectMeta, maybe "spec" .anything]

/-- What a workload selects; it always selects something. -/
def selectorField : Field := standing "selector" (.object []) labelSelector

/-- What pods a workload makes; it always makes some. -/
def templateField : Field := standing "template" (.object []) podTemplate

/-- How the pods of a workload are replaced. -/
def strategy (name rolling : String) (fields : List Field) : Shape :=
  part name [maybe "rollingUpdate" (part rolling fields), maybe "type" .text]

/-- A deployment. -/
def deployment : Shape :=
  resource "apps/v1" "Deployment"
    [metaField,
      maybe "spec" (part "DeploymentSpec"
        [maybe "minReadySeconds" int32, maybe "paused" .truth,
          maybe "progressDeadlineSeconds" int32, maybe "replicas" int32,
          maybe "revisionHistoryLimit" int32, selectorField,
          maybe "strategy" (strategy "DeploymentStrategy" "RollingUpdateDeployment"
            [maybe "maxSurge" .anything, maybe "maxUnavailable" .anything]),
          templateField]),
      maybe "status" (part "DeploymentStatus"
        [maybe "availableReplicas" int32, maybe "collisionCount" int32,
          maybe "conditions" (.list (condition "DeploymentCondition"
            [maybe "lastUpdateTime" .moment])),
          maybe "observedGeneration" int64, maybe "readyReplicas" int32, maybe "replicas" int32,
          maybe "unavailableReplicas" int32, maybe "updatedReplicas" int32])]

/-- A daemon set. -/
def daemonSet : Shape :=
  resource "apps/v1" "DaemonSet"
    [metaField,
      maybe "spec" (part "DaemonSetSpec"
        [maybe "minReadySeconds" int32, maybe "revisionHistoryLimit" int32, selectorField,
          templateField,
          maybe "updateStrategy" (strategy "DaemonSetUpdateStrategy" "RollingUpdateDaemonSet"
            [maybe "maxSurge" .anything, maybe "maxUnavailable" .anything])]),
      maybe "status" (part "DaemonSetStatus"
        [maybe "collisionCount" int32,
          maybe "conditions" (.list (condition "DaemonSetCondition" [])),
          countField "currentNumberScheduled", countField "desiredNumberScheduled",
          maybe "numberAvailable" int32, countField "numberMisscheduled",
          countField "numberReady", maybe "numberUnavailable" int32,
          maybe "observedGeneration" int64, maybe "updatedNumberScheduled" int32])]

/-- A replica set. -/
def replicaSet : Shape :=
  resource "apps/v1" "ReplicaSet"
    [metaField,
      maybe "spec" (part "ReplicaSetSpec"
        [maybe "minReadySeconds" int32, maybe "replicas" int32, selectorField,
          maybe "template" podTemplate]),
      maybe "status" (part "ReplicaSetStatus"
        [maybe "availableReplicas" int32,
          maybe "conditions" (.list (condition "ReplicaSetCondition" [])),
          maybe "fullyLabeledReplicas" int32, maybe "observedGeneration" int64,
          maybe "readyReplicas" int32, countField "replicas"])]

/-- A stateful set. -/
def statefulSet : Shape :=
  resource "apps/v1" "StatefulSet"
    [metaField,
      maybe "spec" (part "StatefulSetSpec"
        [maybe "minReadySeconds" int32,
          maybe "ordinals" (part "StatefulSetOrdinals" [maybe "start" int32]),
          maybe "persistentVolumeClaimRetentionPolicy"
            (part "StatefulSetPersistentVolumeClaimRetentionPolicy"
              [maybe "whenDeleted" .text, maybe "whenScaled" .text]),
          maybe "podManagementPolicy" .text, maybe "replicas" int32,
          maybe "revisionHistoryLimit" int32, selectorField, textField "serviceName",
          templateField,
          maybe "updateStrategy" (strategy "StatefulSetUpdateStrategy"
            "RollingUpdateStatefulSetStrategy"
            [maybe "maxUnavailable" .anything, maybe "partition" int32]),
          maybe "volumeClaimTemplates" (.list .anything)]),
      maybe "status" (part "StatefulSetStatus"
        [maybe "availableReplicas" int32, maybe "collisionCount" int32,
          maybe "conditions" (.list (condition "StatefulSetCondition" [])),
          maybe "currentReplicas" int32, maybe "currentRevision" .text,
          maybe "observedGeneration" int64, maybe "readyReplicas" int32, countField "replicas",
          maybe "updateRevision" .text, maybe "updatedReplicas" int32])]

/-- A port of a service. -/
def servicePort : Shape :=
  part "ServicePort"
    [maybe "appProtocol" .text, maybe "name" .text, maybe "nodePort" int32, countField "port",
      maybe "protocol" .text, maybe "targetPort" .anything]

/-- What a service is made of. -/
def serviceSpec : Shape :=
  part "ServiceSpec"
    [maybe "allocateLoadBalancerNodePorts" .truth, maybe "clusterIP" .text,
      maybe "clusterIPs" texts, maybe "externalIPs" texts, maybe "externalName" .text,
      maybe "externalTrafficPolicy" .text, maybe "healthCheckNodePort" int32,
      maybe "internalTrafficPolicy" .text, maybe "ipFamilies" texts, maybe "ipFamilyPolicy" .text,
      maybe "loadBalancerClass" .text, maybe "loadBalancerIP" .text,
      maybe "loadBalancerSourceRanges" texts, maybe "ports" (.list servicePort),
      maybe "publishNotReadyAddresses" .truth, maybe "selector" namedTexts,
      maybe "sessionAffinity" .text,
      maybe "sessionAffinityConfig" (part "SessionAffinityConfig"
        [maybe "clientIP" (part "ClientIPConfig" [maybe "timeoutSeconds" int32])]),
      maybe "type" .text]

/-- How a service fares. -/
def serviceStatus : Shape :=
  part "ServiceStatus"
    [maybe "conditions" (.list (part "Condition"
      [standing "lastTransitionTime" (.string "1970-01-01T00:00:00Z") .moment,
        textField "message", maybe "observedGeneration" int64, textField "reason",
        textField "status", textField "type"])),
      maybe "loadBalancer" (part "LoadBalancerStatus"
        [maybe "ingress" (.list (part "LoadBalancerIngress"
          [maybe "hostname" .text, maybe "ip" .text,
            maybe "ports" (.list (part "PortStatus"
              [maybe "error" .text, countField "port", textField "protocol"]))]))])]

/-- A service. -/
def service : Shape :=
  resource "v1" "Service"
    [metaField, maybe "spec" serviceSpec, maybe "status" serviceStatus]

/-- What an event is about. -/
def objectReference : Shape :=
  part "ObjectReference"
    [maybe "apiVersion" .text, maybe "fieldPath" .text, maybe "kind" .text, maybe "name" .text,
      maybe "namespace" .text, maybe "resourceVersion" .text, maybe "uid" .text]

/-- An event. -/
def event : Shape :=
  resource "v1" "Event"
    [maybe "action" .text, maybe "count" int32, maybe "eventTime" .moment,
      maybe "firstTimestamp" .moment, standing "involvedObject" (.object []) objectReference,
      maybe "lastTimestamp" .moment, maybe "message" .text, metaField, maybe "reason" .text,
      maybe "related" objectReference, maybe "reportingComponent" .text,
      maybe "reportingInstance" .text,
      maybe "series" (part "EventSeries"
        [maybe "count" int32, maybe "lastObservedTime" .moment]),
      maybe "source" (part "EventSource" [maybe "component" .text, maybe "host" .text]),
      maybe "type" .text]

end EdgeHealth.Kube
