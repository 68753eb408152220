import EdgeHealth.Text.Blank
import EdgeHealth.Text.LowerCase
import EdgeHealth.Text.Pieces

/-!
# Services and resource kinds

The services of the platform, the kinds of custom resources that each of them serves, and the pods
in which it runs.

## Main definitions

* `Service` : the services, in the order of the catalog.
* `Kind` : the kinds of custom resources, in the order in which they are checked.
* `ApiVersion` : an API group with its version.
* `PodPrefix` : how the names of the pods of a service start.
* `Kind.matchesFilter` : whether a kind is meant by a word of the user.
-/

namespace EdgeHealth

open EdgeHealth.Text

/-- An API group with its version. -/
structure ApiVersion where
  /-- The group. -/
  group : String
  /-- The version. -/
  version : String
  deriving DecidableEq, Repr

/-- The written form of a group with its version. -/
def ApiVersion.text (api : ApiVersion) : String := s!"{api.group}/{api.version}"

/-- How the names of some pods of a service start. -/
structure PodPrefix where
  /-- The start of the names. -/
  start : String
  /-- Whether there has to be such a pod. -/
  required : Bool
  deriving DecidableEq, Repr

/-- The services of the platform. -/
inductive Service where
  /-- The message broker. -/
  | broker
  /-- The connectors to other systems. -/
  | connector
  /-- The diagnostics of the broker. -/
  | diagnostics
  /-- The access to industrial devices. -/
  | opcua
  deriving DecidableEq, Repr, Inhabited

/-- The kinds of custom resources. -/
inductive Kind where
  | broker
  | brokerListener
  | brokerAuthentication
  | brokerAuthorization
  | mqttBridgeConnector
  | mqttBridgeTopicMap
  | dataLakeConnector
  | kafkaConnector
  | diagnosticService
  | assetType
  deriving DecidableEq, Repr, Inhabited

namespace Service

/-- The services in the order of the catalog. -/
def all : List Service := [.broker, .connector, .diagnostics, .opcua]

/-- The word for a service. -/
def word : Service → String
  | .broker => "broker"
  | .connector => "connector"
  | .diagnostics => "diagnostics"
  | .opcua => "opcua"

/-- The name of a service in the names of checks. -/
def title : Service → String
  | .broker => "Broker"
  | .connector => "Connector"
  | .diagnostics => "Diagnostics"
  | .opcua => "Opcua"

/-- The API of a service. -/
def api : Service → ApiVersion
  | .broker => ⟨"az-edge.com", "v1alpha4"⟩
  | .connector => ⟨"connectors.az-edge.com", "v1alpha4"⟩
  | .diagnostics => ⟨"diagnostics.az-edge.com", "v1alpha4"⟩
  | .opcua => ⟨"opcuabroker.az-edge.com", "v1beta1"⟩

/-- The kinds of a service, in the order in which they are checked. -/
def kinds : Service → List Kind
  | .broker => [.broker, .brokerListener, .brokerAuthentication, .brokerAuthorization]
  | .connector => [.mqttBridgeConnector, .mqttBridgeTopicMap, .dataLakeConnector, .kafkaConnector]
  | .diagnostics => [.diagnosticService]
  | .opcua => [.assetType]

/-- The start of the name of the pod that serves the statistics of the broker. -/
def statisticsPod : String := "aio-mq-diagnostics-service"

/-- How the names of the pods of a service start. -/
def podPrefixes : Service → List PodPrefix
  | .broker =>
    [⟨"aio-mq-dmqtt-frontend", true⟩, ⟨"aio-mq-dmqtt-backend", true⟩,
      ⟨"aio-mq-dmqtt-authentication", true⟩, ⟨"aio-mq-operator", true⟩]
  | .connector =>
    [⟨"aio-mq-mqttbridge", false⟩, ⟨"aio-mq-datalake", false⟩, ⟨"aio-mq-kafka-connector", false⟩]
  | .diagnostics => [⟨statisticsPod, true⟩, ⟨"aio-mq-diagnostics-probe", true⟩]
  | .opcua =>
    [⟨"aio-opc-supervisor", true⟩, ⟨"aio-opc-admission-controller", true⟩, ⟨"aio-opc-opc", false⟩]

/-- The label by which the pods of a service are found. -/
def podSelector : Service → String
  | .broker => "app.kubernetes.io/part-of=az-edge-broker"
  | .connector => "app.kubernetes.io/part-of=az-edge-connectors"
  | .diagnostics => "app.kubernetes.io/part-of=az-edge-diagnostics"
  | .opcua => "app.kubernetes.io/part-of=az-edge-opcua"

/-- The name of the check of what the API serves. -/
def enumerationCheck (s : Service) : String := s!"enumerate{s.title}Api"

/-- The name of the check of the pods. -/
def podCheck (s : Service) : String := s!"eval{s.title}Pods"

/-- The service that a word stands for, in any case of ASCII letters. -/
def ofText? (text : String) : Option Service := all.find? fun s => s.word == lowerAscii text

/-- The complaint about a word that stands for no service. -/
def unknownMessage (text : String) : String :=
  s!"unknown service '{text}' (expected one of: {enumerated (all.map word)})"

end Service

namespace Kind

/-- The kinds in the order in which they are checked. -/
def all : List Kind :=
  [.broker, .brokerListener, .brokerAuthentication, .brokerAuthorization, .mqttBridgeConnector,
    .mqttBridgeTopicMap, .dataLakeConnector, .kafkaConnector, .diagnosticService, .assetType]

/-- The name of a kind as the API tells it. -/
def kindName : Kind → String
  | .broker => "Broker"
  | .brokerListener => "BrokerListener"
  | .brokerAuthentication => "BrokerAuthentication"
  | .brokerAuthorization => "BrokerAuthorization"
  | .mqttBridgeConnector => "MqttBridgeConnector"
  | .mqttBridgeTopicMap => "MqttBridgeTopicMap"
  | .dataLakeConnector => "DataLakeConnector"
  | .kafkaConnector => "KafkaConnector"
  | .diagnosticService => "DiagnosticService"
  | .assetType => "AssetType"

/-- The word for a kind, in lower case. -/
def word : Kind → String
  | .broker => "broker"
  | .brokerListener => "brokerlistener"
  | .brokerAuthentication => "brokerauthentication"
  | .brokerAuthorization => "brokerauthorization"
  | .mqttBridgeConnector => "mqttbridgeconnector"
  | .mqttBridgeTopicMap => "mqttbridgetopicmap"
  | .dataLakeConnector => "datalakeconnector"
  | .kafkaConnector => "kafkaconnector"
  | .diagnosticService => "diagnosticservice"
  | .assetType => "assettype"

/-- The word for several resources of a kind. -/
def plural (k : Kind) : String := k.word ++ "s"

/-- The service that a kind belongs to. -/
def service : Kind → Service
  | .broker | .brokerListener | .brokerAuthentication | .brokerAuthorization => .broker
  | .mqttBridgeConnector | .mqttBridgeTopicMap | .dataLakeConnector | .kafkaConnector => .connector
  | .diagnosticService => .diagnostics
  | .assetType => .opcua

/-- The API that serves a kind. -/
def api (k : Kind) : ApiVersion := k.service.api

/-- The target of the check of a kind. -/
def target (k : Kind) : String := s!"{k.plural}.{k.api.group}"

/-- The name of the check of a kind. -/
def checkName (k : Kind) : String := s!"eval{k.kindName}s"

/-- What the check of a kind does. -/
def description : Kind → String
  | .broker => "Evaluate MQTT broker"
  | .brokerListener => "Evaluate MQTT broker listeners"
  | .brokerAuthentication => "Evaluate MQTT broker authentication"
  | .brokerAuthorization => "Evaluate MQTT broker authorization"
  | .mqttBridgeConnector => "Evaluate MQTT bridge connectors"
  | .mqttBridgeTopicMap => "Evaluate MQTT bridge topic maps"
  | .dataLakeConnector => "Evaluate data lake connectors"
  | .kafkaConnector => "Evaluate Kafka connectors"
  | .diagnosticService => "Evaluate diagnostic service"
  | .assetType => "Evaluate OPC UA asset types"

/-- The kind with a name as the API tells it. -/
def ofKindName? (name : String) : Option Kind := all.find? fun k => k.kindName == name

/-- Whether a word of the user means a kind. Blanks around it and the case of ASCII letters do not
count. -/
def matchesFilter (k : Kind) (filter : String) : Bool := sameAscii k.word filter.trimBlank

end Kind

end EdgeHealth
