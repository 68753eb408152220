import EdgeHealth.Evaluate.Finding
import EdgeHealth.Json.Reader
import EdgeHealth.Projection

/-!
# What is expected of each kind

For each kind of custom resources: how many of them there may be in a namespace, which rules a
resource has to follow, and which of its properties are shown. The rules may depend on the resource,
since some are about every item of a list.

## Main definitions

* `Cardinality` : how many resources there may be in a namespace.
* `Rule` : one rule, with `Rule.apply`.
* `Kind.cardinality`, `Kind.rules`, `Kind.properties` : what is expected of each kind.
-/

namespace EdgeHealth

/-- How many resources of a kind there may be in a namespace. -/
inductive Cardinality where
  | atLeastOne
  | exactlyOne
  deriving DecidableEq, Repr

namespace Cardinality

/-- The sign between a count and one. -/
def sign : Cardinality → String
  | .atLeastOne => ">="
  | .exactlyOne => "=="

/-- The status of a count that is not zero. -/
def statusOf (c : Cardinality) (count : Nat) : Status :=
  if c = .exactlyOne ∧ count ≠ 1 then .error else .success

end Cardinality

/-- A rule that a resource has to follow. -/
inductive Rule where
  /-- Requirements on fields, under one condition. -/
  | demands (condition : String) (requirements : List Requirement)
  /-- Of some fields below a path exactly one is set. -/
  | alternatives (base : String) (fields : List String)
  /-- The name at a path is that of a resource. -/
  | reference (path : String) (referent : Kind)
  /-- The names at a path are those of resources. -/
  | references (path : String) (referent : Kind)
  deriving DecidableEq, Repr

/-- What a rule came to on a resource in a namespace. -/
def Rule.apply (ns : String) (r : Resource) : Rule → Attempt Finding
  | .demands condition requirements => return .ofRequirements condition requirements r
  | .alternatives base fields => return .ofAlternatives base fields r
  | .reference path referent => Finding.reference ns path referent r
  | .references path referent => Finding.references ns path referent r

namespace Profile

/-- A property that is shown with the details. -/
def shown (path label : String) : Property := ⟨path, label, false⟩

/-- A property that is shown where all that is known is shown. -/
def hidden (path label : String) : Property := ⟨path, label, true⟩

/-- Alternatives that are looked at only where something stands above them. -/
def alternativesIfGiven (r : Resource) (base : String) (fields : List String) : List Rule :=
  if r.has base then [.alternatives base fields] else []

/-! ### The broker -/

/-- The rules for a broker. The sizes are looked at in the distributed mode only. -/
def brokerRules (r : Resource) : List Rule :=
  if (r.textAt? "spec.mode").any fun mode => Text.sameAscii mode "distributed" then
    [.demands "spec.cardinality"
      [.atLeast "spec.cardinality.frontend.replicas" 1,
        .atLeast "spec.cardinality.backendChain.partitions" 1,
        .atLeast "spec.cardinality.backendChain.redundancyFactor" 1,
        .atLeast "spec.cardinality.backendChain.workers" 1]]
  else []

/-- The rules for a listener. -/
def listenerRules (r : Resource) : List Rule :=
  [.demands "spec"
      [.text "spec.brokerRef", .betweenIfGiven "spec.port" 1 65535,
        .wordIfGiven "spec.serviceType" ["clusterIp", "loadBalancer", "nodePort"]],
    .reference "spec.brokerRef" .broker] ++
  alternativesIfGiven r "spec.tls" ["automatic", "manual"]

/-- The path of the methods of an authentication. -/
def methodsPath : String := "spec.authenticationMethods"

/-- The methods of which an item of an authentication has to name exactly one. -/
def methodNames : List String := ["custom", "sat", "usernamePassword", "x509"]

/-- The rules for the methods of an authentication: one for each, or the complaint that there are
none. -/
def methodRules (r : Resource) : List Rule :=
  match Requirement.itemsOf ((r.lookup? methodsPath).getD .null) with
  | [] => [.demands methodsPath [.items methodsPath]]
  | methods =>
    (List.range methods.length).map fun i => .alternatives s!"{methodsPath}.{i}" methodNames

/-- The rules for an authentication. -/
def authenticationRules (r : Resource) : List Rule :=
  .references "spec.listenerRef" .brokerListener :: methodRules r

/-- Whether a value is a list or an object with something in it. -/
def isFilled : Option Json → Bool
  | some (.array items) => !items.isEmpty
  | some (.object members) => !members.isEmpty
  | _ => false

/-- The complaints about one rule of an authorization. -/
def policyProblems (number : Nat) (policy : Json) : List Requirement :=
  ["principals", "brokerResources"].filterMap fun field =>
    if isFilled (policy.get? field) then none
    else some (.problem s!"rules[{number}].{field} must not be empty")

/-- The path of the rules of an authorization. -/
def policiesPath : String := "spec.authorizationPolicies.rules"

/-- The items of the list at a path, numbered from zero. -/
def numberedItems (r : Resource) (path : String) : List (Nat × Json) :=
  let items := Requirement.itemsOf ((r.lookup? path).getD .null)
  (List.range items.length).zip items

/-- The rules for an authorization. -/
def authorizationRules (r : Resource) : List Rule :=
  [.references "spec.listenerRef" .brokerListener,
    .demands policiesPath
      (.items policiesPath ::
        (numberedItems r policiesPath).flatMap fun (i, policy) => policyProblems i policy)]

/-! ### The connectors -/

/-- The rules for a bridge to another broker. -/
def bridgeRules (r : Resource) : List Rule :=
  [.demands "spec"
      [.text "spec.image", .word "spec.protocol" ["v3", "v5"],
        .text "spec.remoteBrokerConnection.endpoint", .atLeast "spec.bridgeInstances" 1]] ++
  alternativesIfGiven r "spec.remoteBrokerConnection.authentication"
    ["systemAssignedManagedIdentity", "x509"]

/-- The directions of a route. -/
def directions : List String := ["local-to-remote", "remote-to-local"]

/-- The complaints about one route of a bridge. -/
def routeProblems (number : Nat) (route : Json) : List Requirement :=
  let direction :=
    if ((route.get? "direction").bind Json.text?).any directions.contains then []
    else [.problem
      s!"routes[{number}].direction must be one of {Text.enumerated directions}"]
  direction ++ ["source", "target"].filterMap fun field =>
    if ((route.get? field).bind Json.text?).any fun s => !s.isEmpty then none
    else some (.problem s!"routes[{number}].{field} is required")

/-- The rules for the topics of a bridge. -/
def topicMapRules (r : Resource) : List Rule :=
  [.reference "spec.mqttBridgeConnectorRef" .mqttBridgeConnector,
    .demands "spec.routes"
      (.items "spec.routes" ::
        (numberedItems r "spec.routes").flatMap fun (i, route) => routeProblems i route)]

/-- The rules for a connector to a data lake. -/
def dataLakeRules : List Rule :=
  [.demands "spec" [.text "spec.image", .text "spec.protocol", .atLeast "spec.instances" 1],
    .alternatives "spec.target" ["datalakeStorage", "fabricOneLake", "localStorage"]]

/-- The rules for a connector to a message log. -/
def kafkaRules (r : Resource) : List Rule :=
  [.demands "spec"
      [.text "spec.image", .text "spec.kafkaConnection.endpoint", .atLeast "spec.instances" 1]] ++
  alternativesIfGiven r "spec.kafkaConnection.authentication.authType"
    ["sasl", "systemAssignedManagedIdentity", "x509"]

/-! ### Diagnostics and devices -/

/-- The rules for the diagnostics of the broker. -/
def diagnosticRules : List Rule :=
  [.demands "spec"
    [.betweenIfGiven "spec.metricsPort" 1 65535,
      .atLeastIfGiven "spec.dataExportFrequencySeconds" 1, .textIfGiven "spec.logLevel"]]

/-- The complaints about the schema of a type of assets: an object, or a text that is a JSON
document. -/
def schemaProblems : Option Json → List Requirement
  | none => []
  | some (.object _) => []
  | some (.string text) =>
    match Json.read text with
    | .ok _ => []
    | .error e => [.problem s!"spec.schema is not valid JSON: {e.message}"]
  | some _ => [.problem "spec.schema must be a JSON document"]

/-- The rules for a type of assets. -/
def assetTypeRules (r : Resource) : List Rule :=
  [.demands "spec.schema" (.present "spec.schema" :: schemaProblems (r.present? "spec.schema"))]

end Profile

namespace Kind

open Profile

/-- How many resources of a kind there may be in a namespace. -/
def cardinality : Kind → Cardinality
  | .broker | .diagnosticService => .exactlyOne
  | _ => .atLeastOne

/-- The rules for a resource of a kind, in the order in which they are applied. -/
def rules (r : Resource) : Kind → List Rule
  | .broker => brokerRules r
  | .brokerListener => listenerRules r
  | .brokerAuthentication => authenticationRules r
  | .brokerAuthorization => authorizationRules r
  | .mqttBridgeConnector => bridgeRules r
  | .mqttBridgeTopicMap => topicMapRules r
  | .dataLakeConnector => dataLakeRules
  | .kafkaConnector => kafkaRules r
  | .diagnosticService => diagnosticRules
  | .assetType => assetTypeRules r

/-- The properties of a resource of a kind that are shown. -/
def properties : Kind → List Property
  | .broker =>
    [shown "spec.mode" "Broker Mode", shown "spec.cardinality" "Cardinality",
      shown "spec.diagnostics" "Diagnostics", hidden "spec.memoryProfile" "Memory Profile",
      hidden "spec.authImage" "Auth Image", hidden "spec.brokerImage" "Broker Image",
      hidden "spec.healthManagerImage" "Health Manager Image"]
  | .brokerListener =>
    [shown "spec.port" "Port", shown "spec.serviceType" "Service Type",
      shown "spec.authenticationEnabled" "Authentication Enabled",
      shown "spec.authorizationEnabled" "Authorization Enabled",
      hidden "spec.serviceName" "Service Name", hidden "spec.tls" "TLS"]
  | .brokerAuthentication =>
    [shown "spec.listenerRef" "Listener Refs",
      hidden "spec.authenticationMethods" "Authentication Methods"]
  | .brokerAuthorization =>
    [shown "spec.listenerRef" "Listener Refs",
      hidden "spec.authorizationPolicies" "Authorization Policies"]
  | .mqttBridgeConnector =>
    [shown "spec.bridgeInstances" "Bridge Instances", shown "spec.protocol" "Protocol",
      shown "spec.remoteBrokerConnection.endpoint" "Remote Endpoint", hidden "spec.image" "Image",
      hidden "spec.localBrokerConnection" "Local Broker Connection",
      hidden "spec.remoteBrokerConnection" "Remote Broker Connection",
      hidden "spec.clientIdPrefix" "Client Id Prefix"]
  | .mqttBridgeTopicMap =>
    [shown "spec.mqttBridgeConnectorRef" "Connector Ref", hidden "spec.routes" "Routes"]
  | .dataLakeConnector =>
    [shown "spec.instances" "Instances", shown "spec.protocol" "Protocol",
      hidden "spec.image" "Image", hidden "spec.target" "Target",
      hidden "spec.localBrokerConnection" "Local Broker Connection"]
  | .kafkaConnector =>
    [shown "spec.instances" "Instances", shown "spec.kafkaConnection.endpoint" "Kafka Endpoint",
      hidden "spec.image" "Image", hidden "spec.kafkaConnection" "Kafka Connection",
      hidden "spec.clientIdPrefix" "Client Id Prefix"]
  | .diagnosticService =>
    [shown "spec.logLevel" "Log Level", shown "spec.metricsPort" "Metrics Port",
      shown "spec.dataExportFrequencySeconds" "Data Export Frequency (s)",
      hidden "spec.image" "Image", hidden "spec.logFormat" "Log Format",
      hidden "spec.maxDataStorageSize" "Max Data Storage Size",
      hidden "spec.staleDataTimeoutSeconds" "Stale Data Timeout (s)"]
  | .assetType =>
    [shown "spec.name" "Name", shown "spec.labels" "Labels",
      hidden "spec.description" "Description", hidden "spec.schema" "Schema"]

end Kind

end EdgeHealth
