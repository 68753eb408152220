import EdgeHealth.Cluster.Call
import EdgeHealth.Kube.Schema
import EdgeHealth.Text.Escaped

/-!
# Questions to the cluster over HTTP

How the questions to a cluster are put to its API server: the path and the query of the request for
each question, how long a response is waited for, and how a response is read.

## Main definitions

* `HttpRequest`, `Transmission` : a request, and what comes of sending it.
* `Call.request` : the request for a question.
* `Transmission.body` : the body of a response, or the failure that it tells.
* `Kube.read` : what is read from a body of some shape.
* `Call.decode` : the answer to a question in the body of a response.
* `Kube.cluster` : the cluster behind an API server.
-/

namespace EdgeHealth

open Json

/-- A request to the API server, which only asks. -/
structure HttpRequest where
  /-- The path. -/
  path : String
  /-- The terms of the query, in the order of their names. -/
  query : List (String × String)
  deriving DecidableEq, Repr

/-- What comes of sending a request. -/
inductive Transmission where
  /-- It does not arrive. -/
  | fails (reason : String)
  /-- There is a response. -/
  | responds (code : Nat) (body : String)
  deriving DecidableEq, Repr

/-! ### Requests -/

namespace Workload

/-- The name of a kind of workloads as the API tells it. -/
def kindName : Workload → String
  | .deployment => "Deployment"
  | .daemonSet => "DaemonSet"
  | .replicaSet => "ReplicaSet"
  | .statefulSet => "StatefulSet"
  | .service => "Service"
  | .event => "Event"

/-- The API of a kind of workloads. -/
def apiVersion : Workload → String
  | .service | .event => "v1"
  | _ => "apps/v1"

/-- The path of the API of a kind of workloads. -/
def root : Workload → String
  | .service | .event => "/api/v1"
  | _ => "/apis/apps/v1"

end Workload

/-- The path of an API. -/
def ApiVersion.path (api : ApiVersion) : String :=
  if api.group = "" then s!"/api/{api.text}" else s!"/apis/{api.text}"

namespace Call

/-- The path and the query of the request for a question; a connection is made in another way. -/
def target : Call → HttpRequest
  | .serverVersion => ⟨"/version", []⟩
  | .listNodes => ⟨"/api/v1/nodes", []⟩
  | .listStorageClasses => ⟨"/apis/storage.k8s.io/v1/storageclasses", []⟩
  | .listPods ns selector =>
    ⟨match ns with
      | some ns => s!"/api/v1/namespaces/{ns}/pods"
      | none => "/api/v1/pods",
      (selector.map fun s => ("labelSelector", s)).toList⟩
  | .readPodLog ns pod container since =>
    ⟨s!"/api/v1/namespaces/{ns}/pods/{pod}/log",
      [("container", container), ("sinceSeconds", Text.ofInt since)]⟩
  | .listWorkloads kind ns => ⟨s!"{kind.root}/namespaces/{ns}/{kind.word}s", []⟩
  | .listApiResources api => ⟨s!"/apis/{api.text}", []⟩
  | .listObjects api plural => ⟨s!"{api.path}/{plural}", []⟩
  | .listObjectsIn api ns plural => ⟨s!"{api.path}/namespaces/{ns}/{plural}", []⟩
  | .getObject api ns plural name => ⟨s!"{api.path}/namespaces/{ns}/{plural}/{name}", []⟩
  | .forwardPort ns pod port =>
    ⟨s!"/api/v1/namespaces/{ns}/pods/{pod}/portforward", [("ports", Nat.repr port)]⟩

/-- The name of the one thing that a question is about; a list is about none. -/
def subject? : Call → Option String
  | .readPodLog _ pod _ _ => some pod
  | .getObject _ _ _ name => some name
  | .forwardPort _ pod _ => some pod
  | _ => none

/-- The characters that may stand in a path, and those that end it. -/
def isPathLetter (c : Char) : Bool :=
  '\x21' ≤ c && c ≤ '\x7e' && !(['<', '>', '\x60'].contains c)

/-- How it is told that the path for a question has a character that no path has. -/
def badPathMessage : Call → String
  | .listApiResources _ => "HttpError: invalid uri character"
  | _ => "Failed to build request: failed to build request: invalid uri character"

/-- The request for a question. A question about a thing without a name is not sent, and neither is
one whose path has characters that no path has. -/
def request (c : Call) : Except ClusterError HttpRequest :=
  if c.subject? = some "" then
    .error (.api 0
      "Failed to build request: failed to validate request: A non-empty name is required")
  else if c.target.path.toList.all isPathLetter then .ok c.target
  else .error (.api 0 c.badPathMessage)

/-- What a question does, in words. -/
def operation : Call → String
  | .serverVersion => "get server version"
  | .listNodes => "list nodes"
  | .listStorageClasses => "list storage classes"
  | .listPods .. => "list pods"
  | .readPodLog .. => "read pod log"
  | .listWorkloads kind _ => s!"list {kind.word}s"
  | .listApiResources _ => "list api resources"
  | .listObjects _ plural => s!"list {plural}"
  | .listObjectsIn _ _ plural => s!"list {plural}"
  | .getObject _ _ plural name => s!"get {plural}/{name}"
  | .forwardPort .. => "port-forward"

end Call

/-! ### Refusals -/

/-- A refusal of the API server. -/
structure Refusal where
  /-- The number of the cause. -/
  code : Nat
  /-- The cause. -/
  reason : String
  /-- The wording. -/
  message : String
  deriving DecidableEq, Repr

namespace Refusal

/-- The refusal that a value tells: a record, or a list of its fields in their order. -/
def ofJson? (v : Json) : Option Refusal := do
  let _ ← v.fieldOf? 0 "status" text?
  let message ← v.fieldOr? 1 "message" "" text?
  let reason ← v.fieldOr? 2 "reason" "" text?
  let code ← v.fieldOf? 3 "code" (natUpTo? Number.maxUInt16)
  return ⟨code, reason, message⟩

/-- The refusal that a body tells. -/
def read? (body : String) : Option Refusal :=
  match (Kube.refusal.read body).toOption with
  | some v => ofJson? v
  | none => ((Json.read body).toOption.filter fun v => !v.isObject && v.isRecord 4).bind ofJson?

/-- The refusal of a response. A body that tells none is quoted. -/
def ofResponse (code : Nat) (body : String) : Refusal :=
  (read? body).getD
    ⟨code, "Failed to parse error data", Text.Escaped.quoted body⟩

/-- The failure that a refusal is. -/
def toError (r : Refusal) : ClusterError :=
  if r.code = 404 then .notFound r.reason r.message else .api r.code r.message

end Refusal

/-- The body of a response, or the failure that it tells. -/
def Transmission.body : Transmission → Except ClusterError String
  | .fails reason => .error (.connectivity reason)
  | .responds code body =>
    if 400 ≤ code ∧ code < 600 then .error (Refusal.ofResponse code body).toError
    else .ok body

/-! ### Answers -/

namespace Kube

/-- What is read from a body of some shape. -/
def read (shape : Shape) (body : String) : Except ClusterError Json :=
  (shape.read body).mapError fun e => .decode e.message

/-- A text of an object that has it. -/
def textAt (name : String) (v : Json) : String := ((v.get? name).bind text?).getD ""

/-- The list of an object that has it. -/
def listAt (name : String) (v : Json) : List Json :=
  match v.get? name with
  | some (.array items) => items
  | _ => []

/-- The items of a list whose items have some shape. -/
def readItems (item : Shape) (body : String) : Except ClusterError (List Json) :=
  (read (listOf item) body).map (listAt "items")

/-- The shape of workloads of a kind. -/
def workloadShape : Workload → Shape
  | .deployment => deployment
  | .daemonSet => daemonSet
  | .replicaSet => replicaSet
  | .statefulSet => statefulSet
  | .service => service
  | .event => event

/-- A workload in an item of a list. -/
def workload (kind : Workload) : Json → Json
  | .object members => object kind.apiVersion kind.kindName members
  | v => v

/-- The name of a storage class. -/
def className (v : Json) : Option String :=
  (v.get? "metadata").bind fun metadata => (metadata.get? "name").bind text?

/-- The API version and the kind of a custom object, and its members without them. Of these there
are both or none. They are looked for in order, up to one that is no text or comes again. -/
def typesOf (apiVersion kind : Option String) :
    List (String × Json) → List (String × Json) × List (String × Json)
  | [] =>
    match apiVersion, kind with
    | some apiVersion, some kind =>
      ([("apiVersion", .string apiVersion), ("kind", .string kind)], [])
    | _, _ => ([], [])
  | (name, v) :: rest =>
    match name, v, apiVersion, kind with
    | "apiVersion", .string s, none, _ => typesOf (some s) kind rest
    | "kind", .string s, _, none => typesOf apiVersion (some s) rest
    | "apiVersion", _, _, _ => ([], rest)
    | "kind", _, _, _ => ([], rest)
    | _, _, _, _ =>
      let found := typesOf apiVersion kind rest
      (found.1, (name, v) :: found.2)

/-- A custom object: its types, its metadata, and all else as it is given. -/
def customResource (v : Json) : Resource :=
  match v with
  | .object ((name, metadata) :: others) =>
    let (types, rest) := typesOf none none others
    .object (types ++ (name, metadata) :: rest.foldl (fun ms pair => setMember pair.1 pair.2 ms) [])
  | v => v

end Kube

namespace Call

/-- The answer to a question in the body of a response. -/
def decode : (c : Call) → String → Except ClusterError c.Answer
  | .serverVersion, body =>
    (Kube.read Kube.info body).bind fun info =>
      let major := Kube.textAt "major" info
      let minor := Kube.textAt "minor" info
      match Version.ofMajorMinor? major minor with
      | some version => .ok version
      | none => .error (.decode s!"unexpected server version {major}.{minor}")
  | .listNodes, body => (Kube.readItems Kube.node body).map (List.filterMap Node.ofJson?)
  | .listStorageClasses, body =>
    (Kube.readItems Kube.storageClass body).map (List.map Kube.className)
  | .listPods .., body => (Kube.readItems Kube.pod body).map (List.filterMap Pod.ofJson?)
  | .readPodLog .., body => .ok body
  | .listWorkloads kind _, body =>
    (Kube.readItems (Kube.workloadShape kind) body).map (List.map (Kube.workload kind))
  | .listApiResources _, body =>
    (Kube.read Kube.apiResourceList body).map fun list =>
      (Kube.listAt "resources" list).map fun r => ⟨Kube.textAt "name" r, Kube.textAt "kind" r⟩
  | .listObjects .., body =>
    (Kube.readItems Kube.customObject body).map (List.map Kube.customResource)
  | .listObjectsIn .., body =>
    (Kube.readItems Kube.customObject body).map (List.map Kube.customResource)
  | .getObject .., body => (Kube.read Kube.customObject body).map Kube.customResource
  | .forwardPort .., _ => .error (.connectivity "not a question of one response")

/-- A failure as it is told for a question: a thing that was asked for by name is told by that
name. -/
def toldBy (c : Call) (e : ClusterError) : ClusterError :=
  match c, e with
  | .listApiResources api, .notFound .. => .notFound "api" api.text
  | .getObject _ _ plural name, .notFound .. => .notFound plural name
  | _, e => e

/-- The answer to a question in what comes of its request. -/
def answerIn (c : Call) (t : Transmission) : Except ClusterError c.Answer :=
  match t.body with
  | .error e => .error (c.toldBy e)
  | .ok body => c.decode body

/-- The reply to a question: the answer, or that there was none in time. -/
def replyIn (c : Call) (timeout : Nat) (t : Reply Transmission) : Reply c.Answer :=
  if timeout < t.delay then ⟨timeout, .error (.timeout c.operation timeout)⟩
  else
    match t.answer with
    | .error e => ⟨t.delay, .error e⟩
    | .ok transmission => ⟨t.delay, c.answerIn transmission⟩

end Call

/-- The cluster behind an API server, to which requests are sent one at a time. -/
def Kube.cluster (timeout : Nat) (send : HttpRequest → Reply Transmission) : Cluster where
  reply c :=
    match c.request with
    | .error e => ⟨0, .error e⟩
    | .ok request => c.replyIn timeout (send request)

end EdgeHealth
