import EdgeHealth.Json.Decode

/-!
# Objects of the cluster

The parts that pods, nodes and workloads have in common: the metadata, and the rule by which an
object is written, with its API version and its kind first and all else in the order of the names.

## Main definitions

* `Meta` : name, namespace and labels.
* `Kube.object` : an object with its API version and kind.
-/

namespace EdgeHealth

namespace Json

/-- A field that may be missing or `null`. -/
def maybe? {α : Type} (name : String) (decode : Json → Option α) (v : Json) : Option (Option α) :=
  match v.given? name with
  | none => some none
  | some field => (decode field).map some

/-- A field that may be missing or `null` and then has a value of its own. -/
def maybeOr? {α : Type} (name : String) (missing : α) (decode : Json → Option α) (v : Json) :
    Option α :=
  (maybe? name decode v).map fun found => found.getD missing

/-- Named texts, in the order of the names. -/
def texts? : Json → Option (List (String × String))
  | .object members =>
    (readAll? (fun pair => pair.2.text?.map fun s => (pair.1, s)) members).map sortMembers
  | _ => none

/-- Named texts as an object. -/
def ofNamedTexts (texts : List (String × String)) : Json :=
  .object (texts.map fun pair => (pair.1, .string pair.2))

end Json

/-- What every object of the cluster says about itself. -/
structure Meta where
  /-- The name. -/
  name : Option String
  /-- The namespace. -/
  ns : Option String
  /-- The labels, in the order of their names. -/
  labels : Option (List (String × String))
  deriving DecidableEq, Repr, Inhabited

namespace Meta

/-- The metadata of an object. -/
def ofJson? (v : Json) : Option Meta :=
  if v.isObject then do
    let name ← v.maybe? "name" Json.text?
    let ns ← v.maybe? "namespace" Json.text?
    let labels ← v.maybe? "labels" Json.texts?
    return ⟨name, ns, labels⟩
  else none

/-- The metadata as an object. -/
def toJson (m : Meta) : Json :=
  .object (Json.optionalMember "labels" (m.labels.map Json.ofNamedTexts) ++
    Json.optionalMember "name" (m.name.map .string) ++
    Json.optionalMember "namespace" (m.ns.map .string))

end Meta

/-- An object as it is written: API version, kind, and the members given. -/
def Kube.object (apiVersion kind : String) (members : List (String × Json)) : Json :=
  .object (("apiVersion", .string apiVersion) :: ("kind", .string kind) :: members)

end EdgeHealth
