import EdgeHealth.Evaluate.Profile

/-!
# Checking the resources of a kind

The check of a kind of custom resources: its resources are fetched and chosen by name, counted in
each namespace, and looked at one after another, each by the rules of the kind and by the status
that it reports.

## Main definitions

* `Kind.fetch` : the resources of a kind that are looked at.
* `Kind.absenceNotes`, `Kind.countNotes` : the notes about their number.
* `Kind.resourceNotes` : the notes about one resource.
* `Kind.check` : the check of a kind.
-/

namespace EdgeHealth.Kind

/-- The resources in an answer. A kind that the cluster does not know has no resources. -/
def listed : Except ClusterError (List Resource) → Attempt (List Resource)
  | .ok resources => return resources
  | .error e => if e.isNotFound then return [] else Attempt.fail e

/-- The question for the resources of a kind in the namespaces that are looked at. -/
def list (ns : Option String) (k : Kind) : Attempt (List Resource) :=
  match ns with
  | some ns => do listed (← Attempt.askFor (.listObjectsIn k.api ns k.plural))
  | none => do listed (← Attempt.askFor (.listObjects k.api k.plural))

/-- The resources of a kind that are looked at. -/
def fetch (scope : Scope) (k : Kind) : Attempt (List Resource) := do
  let resources ← k.list scope.context.ns
  return resources.filter fun r => scope.names.accepts (Resource.name r)

/-- The condition on the number of resources of a kind. -/
def countCondition (k : Kind) : String := s!"len({k.plural}){k.cardinality.sign}1"

/-- The notes when there is no resource of a kind. -/
def absenceNotes (ns : Option String) (k : Kind) : List Note :=
  let message := match ns with
    | some ns => s!"No {k.plural} detected in namespace {ns}."
    | none => s!"No {k.plural} detected in any namespace."
  [.observe k.target allNamespaces k.countCondition
      ⟨.warning, .string message, none, some k.word⟩,
    .display k.target allNamespaces [.notice 0 message .warning]]

/-- The notes about the number of resources of a kind in a namespace. -/
def countNotes (k : Kind) (ns : String) (count : Nat) : List Note :=
  let status := k.cardinality.statusOf count
  let noun := if count = 1 then k.kindName else k.plural
  [.observe k.target ns k.countCondition ⟨status, .ofNat count, none, some k.word⟩,
    .display k.target ns
      [(((((Display.blank 0).plain "Found ").status (Nat.repr count) status).plain
        s!" {noun} in namespace ").value ns)]]

/-- The line that introduces a resource. -/
def header (k : Kind) (r : Resource) : Display :=
  ((((Display.blank 2).plain "- ").plain k.kindName).plain " ").value (Resource.name r)

/-- The notes about one resource: those of the rules, of the status, and its properties. -/
def resourceNotes (level : DetailLevel) (k : Kind) (ns : String) (r : Resource) :
    Attempt (List Note) := do
  let findings ← Attempt.forEach (Rule.apply ns r) (k.rules r)
  let all := findings ++ (Finding.ofStatus? level r).toList
  return .display k.target ns [k.header r] ::
    all.flatMap (fun f => f.notes k.target ns (Resource.name r) k.word) ++
    [.display k.target ns (project r k.properties level 6)]

/-- The notes about resources of a kind: first their number in each namespace, then each of them. -/
def notes (scope : Scope) (k : Kind) (resources : List Resource) : Attempt (List Note) :=
  match resources with
  | [] => return k.absenceNotes scope.context.ns
  | _ => do
    let groups := (groupByNamespace resources).toList
    let details ← Attempt.forEach
      (fun (ns, r) => k.resourceNotes scope.level ns r)
      (groups.flatMap fun (ns, group) => group.map fun r => (ns, r))
    return groups.flatMap (fun (ns, group) => k.countNotes ns group.length) ++ details.flatten

/-- The check of a kind. -/
def check (scope : Scope) (k : Kind) : Attempt Check := do
  let resources ← k.fetch scope
  let notes ← k.notes scope resources
  return .ofNotesFor scope.withDisplays k.checkName k.description notes

end EdgeHealth.Kind
