import EdgeHealth.Check.Note
import EdgeHealth.Cluster.Call

/-!
# Discovering what an API serves

Before the kinds of a service are checked, the cluster is asked which of them its API serves. This
module holds the checks that tell the outcome.

## Main definitions

* `Discovery.served` : the kinds of a service among the resources of its API.
* `Discovery.check` : the check that lists the kinds that are served.
* `Discovery.missingApi` : the check that says that there is no such API.
* `Discovery.absentKind` : the check that says that a kind is not served.
-/

namespace EdgeHealth.Discovery

/-- What the discovery of the API of a service does. -/
def description (s : Service) : String := s!"Enumerate {s.title} API resources"

/-- The kinds of a service among the resources that its API serves. A part of a resource, whose name
has a slash in it, is no resource. -/
def served (s : Service) (resources : List ApiResource) : List Kind :=
  ((resources.filter fun r => !r.name.toList.contains '/').filterMap fun r =>
    Kind.ofKindName? r.kind).filter fun k => k.service == s

/-- The notes about one kind that is served. -/
def servedNotes (target : String) (k : Kind) : List Note :=
  [.observe target allNamespaces s!"discovered({k.plural})"
      ⟨.success, .string k.kindName, none, some k.word⟩,
    .display target allNamespaces [.notice 4 k.kindName .success]]

/-- The notes about what an API serves. -/
def notes (s : Service) (served : List Kind) : List Note :=
  let target := s.api.text
  let nothing : List Note :=
    if served.isEmpty then
      [.observe target allNamespaces s!"discovered({target})"
        (.of .warning (.string "No known resource kinds are served."))]
    else []
  .display target allNamespaces
      [(((Display.blank 0).plain "Enumerate ").value target).plain " API resources"] ::
    nothing ++ (s.kinds.filter served.contains).flatMap (servedNotes target)

/-- The check that lists the kinds of a service that are served. -/
def check (withDisplays : Bool) (s : Service) (served : List Kind) : Check :=
  .ofNotesFor withDisplays s.enumerationCheck (description s) (notes s served)

/-- The check that says that there is no API for a service. -/
def missingApi (withDisplays : Bool) (s : Service) : Check :=
  let target := s.api.text
  let message := s!"{target} API resources not detected on the cluster."
  .ofNotesFor withDisplays s.enumerationCheck (description s)
    [.observe target allNamespaces s!"discovered({target})" (.of .skipped (.string message)),
      .display target allNamespaces [.notice 0 message .skipped]]

/-- The check that says that a kind is not served. -/
def absentKind (withDisplays : Bool) (k : Kind) : Check :=
  let message := s!"{k.kindName} is not served by {k.api.text}."
  .ofNotesFor withDisplays k.checkName k.description
    [.observe k.target allNamespaces s!"discovered({k.plural})"
        ⟨.skipped, .string message, none, some k.word⟩,
      .display k.target allNamespaces [.notice 0 message .skipped]]

end EdgeHealth.Discovery
