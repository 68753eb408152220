import EdgeHealth.Data.Table
import EdgeHealth.Display
import EdgeHealth.Json.Basic

/-!
# Checks and reports

A check looks at targets, each of them in one or more namespaces. For a target in a namespace it
holds an entry: conditions, and beside each condition what was observed. A report holds the checks
of a run, those before deployment and those after it.

## Main definitions

* `Evaluation` : one observation.
* `Entry` : the conditions and observations of a target in a namespace.
* `Check` : the entries of one check, with its status.
* `Check.evaluatedStatus` : the worst status of all observations.
* `Check.withoutDisplays` : a check without lines for human readers.
* `Report` : the checks of a run.
-/

namespace EdgeHealth

/-- The namespace of targets that belong to no single namespace. -/
def allNamespaces : String := "_all_"

/-- One observation, which belongs to the condition at the same place of its entry. -/
structure Evaluation where
  /-- The outcome. -/
  status : Status
  /-- What was observed. -/
  value : Json
  /-- The name of the resource that was observed. -/
  name : Option String
  /-- The kind of the resource that was observed. -/
  kind : Option String
  deriving DecidableEq, Repr

/-- An observation of no single resource. -/
def Evaluation.of (status : Status) (value : Json) : Evaluation := ⟨status, value, none, none⟩

/-- What is known about a target in a namespace. -/
structure Entry where
  /-- The conditions, in the order in which they were checked. -/
  conditions : List String
  /-- The observations, one for each condition. -/
  evaluations : List Evaluation
  /-- The worst status of the observations. -/
  status : Status
  /-- Lines for a human reader. -/
  displays : List Display
  /-- What the target is. -/
  description : Option String
  deriving DecidableEq, Repr, Inhabited

namespace Entry

/-- The entry in which nothing stands. -/
def empty : Entry := ⟨[], [], .success, [], none⟩

/-- The conditions with their observations. -/
def pairs (e : Entry) : List (String × Evaluation) := e.conditions.zip e.evaluations

/-- Whether there are as many observations as conditions. -/
def isConsistent (e : Entry) : Bool := e.conditions.length == e.evaluations.length

/-- The entry without lines for human readers. -/
def withoutDisplays (e : Entry) : Entry := { e with displays := [] }

end Entry

/-- Entries by target and, inside of that, by namespace. -/
abbrev Targets : Type := Table (Table Entry)

/-- The outcome of one check. -/
structure Check where
  /-- The name. -/
  name : String
  /-- What the check does. -/
  description : String
  /-- The entries. -/
  targets : Targets
  /-- The worst status of the entries. -/
  status : Status
  deriving DecidableEq, Repr, Inhabited

namespace Check

/-- The check that has looked at nothing yet. -/
def empty (name description : String) : Check := ⟨name, description, Table.empty, .success⟩

/-- The entry of a target in a namespace. -/
def entryAt? (c : Check) (target ns : String) : Option Entry :=
  (c.targets.get? target).bind fun entries => entries.get? ns

/-- All entries with their targets and namespaces, in order. -/
def entries (c : Check) : List (String × String × Entry) :=
  c.targets.toList.flatMap fun (target, namespaces) =>
    namespaces.toList.map fun (ns, entry) => (target, ns, entry)

/-- All observations, in order. -/
def evaluations (c : Check) : List Evaluation :=
  c.entries.flatMap fun (_, _, entry) => entry.evaluations

/-- The worst status of all observations. -/
def evaluatedStatus (c : Check) : Status := .worstOf (c.evaluations.map Evaluation.status)

/-- The check without lines for human readers. -/
def withoutDisplays (c : Check) : Check :=
  { c with targets := c.targets.mapValues fun entries => entries.mapValues Entry.withoutDisplays }

/-- The check for a reader who wants lines, or for one who does not. -/
def asRecord (withDisplays : Bool) (c : Check) : Check :=
  if withDisplays then c else c.withoutDisplays

end Check

/-- The checks of a run. -/
structure Report where
  /-- A heading. -/
  title : Option String
  /-- The checks before deployment. -/
  preDeployment : List Check
  /-- The checks after deployment. -/
  postDeployment : List Check
  deriving DecidableEq, Repr, Inhabited

namespace Report

/-- All checks, those before deployment first. -/
def checks (r : Report) : List Check := r.preDeployment ++ r.postDeployment

/-- The worst status of the checks. -/
def status (r : Report) : Status := .worstOf (r.checks.map Check.status)

/-- The report for a reader who wants lines, or for one who does not. -/
def asRecord (withDisplays : Bool) (r : Report) : Report where
  title := r.title
  preDeployment := r.preDeployment.map (Check.asRecord withDisplays)
  postDeployment := r.postDeployment.map (Check.asRecord withDisplays)

/-- How many observations have a status. -/
def count (r : Report) (s : Status) : Nat :=
  (r.checks.flatMap Check.evaluations).countP fun e => e.status == s

end Report

end EdgeHealth
