import EdgeHealth.Check.Note
import EdgeHealth.Cluster.Session

/-!
# Planned checks

A check that is planned has a name, a description and a target before it is evaluated. When its
evaluation fails, or is not finished by the deadline, a check of that name says so.

## Main definitions

* `Check.failed`, `Check.cancelled` : the checks that say why there was no evaluation.
* `Planned` : a planned check.
* `Planned.run` : the check that comes of it.
-/

namespace EdgeHealth

/-- What a check that was cut off says. -/
def cancelledText : String := "cancelled"

/-- The check that says that its evaluation failed. -/
def Check.failed (name description target : String) (e : ClusterError) : Check :=
  .ofNotes name description
    [.observe target allNamespaces "evaluated" (.of .error (.string e.message))]

/-- The check that says that its evaluation was cut off. -/
def Check.cancelled (name description target : String) : Check :=
  .ofNotes name description
    [.observe target allNamespaces "evaluated" (.of .skipped (.string cancelledText))]

/-- A planned check. -/
structure Planned where
  /-- The name. -/
  name : String
  /-- What the check does. -/
  description : String
  /-- The target to which a failure is attributed. -/
  target : String
  /-- The evaluation. -/
  evaluation : Attempt Check

namespace Planned

/-- The check that says that the evaluation failed. -/
def failed (p : Planned) (e : ClusterError) : Check := .failed p.name p.description p.target e

/-- The check that says that the evaluation was cut off. -/
def cancelled (p : Planned) : Check := .cancelled p.name p.description p.target

/-- The check for a result of the evaluation; without a result it was cut off. -/
def settle (p : Planned) : Option (Except ClusterError Check) → Check
  | some (.ok check) => check
  | some (.error e) => p.failed e
  | none => p.cancelled

/-- The check that comes of a planned one, under a deadline. -/
def run (deadline : Option Nat) (p : Planned) : Session Check :=
  (Session.within deadline p.evaluation.run).bind fun result => Session.pure (p.settle result)

end Planned

end EdgeHealth
