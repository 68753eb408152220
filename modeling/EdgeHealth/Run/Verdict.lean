import EdgeHealth.Check.Basic
import EdgeHealth.Json.Writer

/-!
# Whether a cluster is ready

The verdict on the checks of a cluster: it is ready if no observation is a failure. Otherwise every
observation that is one is told.

## Main definitions

* `Failure` : an observation that is a failure.
* `Failure.ofChecks` : the failures among the observations of checks.
* `Failure.verdict` : the verdict.
* `Failure.report` : the text that tells failures.
-/

namespace EdgeHealth

/-- An observation that is a failure. -/
structure Failure where
  /-- The target. -/
  target : String
  /-- The namespace. -/
  ns : String
  /-- The condition. -/
  condition : String
  /-- The status. -/
  status : Status
  /-- What was observed, as a text. -/
  value : String
  deriving DecidableEq, Repr

namespace Failure

/-- The text for what was observed. -/
def valueText : Json → String
  | .string s => s
  | .null => "N/A"
  | v => v.compact

/-- The failures among the observations of an entry. -/
def ofEntry (strict : Bool) (target ns : String) (e : Entry) : List Failure :=
  (e.pairs.filter fun pair => pair.2.status.isFailure strict).map fun (condition, evaluation) =>
    ⟨target, ns, condition, evaluation.status, valueText evaluation.value⟩

/-- The failures among the observations of checks, in order. -/
def ofChecks (strict : Bool) (checks : List Check) : List Failure :=
  checks.flatMap fun c => c.entries.flatMap fun (target, ns, entry) =>
    ofEntry strict target ns entry

/-- The verdict on checks: nothing where there is no failure, and else all failures. -/
def verdict (strict : Bool) (checks : List Check) : Except (List Failure) Unit :=
  match ofChecks strict checks with
  | [] => .ok ()
  | failures => .error failures

/-- The line that tells a failure. -/
def line (f : Failure) : String :=
  s!"[{f.status.word}] {f.target} ({f.ns}) {f.condition}: {f.value}"

/-- The text that tells failures. -/
def report (failures : List Failure) : String :=
  s!"Cluster readiness failed with {failures.length} issue(s):\n" ++
    String.join (failures.map fun f => s!"  - {f.line}\n")

end Failure

end EdgeHealth
