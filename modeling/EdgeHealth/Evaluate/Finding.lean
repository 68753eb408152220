import EdgeHealth.Check.Note
import EdgeHealth.Cluster.Session
import EdgeHealth.Evaluate.Requirement
import EdgeHealth.Settings.Basic

/-!
# Findings about a resource

A finding is what one condition on a resource came to. Findings come from requirements on fields,
from names that have to lead to other resources, from fields of which exactly one may be set, and
from the status that a resource reports about itself.

## Main definitions

* `Scope` : what an evaluation looks at, and how much of it is shown.
* `Finding` : a condition, its outcome, and the lines for a human reader.
* `Finding.ofRequirements`, `Finding.ofAlternatives`, `Finding.ofStatus?` : findings about a
  resource alone.
* `Finding.reference`, `Finding.references` : findings that ask the cluster for other resources.
-/

namespace EdgeHealth

open Json

/-- What an evaluation looks at, and how much of it is shown. -/
structure Scope where
  /-- Where and how long the run looks. -/
  context : RunContext
  /-- The resources that are looked at, by their names. -/
  names : NameFilter
  /-- How much of a resource is shown. -/
  level : DetailLevel
  /-- Whether lines for human readers are kept. -/
  withDisplays : Bool
  deriving DecidableEq, Repr

/-- What one condition on a resource came to. -/
structure Finding where
  /-- The condition. -/
  condition : String
  /-- The outcome. -/
  status : Status
  /-- What was observed. -/
  value : Json
  /-- The lines for a human reader. -/
  displays : List Display
  deriving DecidableEq, Repr

namespace Finding

/-- A finding as notes about a resource of a kind. -/
def notes (f : Finding) (target ns name kind : String) : List Note :=
  [.observe target ns f.condition ⟨f.status, f.value, some name, some kind⟩,
    .display target ns f.displays]

/-! ### Requirements -/

/-- What requirements on the fields of a resource came to. Each complaint is a line. -/
def ofRequirements (condition : String) (requirements : List Requirement) (r : Resource) :
    Finding :=
  let (status, value) := Requirement.outcome r requirements
  ⟨condition, status, value,
    (Requirement.allProblems r requirements).map fun message => .notice 6 message .error⟩

/-! ### Alternatives -/

/-- The outcome when some of several alternative fields are set: there has to be exactly one. -/
def alternativesOutcome (set fields : List String) : Status × Json :=
  let all := Text.enumerated fields
  match set with
  | [] => (.error, .string s!"none of {all} is set")
  | [one] => (.success, .string one)
  | _ => (.error, .string s!"{set.length} of {all} are set: {Text.enumerated set}")

/-- The path of a field below another path. -/
def below (base field : String) : String := s!"{base}.{field}"

/-- What alternative fields below a path came to. -/
def ofAlternatives (base : String) (fields : List String) (r : Resource) : Finding :=
  let (status, value) := alternativesOutcome (fields.filter fun f => r.has (below base f)) fields
  ⟨s!"oneOf({Text.enumerated (fields.map (below base))})", status, value,
    if status = .error then
      [.notice 6 s!"{base}: expected exactly one of {Text.enumerated fields}" .error]
    else []⟩

/-! ### Reported status -/

/-- The status that a word in the status of a resource stands for, in any case of letters. A word
that is not known is a warning. -/
def reportedStatus (word : String) : Status :=
  let word := Text.lowerAscii word
  if ["running", "succeeded", "ok"].contains word then .success
  else if ["failed", "error"].contains word then .error
  else .warning

/-- The parts of the status of a resource, each with the word for it. -/
def statusParts : List (String × String) :=
  [("runtimeStatus", "runtime"), ("provisioningStatus", "provisioning")]

/-- The word that stands in a part of a status. -/
def reportedWord? (status : Json) (part : String) : Option String :=
  status.textAt? (below part "status")

/-- A part of a status as it is shown: its word, and the description of it when all is shown. -/
def reportedPart? (verbose : Bool) (status : Json) (part : String) : Option (String × Json) :=
  (reportedWord? status part).map fun word =>
    let description :=
      if verbose then status.lookup? (below part "statusDescription") else none
    (part, .object (("status", .string word) :: optionalMember "statusDescription" description))

/-- The worse of the two parts of a status. A missing part counts as a warning beside one that is
there; where both are missing that is an error. -/
def combinedStatus (words : List (Option String)) : Status :=
  if words.all Option.isNone then .error
  else .worstOf (words.map fun word => (word.map reportedStatus).getD .warning)

/-- The outcome of the status that a resource reports. -/
def statusOutcome (verbose : Bool) (status : Json) : Status × Json :=
  let words := statusParts.map fun part => reportedWord? status part.1
  let parts := statusParts.filterMap fun part => reportedPart? verbose status part.1
  (combinedStatus words,
    if parts.isEmpty then .string "status not reported" else .object parts)

/-- The line about the status that a resource reports. -/
def statusLine (status : Json) : Display :=
  statusParts.foldl
    (fun line part =>
      match reportedWord? status part.1 with
      | none => line
      | some word =>
        ((line.plain s!"{part.2} ").status word (reportedStatus word)).plain " ")
    (((Display.blank 6).label "Status").plain ": ")

/-- What the status of a resource came to, if it has one. -/
def ofStatus? (level : DetailLevel) (r : Resource) : Option Finding :=
  (Resource.status? r).map fun status =>
    let (combined, value) := statusOutcome level.isVerbose status
    ⟨"status", combined, value, [statusLine status]⟩

/-! ### References -/

/-- Whether a resource is there. A failure to reach the cluster fails the attempt; any other
failure counts as absence. -/
def exists? (ns : String) (referent : Kind) (name : String) : Attempt Bool := do
  match ← Attempt.askFor (.getObject referent.api ns referent.plural name) with
  | .ok _ => return true
  | .error e => if e.isConnectivity then Attempt.fail e else return false

/-- The finding about a reference that names nothing. -/
def unset (path : String) : Finding :=
  ⟨s!"valid({path})", .error, .string s!"{path} is not set", []⟩

/-- The finding about a reference to one resource. -/
def ofReference (path : String) (referent : Kind) (name : String) (found : Bool) : Finding :=
  let status : Status := if found then .success else .error
  ⟨s!"valid({path})", status, .object [(path, .string name)],
    [((((Display.blank 6).label referent.kindName).plain " reference ").value name).status
      (if found then " valid" else " not found") status]⟩

/-- What the name at a path came to, which has to be that of a resource in the same namespace. -/
def reference (ns : String) (path : String) (referent : Kind) (r : Resource) : Attempt Finding :=
  match (r.textAt? path).filter fun name => !name.isEmpty with
  | none => return unset path
  | some name => do return ofReference path referent name (← exists? ns referent name)

/-- The names at a path: those in a list, or a single one. -/
def namesAt (path : String) (r : Resource) : List String :=
  match r.lookup? path with
  | some (.array items) => items.filterMap text?
  | some (.string name) => [name]
  | _ => []

/-- The finding about references to several resources, some of which may be missing. -/
def ofReferences (path : String) (referent : Kind) (names missing : List String) : Finding :=
  if missing.isEmpty then ⟨s!"valid({path})", .success, .object [(path, ofTexts names)], []⟩
  else
    ⟨s!"valid({path})", .error,
      .object (setMember "missing" (ofTexts missing) [(path, ofTexts names)]),
      [(((Display.blank 6).label referent.kindName).plain " references not found: ").status
        (Text.enumerated missing) .error]⟩

/-- The names of which no resource is there, in order. -/
def missingOf (ns : String) (referent : Kind) : List String → Attempt (List String)
  | [] => return []
  | name :: rest => do
    let found ← exists? ns referent name
    let missing ← missingOf ns referent rest
    return if found then missing else name :: missing

/-- What the names at a path came to, each of which has to be that of a resource in the same
namespace. -/
def references (ns : String) (path : String) (referent : Kind) (r : Resource) : Attempt Finding :=
  match namesAt path r with
  | [] => return unset path
  | names => do return ofReferences path referent names (← missingOf ns referent names)

end Finding

end EdgeHealth
