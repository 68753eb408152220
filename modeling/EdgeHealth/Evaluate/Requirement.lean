import EdgeHealth.Json.Path
import EdgeHealth.Json.Writer
import EdgeHealth.Status
import EdgeHealth.Text.LowerCase

/-!
# Requirements on the fields of a resource

What a field of a resource has to be. Each requirement looks at one path and complains on its own;
a list of requirements is met when none of them complains. What was seen on the way is shown when
all is well, and the complaints are shown when it is not.

## Main definitions

* `Requirement` : what a field has to be.
* `Requirement.problems` : the complaints of one requirement about a resource.
* `Requirement.observed` : what a list of requirements sees.
* `Requirement.outcome` : the outcome of a list of requirements.
-/

namespace EdgeHealth

open Json

/-- What a field of a resource has to be. -/
inductive Requirement where
  /-- The field has to be there. -/
  | present (path : String)
  /-- The field has to be a text that is not blank. -/
  | text (path : String)
  /-- The field has to be a list that is not empty. -/
  | items (path : String)
  /-- The field has to be a natural number of at least `least`. -/
  | atLeast (path : String) (least : Nat)
  /-- The field has to be one of some words, in any case of letters. -/
  | word (path : String) (allowed : List String)
  /-- The field has to be a text that is not blank, if it is there. -/
  | textIfGiven (path : String)
  /-- The field has to be a natural number of at least `least`, if it is there. -/
  | atLeastIfGiven (path : String) (least : Nat)
  /-- The field has to be a natural number between two others, if it is there. -/
  | betweenIfGiven (path : String) (least greatest : Nat)
  /-- The field has to be one of some words, in any case of letters, if it is there. -/
  | wordIfGiven (path : String) (allowed : List String)
  /-- A complaint whatever the resource is. -/
  | problem (message : String)
  deriving DecidableEq, Repr

namespace Requirement

/-- The path that a requirement looks at. -/
def path? : Requirement → Option String
  | .present path | .text path | .items path | .atLeast path _ | .word path _ | .textIfGiven path
  | .atLeastIfGiven path _ | .betweenIfGiven path _ _ | .wordIfGiven path _ => some path
  | .problem _ => none

/-! ### Complaints about a value -/

/-- The text that a value is, if that is not blank. -/
def filledText? (v : Json) : Option String :=
  v.text?.filter fun s => !(Text.trimBlank s.toList).isEmpty

/-- The items of a value; none if that is no list. -/
def itemsOf : Json → List Json
  | .array members => members
  | _ => []

/-- The complaints about a value that has to be a text that is not blank. -/
def textProblems (path : String) (v : Json) : List String :=
  if (filledText? v).isSome then [] else [s!"{path} must be a non-empty string"]

/-- The complaints about a value that has to be a list that is not empty. -/
def itemsProblems (path : String) (v : Json) : List String :=
  if (itemsOf v).isEmpty then [s!"{path} must be a non-empty list"] else []

/-- The complaints about a value that has to be a natural number of at least `least`. -/
def atLeastProblems (path : String) (least : Nat) (v : Json) : List String :=
  match v.toNat? with
  | none => [s!"{path} must be an integer"]
  | some n => if least ≤ n then [] else [s!"{path} must be >= {least} (got {n})"]

/-- The complaints about a value that has to be a natural number between two others. -/
def betweenProblems (path : String) (least greatest : Nat) (v : Json) : List String :=
  if v.toNat?.any fun n => least ≤ n && n ≤ greatest then []
  else [s!"{path} must be between {least} and {greatest} (got {v.scalarText})"]

/-- The complaints about a value that has to be one of some words. -/
def wordProblems (path : String) (allowed : List String) (v : Json) : List String :=
  if v.text?.any fun s => allowed.any fun word => Text.sameAscii word s then []
  else [s!"{path} must be one of {Text.enumerated allowed} (got {v.scalarText})"]

/-! ### Complaints about a resource -/

/-- The complaints about a field that has to be there. -/
def demand (resource : Json) (path : String) (problems : Json → List String) : List String :=
  match resource.present? path with
  | none => [s!"missing {path}"]
  | some v => problems v

/-- The complaints about a field that may be missing. -/
def permit (resource : Json) (path : String) (problems : Json → List String) : List String :=
  match resource.present? path with
  | none => []
  | some v => problems v

/-- The complaints of one requirement about a resource. -/
def problems (resource : Json) : Requirement → List String
  | .present path => demand resource path fun _ => []
  | .text path => demand resource path (textProblems path)
  | .items path => demand resource path (itemsProblems path)
  | .atLeast path least => demand resource path (atLeastProblems path least)
  | .word path allowed => demand resource path (wordProblems path allowed)
  | .textIfGiven path => permit resource path (textProblems path)
  | .atLeastIfGiven path least => permit resource path (atLeastProblems path least)
  | .betweenIfGiven path least greatest =>
    permit resource path (betweenProblems path least greatest)
  | .wordIfGiven path allowed => permit resource path (wordProblems path allowed)
  | .problem message => [message]

/-- What one requirement sees: its path with the value there. -/
def sight? (resource : Json) (r : Requirement) : Option (String × Json) :=
  r.path?.bind fun path => (resource.present? path).map fun v => (path, v)

/-- What a list of requirements sees, each path once. -/
def observed (resource : Json) (requirements : List Requirement) : List (String × Json) :=
  (requirements.filterMap (sight? resource)).foldl
    (fun seen pair => setMember pair.1 pair.2 seen) []

/-- The complaints of a list of requirements, in order. -/
def allProblems (resource : Json) (requirements : List Requirement) : List String :=
  requirements.flatMap (problems resource)

/-- The outcome of a list of requirements: what they saw, or the complaints. -/
def outcome (resource : Json) (requirements : List Requirement) : Status × Json :=
  match allProblems resource requirements with
  | [] => (.success, .object (observed resource requirements))
  | complaints => (.error, .string (Text.joinWith "; " complaints))

end Requirement

end EdgeHealth
