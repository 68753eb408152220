import EdgeHealth.Json.Basic
import EdgeHealth.Text.Pieces

/-!
# Dotted paths into a JSON value

A path such as `spec.tls.automatic` names a value inside another one. Its steps stand between dots:
a step into an object is the name of a member, a step into an array is the place of an item, counted
from zero.

## Main definitions

* `Json.step?` : the value one step below another.
* `Json.walk?` : the value at the end of a list of steps.
* `Json.lookup?` : the value at a path.
* `Json.has`, `Json.textAt?` : what stands at a path.
-/

namespace EdgeHealth

namespace Json

/-- The value one step below a value: an item of an array, a member of an object. -/
def step? (key : List Char) : Json → Option Json
  | .array items => (Number.natural? Number.maxUInt64 key).bind fun i => items[i]?
  | v => v.get? (String.ofList key)

/-- The value at the end of a list of steps. -/
def walk? : List (List Char) → Json → Option Json
  | [], v => some v
  | key :: rest, v => (v.step? key).bind (walk? rest)

/-- The steps of a path; the empty path has none. -/
def steps (path : String) : List (List Char) :=
  if path.toList.isEmpty then [] else Text.splitOn '.' path.toList

/-- The value at a path. The empty path leads to the value itself. -/
def lookup? (v : Json) (path : String) : Option Json := walk? (steps path) v

/-- The value at a path, unless it is `null`. -/
def present? (v : Json) (path : String) : Option Json :=
  (v.lookup? path).filter fun found => !found.isNull

/-- Whether there is a value other than `null` at a path. -/
def has (v : Json) (path : String) : Bool := (v.present? path).isSome

/-- The text at a path. -/
def textAt? (v : Json) (path : String) : Option String := (v.lookup? path).bind text?

end Json

end EdgeHealth
