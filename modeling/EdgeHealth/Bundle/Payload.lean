import EdgeHealth.Json.Writer
import EdgeHealth.Yaml.Writer

/-!
# Payloads of a bundle

What is kept in a bundle is a document, a list for other programs, or a text. An empty payload is
not kept.

## Main definitions

* `Payload` : the payloads.
* `Payload.contents?` : the text of a payload, if it is kept.
* `Artifact` : a payload with its path in the bundle.
-/

namespace EdgeHealth

/-- What is kept in a bundle. -/
inductive Payload where
  /-- A value that is written as a YAML document. -/
  | yaml (v : Json)
  /-- A value that is written as JSON on several lines. -/
  | json (v : Json)
  /-- A text. -/
  | text (s : String)
  deriving DecidableEq, Repr

namespace Payload

/-- Whether a value holds nothing. -/
def isVoid : Json → Bool
  | .null => true
  | .array items => items.isEmpty
  | .object members => members.isEmpty
  | .string s => s.isEmpty
  | _ => false

/-- Whether a payload holds nothing. -/
def isEmpty : Payload → Bool
  | .yaml v => isVoid v
  | .json v => isVoid v
  | .text s => s.isEmpty

/-- The text of a payload. -/
def written : Payload → String
  | .yaml v => Yaml.document v
  | .json v => v.pretty
  | .text s => s

/-- The text of a payload that is kept. -/
def contents? (p : Payload) : Option String := if p.isEmpty then none else some p.written

end Payload

/-- A payload with its path in the bundle. -/
structure Artifact where
  /-- The path. -/
  path : String
  /-- The payload. -/
  payload : Payload
  deriving DecidableEq, Repr

end EdgeHealth
