import EdgeHealth.Data.Instant
import EdgeHealth.Json.Writer
import EdgeHealth.Text.Escaped

/-!
# Values of another shape

What is wrong with a text that holds a JSON value, but not one of the shape that is asked for.

## Main definitions

* `Json.described` : what a value is, in words.
* `Json.Mismatch` : how a value differs from what is asked for, with `Mismatch.message`.
-/

namespace EdgeHealth

namespace Json

/-- What a value is, in words. -/
def described : Json → String
  | .null => "null"
  | .bool b => s!"boolean \x60{b}\x60"
  | .int i => s!"integer \x60{Text.ofInt i}\x60"
  | .real x => s!"floating point \x60{numberText.write x}\x60"
  | .string s => s!"string {Text.Escaped.quoted s}"
  | .array _ => "sequence"
  | .object _ => "map"

/-- How a value differs from what is asked for. -/
inductive Mismatch where
  /-- It is of another type. Of a list or an object it matters only that it is one. -/
  | type (found : Json) (expected : String)
  /-- It is of the right type, but another value. -/
  | value (found : Json) (expected : String)
  /-- A field of a record is missing. -/
  | missing (field : String)
  /-- A field of a record comes again. -/
  | repeated (field : String)
  /-- A text names no point in time. -/
  | moment (fault : Instant.Fault)
  deriving DecidableEq, Repr

/-- The wording of a mismatch. -/
def Mismatch.message : Mismatch → String
  | .type found expected => s!"invalid type: {found.described}, expected {expected}"
  | .value found expected => s!"invalid value: {found.described}, expected {expected}"
  | .missing field => s!"missing field \x60{field}\x60"
  | .repeated field => s!"duplicate field \x60{field}\x60"
  | .moment fault => fault.message

end Json

end EdgeHealth
