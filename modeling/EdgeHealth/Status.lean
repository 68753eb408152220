import EdgeHealth.Text.LowerCase

/-!
# Statuses and detail levels

The outcome of an observation, and how much of a resource is shown.

## Main definitions

* `Status` : success, skipped, warning and error, from best to worst.
* `Status.worst`, `Status.worstOf` : the worse of two statuses, the worst of several.
* `Status.isFailure` : the statuses that fail a readiness check.
* `DetailLevel` : summary, detail and verbose.
-/

namespace EdgeHealth

/-- The outcome of an observation. -/
inductive Status where
  /-- All is well. -/
  | success
  /-- Nothing was observed, and nothing had to be. -/
  | skipped
  /-- Something may be wrong. -/
  | warning
  /-- Something is wrong. -/
  | error
  deriving DecidableEq, Repr, Inhabited

namespace Status

/-- The place of a status in the order from best to worst. -/
def rank : Status → Nat
  | .success => 0
  | .skipped => 1
  | .warning => 2
  | .error => 3

/-- The worse of two statuses. -/
def worst (a b : Status) : Status := if a.rank ≤ b.rank then b else a

/-- The worst of several statuses; success when there is none. -/
def worstOf (statuses : List Status) : Status := statuses.foldl worst .success

/-- The word for a status. -/
def word : Status → String
  | .success => "success"
  | .skipped => "skipped"
  | .warning => "warning"
  | .error => "error"

/-- The statuses in the order in which a summary lists them. -/
def listed : List Status := [.success, .warning, .error, .skipped]

/-- Whether a status is a failure. A warning is one only under the strict rule. -/
def isFailure (strict : Bool) : Status → Bool
  | .error => true
  | .warning => strict
  | .success => false
  | .skipped => false

/-- The sign in front of a line about a status. -/
def glyph : Status → String
  | .success => "✔"
  | .warning => "⚠"
  | .error => "✖"
  | .skipped => "○"

/-- The status that a word stands for, exactly as it is written. -/
def ofWord? (word : String) : Option Status :=
  [success, skipped, warning, error].find? fun s => s.word == word

/-- The status that a word stands for, in any case of ASCII letters. -/
def ofText? (text : String) : Option Status := ofWord? (Text.lowerAscii text)

/-- The complaint about a word that stands for no status. -/
def unknownMessage (text : String) : String :=
  s!"unknown status '{Text.lowerAscii text}'"

end Status

/-- How much of a resource is shown. -/
inductive DetailLevel where
  /-- One line for each check. -/
  | summary
  /-- The main properties of each resource. -/
  | detail
  /-- All that is known. -/
  | verbose
  deriving DecidableEq, Repr, Inhabited

namespace DetailLevel

/-- The place of a level in the order from little to much. -/
def rank : DetailLevel → Nat
  | .summary => 0
  | .detail => 1
  | .verbose => 2

/-- Whether all that is known is shown. -/
def isVerbose : DetailLevel → Bool
  | .verbose => true
  | _ => false

/-- Whether more than one line for each check is shown. -/
def showsDetail : DetailLevel → Bool
  | .summary => false
  | _ => true

/-- The word for a level. -/
def word : DetailLevel → String
  | .summary => "summary"
  | .detail => "detail"
  | .verbose => "verbose"

/-- The level that a number stands for. -/
def ofNat? : Nat → Option DetailLevel
  | 0 => some .summary
  | 1 => some .detail
  | 2 => some .verbose
  | _ => none

/-- The complaint about a number that stands for no level. -/
def unknownMessage (n : Nat) : String := s!"detail level must be 0, 1 or 2 (got {n})"

end DetailLevel

end EdgeHealth
