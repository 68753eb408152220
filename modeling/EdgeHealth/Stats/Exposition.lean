import EdgeHealth.Data.Table
import EdgeHealth.Number.Literal
import EdgeHealth.Text.Blank

/-!
# The exposition format of measurements

Measurements as text, one on a line: the name of a metric, labels in braces, and a value. Lines that
start with a hash are comments, and lines that are no measurements are passed over.

## Main definitions

* `Sample` : one measurement.
* `Sample.ofLine?` : the measurement on a line.
* `Sample.ofText` : the measurements of a text.
-/

namespace EdgeHealth

open EdgeHealth.Text

/-- One measurement. -/
structure Sample where
  /-- The name of the metric. -/
  name : String
  /-- The labels, in the order in which they are written. -/
  labels : Table String
  /-- The value. -/
  value : Binary64
  deriving DecidableEq, Repr

namespace Sample

/-- A text without the quotation marks at its two ends. -/
def unquoted (cs : List Char) : List Char :=
  let start := cs.dropWhile (· == '\x22')
  (start.reverse.dropWhile (· == '\x22')).reverse

/-- The label in a piece between commas. -/
def label? (piece : List Char) : Option (String × String) :=
  (cutAt? ['='] piece).map fun (name, value) =>
    (String.ofList (trimBlank name), String.ofList (unquoted (trimBlank value)))

/-- The labels between braces. -/
def readLabels (inner : List Char) : Table String :=
  .ofList ((splitOn ',' inner).filterMap label?)

/-- The parts of a line: the name, the text between braces, and what follows. -/
def parts? (line : List Char) : Option (List Char × Option (List Char) × List Char) :=
  match cutAt? ['\x7b'] line with
  | some (name, after) =>
    (cutAt? ['\x7d'] after).map fun (inner, rest) => (name, some inner, rest)
  | none =>
    match line.dropWhile fun c => !isBlank c with
    | [] => none
    | rest => some (line.takeWhile fun c => !isBlank c, none, rest)

/-- The measurement on a line. What follows the value is passed over. -/
def ofLine? (line : List Char) : Option Sample :=
  match Text.trimBlank line with
  | [] => none
  | '#' :: _ => none
  | line =>
    (parts? line).bind fun (name, inner, rest) =>
      ((words rest).head?.bind Number.float?).map fun value =>
        ⟨String.ofList name, (inner.map readLabels).getD Table.empty, value⟩

/-- The measurements of a text, in order. -/
def ofText (text : List Char) : List Sample := (lines text).filterMap ofLine?

end Sample

end EdgeHealth
