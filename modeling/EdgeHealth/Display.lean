import EdgeHealth.Status
import EdgeHealth.Text.Pieces

/-!
# Lines for a human reader

What a check says about a target in words: indented lines made of spans. A span carries a tone and
no colour; which colour a tone has is decided where a report is rendered.

## Main definitions

* `Tone` : the role of a piece of text in its line.
* `Display` : an indented line of spans.
* `Display.field` : a line with a label and a value.
* `Display.plainText` : a line without tones.
-/

namespace EdgeHealth

/-- The role of a piece of text in its line. -/
inductive Tone where
  /-- Text without a role. -/
  | plain
  /-- A heading. -/
  | header
  /-- The name of a property. -/
  | label
  /-- The value of a property. -/
  | value
  /-- Text in the background. -/
  | muted
  /-- Text that tells a status. -/
  | status (status : Status)
  deriving DecidableEq, Repr

/-- A piece of text with its tone. -/
structure Span where
  /-- The text. -/
  text : String
  /-- The role of the text. -/
  tone : Tone
  deriving DecidableEq, Repr

/-- A line for a human reader. -/
structure Display where
  /-- The count of blanks in front of the line. -/
  indent : Nat
  /-- The pieces of the line. -/
  spans : List Span
  deriving DecidableEq, Repr

namespace Display

/-- The line with one more span. -/
def push (d : Display) (tone : Tone) (text : String) : Display :=
  { d with spans := d.spans ++ [⟨text, tone⟩] }

/-- The line with more text that has no role. -/
def plain (d : Display) (text : String) : Display := d.push .plain text

/-- The line with the name of a property at its end. -/
def label (d : Display) (text : String) : Display := d.push .label text

/-- The line with the value of a property at its end. -/
def value (d : Display) (text : String) : Display := d.push .value text

/-- The line with background text at its end. -/
def muted (d : Display) (text : String) : Display := d.push .muted text

/-- The line with text that tells a status at its end. -/
def status (d : Display) (text : String) (status : Status) : Display := d.push (.status status) text

/-- The line without spans. -/
def blank (indent : Nat) : Display := ⟨indent, []⟩

/-- A line with a label and a value. -/
def field (indent : Nat) (label value : String) : Display :=
  (((blank indent).label label).plain ": ").value value

/-- A line with a label and a value that tells a status. -/
def statusField (indent : Nat) (label value : String) (status : Status) : Display :=
  (((blank indent).label label).plain ": ").status value status

/-- A line that tells a status and no more. -/
def notice (indent : Nat) (text : String) (status : Status) : Display :=
  (blank indent).status text status

/-- The text of a line without its tones. -/
def plainText (d : Display) : String :=
  Text.repeated ' ' d.indent ++ String.join (d.spans.map Span.text)

end Display

end EdgeHealth
