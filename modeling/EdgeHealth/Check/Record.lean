import EdgeHealth.Check.Basic
import EdgeHealth.Json.Decode
import EdgeHealth.Json.Writer
import EdgeHealth.Number.Literal

/-!
# Checks and reports as JSON

The JSON form of checks and reports, and how it is read. Members that hold nothing are left out when
a report is written, and may be left out where one is read.

## Main definitions

* `Check.toJson`, `Check.ofJson?` : a check.
* `Report.toJson`, `Report.ofJson?` : a report.
* `Report.machineText` : the text of a report for other programs.
-/

namespace EdgeHealth

open Json

/-! ### Statuses and lines -/

/-- A status as its word. -/
def Status.toJson (s : Status) : Json := .string s.word

/-- The status of a word. -/
def Status.ofJson? (v : Json) : Option Status := v.word?.bind Status.ofWord?

/-- A tone as its word, or as the status that it tells. -/
def Tone.toJson : Tone → Json
  | .plain => .string "plain"
  | .header => .string "header"
  | .label => .string "label"
  | .value => .string "value"
  | .muted => .string "muted"
  | .status s => .object [("status", s.toJson)]

/-- The tone of a word. -/
def Tone.ofWord? (word : String) : Option Tone :=
  if word = "plain" then some .plain
  else if word = "header" then some .header
  else if word = "label" then some .label
  else if word = "value" then some .value
  else if word = "muted" then some .muted
  else none

/-- The tone of a word, or of a status. -/
def Tone.ofJson? : Json → Option Tone
  | .object [("status", v)] => (Status.ofJson? v).map .status
  | v => v.word?.bind Tone.ofWord?

/-- A span as a record. -/
def Span.toJson (s : Span) : Json :=
  .object [("text", .string s.text), ("tone", s.tone.toJson)]

/-- The span of a record. -/
def Span.ofJson? (v : Json) : Option Span :=
  if v.isRecord 2 then do
    let text ← v.fieldOf? 0 "text" text?
    let tone ← v.fieldOf? 1 "tone" Tone.ofJson?
    return ⟨text, tone⟩
  else none

/-- A line as a record. -/
def Display.toJson (d : Display) : Json :=
  .object [("indent", ofNat d.indent), ("spans", .array (d.spans.map Span.toJson))]

/-- The line of a record. -/
def Display.ofJson? (v : Json) : Option Display :=
  if v.isRecord 2 then do
    let indent ← v.fieldOf? 0 "indent" (natUpTo? Number.maxUInt64)
    let spans ← v.fieldOf? 1 "spans" (list? Span.ofJson?)
    return ⟨indent, spans⟩
  else none

/-! ### Checks -/

/-- An observation as a record. -/
def Evaluation.toJson (e : Evaluation) : Json :=
  .object ([("status", e.status.toJson)] ++
    optionalMember "value" (if e.value.isNull then none else some e.value) ++
    optionalMember "name" (e.name.map .string) ++ optionalMember "kind" (e.kind.map .string))

/-- The observation of a record. -/
def Evaluation.ofJson? (v : Json) : Option Evaluation :=
  if v.isRecord 4 then do
    let status ← v.fieldOf? 0 "status" Status.ofJson?
    let value ← v.fieldOr? 1 "value" .null some
    let name ← v.fieldOr? 2 "name" none (optional? text?)
    let kind ← v.fieldOr? 3 "kind" none (optional? text?)
    return ⟨status, value, name, kind⟩
  else none

/-- An entry as a record. -/
def Entry.toJson (e : Entry) : Json :=
  .object ([("conditions", ofTexts e.conditions),
      ("evaluations", .array (e.evaluations.map Evaluation.toJson)),
      ("status", e.status.toJson)] ++
    optionalMember "displays"
      (if e.displays.isEmpty then none else some (.array (e.displays.map Display.toJson))) ++
    optionalMember "description" (e.description.map .string))

/-- The entry of a record. -/
def Entry.ofJson? (v : Json) : Option Entry :=
  if v.isRecord 5 then do
    let conditions ← v.fieldOf? 0 "conditions" (list? text?)
    let evaluations ← v.fieldOf? 1 "evaluations" (list? Evaluation.ofJson?)
    let status ← v.fieldOf? 2 "status" Status.ofJson?
    let displays ← v.fieldOr? 3 "displays" [] (list? Display.ofJson?)
    let description ← v.fieldOr? 4 "description" none (optional? text?)
    return ⟨conditions, evaluations, status, displays, description⟩
  else none

/-- The entries of a check as objects inside an object. -/
def Targets.toJson (targets : Targets) : Json := ofTable (ofTable Entry.toJson) targets

/-- A check as a record. -/
def Check.toJson (c : Check) : Json :=
  .object [("name", .string c.name), ("description", .string c.description),
    ("targets", Targets.toJson c.targets), ("status", c.status.toJson)]

/-- The check of a record. -/
def Check.ofJson? (v : Json) : Option Check :=
  if v.isRecord 4 then do
    let name ← v.fieldOf? 0 "name" text?
    let description ← v.fieldOf? 1 "description" text?
    let targets ← v.fieldOf? 2 "targets" (table? (table? Entry.ofJson?))
    let status ← v.fieldOf? 3 "status" Status.ofJson?
    return ⟨name, description, targets, status⟩
  else none

/-! ### Reports -/

/-- A report as a record. -/
def Report.toJson (r : Report) : Json :=
  .object (optionalMember "title" (r.title.map .string) ++
    [("preDeployment", .array (r.preDeployment.map Check.toJson)),
      ("postDeployment", .array (r.postDeployment.map Check.toJson))])

/-- The report of a record. -/
def Report.ofJson? (v : Json) : Option Report :=
  if v.isRecord 3 then do
    let title ← v.fieldOr? 0 "title" none (optional? text?)
    let pre ← v.fieldOf? 1 "preDeployment" (list? Check.ofJson?)
    let post ← v.fieldOf? 2 "postDeployment" (list? Check.ofJson?)
    return ⟨title, pre, post⟩
  else none

/-- The text of a report for other programs. It never holds lines for human readers. -/
def Report.machineText (r : Report) : String := (r.asRecord false).toJson.pretty

end EdgeHealth
