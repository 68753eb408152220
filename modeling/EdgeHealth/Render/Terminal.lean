import EdgeHealth.Check.Basic
import EdgeHealth.Render.Paint
import EdgeHealth.Yaml.Writer

/-!
# Reports on a terminal

The text of a report for a human reader. Each check has a line; with more detail its entries follow,
as their lines for human readers, or as a line for each observation where there are none. When all
is shown, both are, and structured values follow as documents.

## Main definitions

* `View` : how much is shown, and whether in colours.
* `View.observation` : the line of an observation.
* `View.check` : the lines of a check.
* `View.report` : the text of a report.
-/

namespace EdgeHealth

/-- How a report is shown. -/
structure View where
  /-- How much is shown. -/
  level : DetailLevel
  /-- Whether text is coloured. -/
  colored : Bool
  deriving DecidableEq, Repr

namespace View

/-- A line with its end. -/
def ended (line : String) : String := line ++ "\n"

/-- The text of a line for human readers, moved to the right. -/
def display (colored : Bool) (indent : Nat) (d : Display) : String :=
  Text.repeated ' ' (indent + d.indent) ++
    String.join (d.spans.map fun s => s.tone.painted colored s.text)

/-- The text of an observed value on a line. -/
def valueText (v : Json) : String := if v.isStructured then v.compact else v.scalarText

/-- The line of an observation: a sign, the target and the resource, the condition and the value. -/
def observation (colored : Bool) (target condition : String) (e : Evaluation) : String :=
  let subject := match e.name with
    | some name => s!"{target} [{name}]"
    | none => target
  (Tone.status e.status).painted colored e.status.glyph ++ " " ++
    Tone.label.painted colored subject ++ ": " ++ condition ++ " " ++
    Tone.value.painted colored (valueText e.value)

/-- The lines of a structured value as a document. -/
def document (colored : Bool) (v : Json) : List String :=
  (Text.lines (Yaml.document v).toList).map fun line =>
    "        " ++ Tone.muted.painted colored (String.ofList line)

/-- The lines of an observation in an entry. -/
def observationLines (view : View) (target condition : String) (e : Evaluation) : List String :=
  ("    " ++ observation view.colored target condition e) ::
    if view.level.isVerbose && e.value.isStructured then document view.colored e.value else []

/-- The lines of the observations of an entry. -/
def observations (view : View) (target : String) (e : Entry) : List String :=
  e.pairs.flatMap fun (condition, evaluation) =>
    view.observationLines target condition evaluation

/-- The line that names a namespace; none for targets of no single namespace. -/
def namespaceLines (view : View) (ns : String) : List String :=
  if ns = allNamespaces then []
  else
    ["  " ++ Tone.label.painted view.colored "Namespace:" ++ " " ++
      Tone.value.painted view.colored ns]

/-- The lines of an entry. -/
def entryLines (view : View) (target ns : String) (e : Entry) : List String :=
  view.namespaceLines ns ++
    e.displays.map (display view.colored 4) ++
    if e.displays.isEmpty || view.level.isVerbose then view.observations target e else []

/-- The first line of a check. -/
def headLine (view : View) (c : Check) : String :=
  (Tone.status c.status).painted view.colored s!"{c.status.glyph} {c.description}"

/-- The lines of a check. -/
def checkLines (view : View) (c : Check) : List String :=
  view.headLine c ::
    if view.level.showsDetail then
      c.entries.flatMap fun (target, ns, entry) => view.entryLines target ns entry
    else []

/-- The text of a check. -/
def check (view : View) (c : Check) : String := String.join ((view.checkLines c).map ended)

/-- The lines of a heading with checks below it; none when there is no check. -/
def sectionLines (view : View) (heading : String) (checks : List Check) : List String :=
  if checks.isEmpty then []
  else
    Tone.header.painted view.colored heading :: checks.flatMap view.checkLines ++
      [Text.repeated '-' 60]

/-- How many observations have each status. -/
def counts (view : View) (r : Report) : String :=
  "  " ++ Text.joinWith "   " (Status.listed.map fun s =>
    (Tone.status s).painted view.colored s!"{s.glyph} {r.count s} {s.word}")

/-- The lines of a report. -/
def reportLines (view : View) (r : Report) : List String :=
  (match r.title with
    | some title => [Tone.header.painted view.colored title, ""]
    | none => []) ++
  view.sectionLines "Pre-deployment checks" r.preDeployment ++
  view.sectionLines "Post-deployment checks" r.postDeployment ++
  [Tone.header.painted view.colored "Summary", view.counts r]

/-- The text of a report. -/
def report (view : View) (r : Report) : String := String.join ((view.reportLines r).map ended)

end View

end EdgeHealth
