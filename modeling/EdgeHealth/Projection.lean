import EdgeHealth.Display
import EdgeHealth.Json.Path
import EdgeHealth.Json.Writer

/-!
# Projecting properties of a resource

Chosen properties of a resource as indented lines. An object is a label with its members below it; a
list that holds an object is a label with its items below it, numbered; anything else is one line,
save that a long text stands on a line of its own.

## Main definitions

* `Property` : a path, the label it is shown under, and from which level of detail on.
* `valueLines` : the lines of a labelled value.
* `project` : the lines of the chosen properties of a resource.
-/

namespace EdgeHealth

/-- A property of a resource that is shown. -/
structure Property where
  /-- The path of the value. -/
  path : String
  /-- The label that the value is shown under. -/
  label : String
  /-- Whether it is shown only where all that is known is shown. -/
  verboseOnly : Bool
  deriving DecidableEq, Repr

/-- A text with more characters than this stands on a line of its own. -/
def longText : Nat := 50

/-- The line of a value that is no structure. -/
def leafLines (indent : Nat) (label : String) (v : Json) : List Display :=
  match v with
  | .string s =>
    if longText < s.length then
      [((Display.blank indent).label label).plain ":", (Display.blank (indent + 4)).value s]
    else [Display.field indent label s]
  | _ => [Display.field indent label v.scalarText]

mutual

/-- The lines of a value under a label. -/
def valueLines (indent : Nat) (label : String) : Json → List Display
  | .object members => (Display.blank indent).label label :: memberLines (indent + 4) members
  | .array items =>
    if items.any Json.isObject then
      (Display.blank indent).label label :: itemLines indent 0 items
    else [Display.field indent label (Text.enumerated (items.map Json.scalarText))]
  | .null => leafLines indent label .null
  | .bool b => leafLines indent label (.bool b)
  | .int i => leafLines indent label (.int i)
  | .real x => leafLines indent label (.real x)
  | .string s => leafLines indent label (.string s)

/-- The lines of the members of an object, each under its name. -/
def memberLines (indent : Nat) : List (String × Json) → List Display
  | [] => []
  | (key, v) :: rest => valueLines indent key v ++ memberLines indent rest

/-- The lines of the items of a list from a number on, each under that number. -/
def itemLines (indent : Nat) (number : Nat) : List Json → List Display
  | [] => []
  | v :: rest =>
    (Display.blank (indent + 2)).muted s!"- [{number}]" :: itemBody (indent + 6) v ++
      itemLines indent (number + 1) rest

/-- The lines of an item: the members of an object, or the value itself. -/
def itemBody (indent : Nat) : Json → List Display
  | .object members => memberLines indent members
  | .null => [(Display.blank indent).value (Json.scalarText .null)]
  | .bool b => [(Display.blank indent).value (Json.scalarText (.bool b))]
  | .int i => [(Display.blank indent).value (Json.scalarText (.int i))]
  | .real x => [(Display.blank indent).value (Json.scalarText (.real x))]
  | .string s => [(Display.blank indent).value s]
  | .array items => [(Display.blank indent).value (Json.scalarText (.array items))]

end

/-- Whether a property is shown at a level of detail. -/
def Property.isShownAt (p : Property) (level : DetailLevel) : Bool :=
  !p.verboseOnly || level.isVerbose

/-- The lines of one property; none when its value is missing or `null`. -/
def Property.lines (p : Property) (indent : Nat) (resource : Json) : List Display :=
  match resource.present? p.path with
  | none => []
  | some v => valueLines indent p.label v

/-- The lines of the properties of a resource that are shown at a level of detail. -/
def project (resource : Json) (properties : List Property) (level : DetailLevel) (indent : Nat) :
    List Display :=
  (properties.filter fun p => p.isShownAt level).flatMap fun p => p.lines indent resource

end EdgeHealth
