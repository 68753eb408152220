import EdgeHealth.Check.Basic

/-!
# Building a check from notes

A check is built by notes. A note is addressed to a target in a namespace and adds something to the
entry there, which it creates if need be. The status of the entry and that of the check only ever
become worse.

## Main definitions

* `Change` : what a note does to an entry.
* `Note` : a change with its address.
* `Check.note` : a check with one more note.
* `Check.ofNotes` : the check of a list of notes.
-/

namespace EdgeHealth

/-- What a note does to an entry. -/
inductive Change where
  /-- Starts the entry: its conditions, in place of former ones, and what the target is. -/
  | declare (conditions : List String) (description : Option String)
  /-- Adds conditions. -/
  | addConditions (conditions : List String)
  /-- Puts conditions in the place of the former ones. -/
  | setConditions (conditions : List String)
  /-- Adds an observation. -/
  | evaluate (evaluation : Evaluation)
  /-- Adds a condition together with its observation. -/
  | observe (condition : String) (evaluation : Evaluation)
  /-- Makes the status at least as bad as another one. -/
  | worsen (status : Status)
  /-- Adds lines for a human reader. -/
  | display (lines : List Display)
  deriving DecidableEq, Repr

namespace Change

/-- The status that a change brings into its entry. -/
def status : Change → Status
  | .evaluate e => e.status
  | .observe _ e => e.status
  | .worsen s => s
  | _ => .success

/-- Whether a change adds nothing but lines for a human reader. -/
def isDisplay : Change → Bool
  | .display _ => true
  | _ => false

end Change

/-- The entry after a change. -/
def Entry.apply (e : Entry) : Change → Entry
  | .declare conditions description =>
    { e with conditions := conditions, description := description.or e.description }
  | .addConditions conditions => { e with conditions := e.conditions ++ conditions }
  | .setConditions conditions => { e with conditions := conditions }
  | .evaluate evaluation =>
    { e with
      evaluations := e.evaluations ++ [evaluation]
      status := e.status.worst evaluation.status }
  | .observe condition evaluation =>
    { e with
      conditions := e.conditions ++ [condition]
      evaluations := e.evaluations ++ [evaluation]
      status := e.status.worst evaluation.status }
  | .worsen status => { e with status := e.status.worst status }
  | .display lines => { e with displays := e.displays ++ lines }

/-- A change addressed to a target in a namespace. -/
structure Note where
  /-- The target. -/
  target : String
  /-- The namespace. -/
  ns : String
  /-- The change. -/
  change : Change
  deriving DecidableEq, Repr

namespace Note

/-- Whether a note adds nothing but lines for a human reader. -/
def isDisplay (n : Note) : Bool := n.change.isDisplay

/-- A note about a condition and its observation. -/
def observe (target ns condition : String) (evaluation : Evaluation) : Note :=
  ⟨target, ns, .observe condition evaluation⟩

/-- A note of lines for a human reader. -/
def display (target ns : String) (lines : List Display) : Note := ⟨target, ns, .display lines⟩

end Note

namespace Check

/-- The check after a note. -/
def note (c : Check) (n : Note) : Check :=
  { c with
    targets := c.targets.alter n.target fun entries =>
      (entries.getD Table.empty).alter n.ns fun entry => (entry.getD Entry.empty).apply n.change
    status := c.status.worst n.change.status }

/-- The check of a list of notes. -/
def ofNotes (name description : String) (notes : List Note) : Check :=
  notes.foldl note (empty name description)

/-- The check of a list of notes for a reader who wants lines, or for one who does not. -/
def ofNotesFor (withDisplays : Bool) (name description : String) (notes : List Note) : Check :=
  ofNotes name description (if withDisplays then notes else notes.filter fun n => !n.isDisplay)

end Check

end EdgeHealth
