import EdgeHealth.Settings.Basic
import EdgeHealth.Yaml.Tree

/-!
# Settings as a document

How settings are read from a YAML document. A scalar is a text just as it is written, whatever it
might stand for; truth values and numbers have to be plain. Keys that are not known are passed over,
known ones stand in a mapping at most once, and where nothing is written all is as by default.

## Main definitions

* `Yaml.Subtree` : a node of a document, with what its references stand for.
* `Yaml.Subtree.field?` : a field of a record in a document.
* `Settings.ofYaml` : the settings of a text.
-/

namespace EdgeHealth

open EdgeHealth.Yaml

namespace Yaml

/-- A node of a document together with the nodes that have a name, any of which it may refer to. -/
structure Subtree where
  /-- The nodes that have a name. -/
  known : List (Nat × Tree)
  /-- The node. -/
  tree : Tree

namespace Subtree

/-- The node of a whole document. -/
def ofDocument (t : Tree) : Subtree := ⟨t.namedNodes, t.target t.namedNodes⟩

/-- Another node of the same document. -/
def child (n : Subtree) (t : Tree) : Subtree := ⟨n.known, t.target n.known⟩

/-- Whether nothing is written. -/
def isVoid (n : Subtree) : Bool :=
  match n.tree with
  | .scalar text form _ => text.isEmpty && form == .plain
  | _ => false

/-- The text of a scalar. -/
def text? (n : Subtree) : Option String :=
  match n.tree with
  | .scalar text _ _ => some text
  | _ => none

/-- The text of a scalar that can stand for a value with a tag: a plain one, or a block with that
tag. -/
def textFor? (tag : String) (n : Subtree) : Option String :=
  match n.tree with
  | .scalar text .plain _ => some text
  | .scalar text .literal given => if given = some tag then some text else none
  | _ => none

/-- A truth value. -/
def bool? (n : Subtree) : Option Bool := (n.textFor? "tag:yaml.org,2002:bool").bind boolWord?

/-- A natural number of at most `bound`. -/
def nat? (bound : Nat) (n : Subtree) : Option Nat :=
  (n.textFor? "tag:yaml.org,2002:int").bind fun s => unsigned? bound s.toList

/-- A value that may be missing: a plain scalar that is empty or a word for nothing. -/
def optional? {α : Type} (decode : Subtree → Option α) (n : Subtree) : Option (Option α) :=
  match n.tree with
  | .scalar text .plain none =>
    if text.isEmpty || isNullWord text then some none else (decode n).map some
  | .scalar text .plain (some "tag:yaml.org,2002:null") =>
    if isNullWord text then some none else none
  | _ => (decode n).map some

/-- A list; where nothing is written it is empty. -/
def list? {α : Type} (decode : Subtree → Option α) (n : Subtree) : Option (List α) :=
  match n.tree with
  | .list items => Json.readAll? (fun t => decode (n.child t)) items
  | _ => if n.isVoid then some [] else none

/-- The values of a key among pairs; nothing when a key is no scalar. -/
def valuesOf (n : Subtree) (name : String) : List (Tree × Tree) → Option (List Subtree)
  | [] => some []
  | (key, value) :: rest =>
    (n.child key).text?.bind fun word =>
      (valuesOf n name rest).map fun values =>
        if word = name then n.child value :: values else values

/-- A field of a record, if it is there; where nothing is written there are none. A key that comes
twice is a fault. -/
def field? (n : Subtree) (name : String) : Option (Option Subtree) :=
  match n.tree with
  | .mapping pairs =>
    (valuesOf n name pairs).bind fun values =>
      match values with
      | [] => some none
      | [value] => some (some value)
      | _ => none
  | _ => if n.isVoid then some none else none

/-- A field of a record, with a value of its own where it is missing. -/
def fieldOr? {α : Type} (n : Subtree) (name : String) (missing : α) (decode : Subtree → Option α) :
    Option α :=
  (n.field? name).bind fun field =>
    match field with
    | none => some missing
    | some value => decode value

end Subtree

end Yaml

namespace ReadinessPolicy

/-- The policy of a record in a document. -/
def ofSubtree? (n : Subtree) : Option ReadinessPolicy := do
  let version := fun (v : Subtree) => v.text?.bind Version.read?
  let minVersion ← n.fieldOr? "minK8sVersion" standard.minVersion version
  let architectures ←
    n.fieldOr? "allowedArchitectures" standard.architectures (Subtree.list? Subtree.text?)
  let minVcpu ← n.fieldOr? "minVcpu" standard.minVcpu (Subtree.nat? Number.maxUInt64)
  let minMemory ← n.fieldOr? "minMemory" standard.minMemory Subtree.text?
  let minKernel ← n.fieldOr? "minKernelVersion" none (Subtree.optional? version)
  let storageClasses ← n.fieldOr? "storageClasses" [] (Subtree.list? Subtree.text?)
  let strict ← n.fieldOr? "strict" false Subtree.bool?
  return ⟨minVersion, architectures, minVcpu, minMemory, minKernel, storageClasses, strict⟩

end ReadinessPolicy

namespace Settings

/-- The settings of a document. -/
def ofSubtree? (n : Subtree) : Option Settings := do
  let readiness ← n.fieldOr? "preDeployment" .standard ReadinessPolicy.ofSubtree?
  let timeout ←
    n.fieldOr? "apiTimeoutSeconds" standard.apiTimeoutSeconds (Subtree.nat? Number.maxUInt64)
  let port ← n.fieldOr? "brokerStatsPort" standard.brokerStatsPort (Subtree.nat? Number.maxUInt16)
  return ⟨readiness, timeout, port⟩

/-- The settings of a text, if they can be used. -/
def ofYaml (text : String) : Except SettingsError Settings :=
  match (Yaml.read? text).bind fun t => ofSubtree? (.ofDocument t) with
  | none => .error .malformed
  | some settings => settings.readiness.validate.map fun _ => settings

end Settings

end EdgeHealth
