import EdgeHealth.Check.Basic
import EdgeHealth.Json.Path
import EdgeHealth.Text.Glob
import EdgeHealth.Text.LowerCase

/-!
# Custom resources

A custom resource is a JSON value of no fixed shape. This module says where its name, its namespace
and its status stand, how resources are grouped by namespace, and how they are chosen by name.

## Main definitions

* `Resource.name`, `Resource.ns`, `Resource.status?` : the parts that all resources have.
* `groupByNamespace` : resources by namespace, in the order in which namespaces come.
* `NameFilter` : a pattern over names, with `NameFilter.accepts`.
-/

namespace EdgeHealth

/-- A custom resource. -/
abbrev Resource : Type := Json

namespace Resource

/-- The name; empty when there is none. -/
def name (r : Resource) : String := (Json.textAt? r "metadata.name").getD ""

/-- The namespace; that of targets of no single namespace when there is none. -/
def ns (r : Resource) : String := (Json.textAt? r "metadata.namespace").getD allNamespaces

/-- The status object. -/
def status? (r : Resource) : Option Json := (Json.lookup? r "status").filter Json.isObject

end Resource

/-- Resources by namespace. Namespaces stand in the order in which they come first, and the
resources of each in the order of the list. -/
def groupByNamespace (resources : List Resource) : Table (List Resource) :=
  resources.foldl
    (fun groups r => groups.alter (Resource.ns r) fun group => group.getD [] ++ [r]) Table.empty

/-- A pattern over names, in lower case; without a pattern every name is accepted. -/
structure NameFilter where
  /-- The characters of the pattern. -/
  pattern : Option (List Char)
  deriving DecidableEq, Repr

namespace NameFilter

/-- The filter that accepts every name. -/
def any : NameFilter := ⟨none⟩

/-- The filter of a pattern. The empty pattern accepts every name. -/
def ofPattern (pattern : Option String) : NameFilter :=
  ⟨(pattern.filter fun p => !p.isEmpty).map fun p => Text.lowerCase p.toList⟩

/-- Whether a name is accepted. The case of letters does not count. -/
def accepts (f : NameFilter) (name : String) : Bool :=
  match f.pattern with
  | none => true
  | some pattern => Text.Glob.accepts pattern (Text.lowerCase name.toList)

end NameFilter

end EdgeHealth
