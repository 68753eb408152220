import EdgeHealth.Data.Table
import EdgeHealth.Json.Basic

/-!
# Reading records from JSON values

How a record of named fields, a choice between words, a list or a table is read from a JSON value.
A record is an object, or an array of its fields in their order; fields with other names are passed
over.

## Main definitions

* `Json.field?` : a field of a record, by its name or its place.
* `Json.isRecord` : whether a value can be a record with some count of fields.
* `Json.word?` : a choice without a payload.
* `Json.list?`, `Json.table?` : lists and tables.
-/

namespace EdgeHealth

namespace Json

/-- A field of a record: the member with its name, or the item at its place. -/
def field? (place : Nat) (name : String) : Json → Option Json
  | .object members => findMember? name members
  | .array items => items[place]?
  | _ => none

/-- Whether a value can be a record with a count of fields. -/
def isRecord (count : Nat) : Json → Bool
  | .object _ => true
  | .array items => items.length ≤ count
  | _ => false

/-- A field that may be missing and then has a value of its own. -/
def fieldOr? {α : Type} (v : Json) (place : Nat) (name : String) (missing : α)
    (decode : Json → Option α) : Option α :=
  match v.field? place name with
  | none => some missing
  | some field => decode field

/-- A field that has to be there. -/
def fieldOf? {α : Type} (v : Json) (place : Nat) (name : String) (decode : Json → Option α) :
    Option α :=
  (v.field? place name).bind decode

/-- A choice without a payload: a word, or an object whose only member has that name and `null` as
its value. -/
def word? : Json → Option String
  | .string s => some s
  | .object [(name, .null)] => some name
  | _ => none

/-- A value that may be `null`. -/
def optional? {α : Type} (decode : Json → Option α) : Json → Option (Option α)
  | .null => some none
  | v => (decode v).map some

/-- A truth value. -/
def bool? : Json → Option Bool
  | .bool b => some b
  | _ => none

/-- A natural number of at most `bound`, written without fraction and exponent. -/
def natUpTo? (bound : Nat) : Json → Option Nat
  | .int i => if 0 ≤ i && i ≤ bound then some i.toNat else none
  | _ => none

/-- All results of reading the items of a list, if each can be read. -/
def readAll? {α β : Type} (decode : α → Option β) : List α → Option (List β)
  | [] => some []
  | a :: rest => (decode a).bind fun b => (readAll? decode rest).map fun bs => b :: bs

/-- A list. -/
def list? {α : Type} (decode : Json → Option α) : Json → Option (List α)
  | .array items => readAll? decode items
  | _ => none

/-- A table. -/
def table? {α : Type} (decode : Json → Option α) : Json → Option (Table α)
  | .object members =>
    (readAll? (fun pair => (decode pair.2).map fun a => (pair.1, a)) members).map Table.ofList
  | _ => none

/-- A member that is left out when there is nothing to write. -/
def optionalMember (name : String) (value : Option Json) : List (String × Json) :=
  match value with
  | none => []
  | some v => [(name, v)]

/-- A table as an object. -/
def ofTable {α : Type} (encode : α → Json) (t : Table α) : Json :=
  .object (t.toList.map fun pair => (pair.1, encode pair.2))

end Json

end EdgeHealth
