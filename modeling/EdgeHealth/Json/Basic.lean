import EdgeHealth.Number.Literal
import EdgeHealth.Text.Blank

/-!
# JSON values

The values that resources, reports and configurations are made of. The members of an object keep
the order in which they were written, and an integer stays apart from a number with a fraction.

## Main definitions

* `Json` : a value.
* `Json.get?` : a member of an object.
* `Json.toNat?` : a natural number, which may be written as a string.
* `Json.setMember` : a list of members with one more.
* `Json.sortMembers` : members in the order of their names.
-/

namespace EdgeHealth

/-- A JSON value. -/
inductive Json where
  /-- The value that stands for nothing. -/
  | null
  /-- A truth value. -/
  | bool (b : Bool)
  /-- A number written without fraction and exponent. -/
  | int (i : Int)
  /-- Any other number. -/
  | real (x : Binary64)
  /-- A text. -/
  | string (s : String)
  /-- A list of values. -/
  | array (items : List Json)
  /-- Named values, in the order in which they were written. -/
  | object (members : List (String × Json))
  deriving Repr, Inhabited

namespace Json

mutual

/-- Decides whether two values are the same. -/
def decEq : (a b : Json) → Decidable (a = b)
  | .null, .null => .isTrue rfl
  | .bool a, .bool b => if h : a = b then .isTrue (h ▸ rfl) else .isFalse (by simp [h])
  | .int a, .int b => if h : a = b then .isTrue (h ▸ rfl) else .isFalse (by simp [h])
  | .real a, .real b => if h : a = b then .isTrue (h ▸ rfl) else .isFalse (by simp [h])
  | .string a, .string b => if h : a = b then .isTrue (h ▸ rfl) else .isFalse (by simp [h])
  | .array a, .array b =>
    match decEqList a b with
    | .isTrue h => .isTrue (h ▸ rfl)
    | .isFalse h => .isFalse (by simp [h])
  | .object a, .object b =>
    match decEqMembers a b with
    | .isTrue h => .isTrue (h ▸ rfl)
    | .isFalse h => .isFalse (by simp [h])
  | .null, .bool _ | .null, .int _ | .null, .real _ | .null, .string _ | .null, .array _
  | .null, .object _ | .bool _, .null | .bool _, .int _ | .bool _, .real _ | .bool _, .string _
  | .bool _, .array _ | .bool _, .object _ | .int _, .null | .int _, .bool _ | .int _, .real _
  | .int _, .string _ | .int _, .array _ | .int _, .object _ | .real _, .null | .real _, .bool _
  | .real _, .int _ | .real _, .string _ | .real _, .array _ | .real _, .object _
  | .string _, .null | .string _, .bool _ | .string _, .int _ | .string _, .real _
  | .string _, .array _ | .string _, .object _ | .array _, .null | .array _, .bool _
  | .array _, .int _ | .array _, .real _ | .array _, .string _ | .array _, .object _
  | .object _, .null | .object _, .bool _ | .object _, .int _ | .object _, .real _
  | .object _, .string _ | .object _, .array _ => .isFalse (by simp)

/-- Decides whether two lists of values are the same. -/
def decEqList : (a b : List Json) → Decidable (a = b)
  | [], [] => .isTrue rfl
  | [], _ :: _ => .isFalse (by simp)
  | _ :: _, [] => .isFalse (by simp)
  | x :: xs, y :: ys =>
    match decEq x y, decEqList xs ys with
    | .isTrue h, .isTrue hs => .isTrue (h ▸ hs ▸ rfl)
    | .isFalse h, _ => .isFalse (by simp [h])
    | _, .isFalse hs => .isFalse (by simp [hs])

/-- Decides whether two lists of members are the same. -/
def decEqMembers : (a b : List (String × Json)) → Decidable (a = b)
  | [], [] => .isTrue rfl
  | [], _ :: _ => .isFalse (by simp)
  | _ :: _, [] => .isFalse (by simp)
  | (k, x) :: xs, (l, y) :: ys =>
    if hk : k = l then
      match decEq x y, decEqMembers xs ys with
      | .isTrue h, .isTrue hs => .isTrue (hk ▸ h ▸ hs ▸ rfl)
      | .isFalse h, _ => .isFalse (by simp [h])
      | _, .isFalse hs => .isFalse (by simp [hs])
    else .isFalse (by simp [hk])

end

instance : DecidableEq Json := decEq

/-- Whether a value is `null`. -/
def isNull : Json → Bool
  | .null => true
  | _ => false

/-- Whether a value is an object. -/
def isObject : Json → Bool
  | .object _ => true
  | _ => false

/-- Whether a value is an array or an object. -/
def isStructured : Json → Bool
  | .array _ => true
  | .object _ => true
  | _ => false

/-- The text that a value is, if it is one. -/
def text? : Json → Option String
  | .string s => some s
  | _ => none

/-- The first member with a given name. -/
def findMember? (name : String) : List (String × Json) → Option Json
  | [] => none
  | (key, value) :: rest => if key = name then some value else findMember? name rest

/-- A member of an object; nothing for a value that is no object. -/
def get? (name : String) : Json → Option Json
  | .object members => findMember? name members
  | _ => none

/-- A member that is present and not `null`. -/
def given? (name : String) (v : Json) : Option Json :=
  (v.get? name).filter fun member => !member.isNull

/-- A list of members with a value for a name: in the place of the former value, or at the end. -/
def setMember (name : String) (value : Json) : List (String × Json) → List (String × Json)
  | [] => [(name, value)]
  | (key, old) :: rest =>
    if key = name then (key, value) :: rest else (key, old) :: setMember name value rest

/-- A member put into members that stand in the order of their names, after those with the same
name. -/
def insertMember {α : Type} (pair : String × α) : List (String × α) → List (String × α)
  | [] => [pair]
  | other :: rest =>
    if pair.1 < other.1 then pair :: other :: rest else other :: insertMember pair rest

/-- Members in the order of their names. -/
def sortMembers {α : Type} (members : List (String × α)) : List (String × α) :=
  members.foldl (fun sorted pair => insertMember pair sorted) []

/-- The natural number of at most 64 bits that a value is, or that a text spells between blanks. -/
def toNat? : Json → Option Nat
  | .int i => if 0 ≤ i then some i.toNat else none
  | .string s => Number.natural? Number.maxUInt64 (Text.trimBlank s.toList)
  | _ => none

/-- A floating-point number as a value; one that is not finite has none but `null`. -/
def ofBinary64 (x : Binary64) : Json :=
  if x.isFinite then .real x else .null

/-- A count as a value. -/
def ofNat (n : Nat) : Json := .int n

/-- A list of texts as a value. -/
def ofTexts (texts : List String) : Json := .array (texts.map .string)

end Json

end EdgeHealth
