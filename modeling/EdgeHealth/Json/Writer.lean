import EdgeHealth.Json.Basic
import EdgeHealth.Number.Shortest

/-!
# Writing JSON

The text of a value on one line, and the text spread over lines with two blanks for each level.

## Main definitions

* `Json.quoted` : a text between quotation marks, with escapes.
* `Json.compact` : a value on one line.
* `Json.pretty` : a value over several lines.
* `Json.scalarText` : a value as it is shown to a reader.
-/

namespace EdgeHealth

namespace Json

open EdgeHealth.Text

/-- Numbers with a fraction are positional from `10 ^ -5` to below `10 ^ 16`, and a positive
exponent has its sign. -/
def numberText : Number.FloatLayout := ⟨-5, 15, true, "null", "null"⟩

/-- A digit of base sixteen, in lower case. -/
def hexDigit (n : Nat) : Char := (Nat.toDigits 16 n).headD '0'

/-- A character inside quotation marks: the two that have a meaning there and the control
characters are escaped. -/
def escapeChar (c : Char) : List Char :=
  if c = '\x22' then ['\\', '\x22']
  else if c = '\\' then ['\\', '\\']
  else if c = '\n' then ['\\', 'n']
  else if c = '\r' then ['\\', 'r']
  else if c = '\t' then ['\\', 't']
  else if c = '\x08' then ['\\', 'b']
  else if c = '\x0c' then ['\\', 'f']
  else if c.toNat < 0x20 then
    ['\\', 'u', '0', '0', hexDigit (c.toNat / 16), hexDigit (c.toNat % 16)]
  else [c]

/-- A text between quotation marks. -/
def quoted (s : String) : String :=
  String.ofList ('\x22' :: s.toList.flatMap escapeChar ++ ['\x22'])

mutual

/-- A value on one line, without blanks. -/
def compact : Json → String
  | .null => "null"
  | .bool b => if b then "true" else "false"
  | .int i => ofInt i
  | .real x => numberText.write x
  | .string s => quoted s
  | .array items => "[" ++ joinWith "," (compactList items) ++ "]"
  | .object members => "\x7b" ++ joinWith "," (compactMembers members) ++ "\x7d"

/-- The items of an array, each on one line. -/
def compactList : List Json → List String
  | [] => []
  | v :: rest => compact v :: compactList rest

/-- The members of an object, each on one line. -/
def compactMembers : List (String × Json) → List String
  | [] => []
  | (key, v) :: rest => (quoted key ++ ":" ++ compact v) :: compactMembers rest

end

/-- A line break and the blanks of a level. -/
def lineAt (level : Nat) : String := "\n" ++ repeated ' ' (2 * level)

mutual

/-- A value over several lines; `level` is the level of the line on which it starts. Empty arrays
and objects stay on that line. -/
def prettyAt (level : Nat) : Json → String
  | .array [] => "[]"
  | .object [] => "\x7b\x7d"
  | .array (v :: rest) =>
    "[" ++ lineAt (level + 1) ++
      joinWith ("," ++ lineAt (level + 1))
        (prettyAt (level + 1) v :: prettyList (level + 1) rest) ++
      lineAt level ++ "]"
  | .object ((key, v) :: rest) =>
    "\x7b" ++ lineAt (level + 1) ++
      joinWith ("," ++ lineAt (level + 1))
        ((quoted key ++ ": " ++ prettyAt (level + 1) v) :: prettyMembers (level + 1) rest) ++
      lineAt level ++ "\x7d"
  | .null => compact .null
  | .bool b => compact (.bool b)
  | .int i => compact (.int i)
  | .real x => compact (.real x)
  | .string s => compact (.string s)

/-- The items of an array at one level. -/
def prettyList (level : Nat) : List Json → List String
  | [] => []
  | v :: rest => prettyAt level v :: prettyList level rest

/-- The members of an object at one level. -/
def prettyMembers (level : Nat) : List (String × Json) → List String
  | [] => []
  | (key, v) :: rest => (quoted key ++ ": " ++ prettyAt level v) :: prettyMembers level rest

end

/-- A value over several lines. -/
def pretty (v : Json) : String := prettyAt 0 v

/-- A value as a reader sees it on one line: a text as it is, nothing for `null`. -/
def scalarText : Json → String
  | .string s => s
  | .null => ""
  | v => v.compact

end Json

end EdgeHealth
