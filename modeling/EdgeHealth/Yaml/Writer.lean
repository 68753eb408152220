import EdgeHealth.Json.Writer
import EdgeHealth.Yaml.Character
import EdgeHealth.Yaml.Plain

/-!
# Writing YAML

Values written as a YAML document in block style. A level is two blanks deeper than the one around
it, lists inside of mappings are not indented, and long lines are not broken. A text is written in
the plainest style in which it reads back: as it is, in single quotation marks, as a block of lines,
or in double quotation marks with escapes.

## Main definitions

* `Yaml.Features` : what is found in a text that bears on its style.
* `Yaml.Style`, `Yaml.styleOf` : the style of a text.
* `Yaml.scalar` : a text written in its style.
* `Yaml.document` : a value as a document.
-/

namespace EdgeHealth.Yaml

open EdgeHealth.Text

/-! ### Style -/

/-- Whether some neighbouring characters of a text satisfy a condition. -/
def neighbours (p : Char → Char → Bool) : List Char → Bool
  | c :: d :: rest => p c d || neighbours p (d :: rest)
  | _ => false

/-- Whether a mark of its own stands at the start of a text. -/
def startsWithMark : List Char → Bool
  | [] => false
  | c :: rest =>
    startMarks.contains c ||
      (['?', ':', '-'].contains c && atBlank rest) ||
      (stripStart? ['-', '-', '-'] (c :: rest)).isSome ||
      (stripStart? ['.', '.', '.'] (c :: rest)).isSome

/-- Whether a mark stands inside or at the end of a text: a colon before a blank, or a hash after
one. -/
def holdsMark (cs : List Char) : Bool :=
  neighbours (fun c d => c == ':' && endsMark d) cs ||
    (1 < cs.length && cs.getLast? == some ':') ||
    neighbours (fun c d => endsMark c && d == '#') cs

/-- What is found in a nonempty text that bears on its style. -/
structure Features where
  /-- A mark that would be taken for structure. -/
  marked : Bool
  /-- A character that has to be escaped. -/
  special : Bool
  /-- A line break. -/
  broken : Bool
  /-- A blank or a line break at the start or at the end. -/
  edged : Bool
  /-- A blank at the end. -/
  blankEnd : Bool
  /-- A blank after a line break. -/
  blankAfterBreak : Bool
  /-- A line break after a blank. -/
  breakAfterBlank : Bool
  deriving DecidableEq, Repr

/-- The features of a text. -/
def features (cs : List Char) : Features where
  marked := startsWithMark cs || holdsMark cs
  special := cs.any fun c => !isPrintable c
  broken := cs.any isBreak
  edged := cs.head?.any (fun c => c == ' ' || isBreak c) ||
    cs.getLast?.any (fun c => c == ' ' || isBreak c)
  blankEnd := cs.getLast? == some ' '
  blankAfterBreak := neighbours (fun c d => isBreak c && d == ' ') cs
  breakAfterBlank := neighbours (fun c d => c == ' ' && isBreak d) cs

/-- The ways to write a text. -/
inductive Style where
  /-- As it is. -/
  | plain
  /-- In single quotation marks, which are doubled inside. -/
  | single
  /-- In double quotation marks, with escapes. -/
  | double
  /-- As a block of lines. -/
  | literal
  deriving DecidableEq, Repr

/-- Whether a text can stand as it is. -/
def Features.plainAllowed (f : Features) : Bool :=
  !(f.marked || f.special || f.broken || f.edged)

/-- Whether a text can stand in single quotation marks. -/
def Features.singleAllowed (f : Features) : Bool :=
  !(f.special || f.blankAfterBreak || f.breakAfterBlank)

/-- Whether a text can stand as a block of lines. -/
def Features.literalAllowed (f : Features) : Bool :=
  !(f.special || f.blankEnd || f.breakAfterBlank)

/-- The style of a text. A text with a line feed is a block where it can be one; a text that would
read as a value of another type gets quotation marks. -/
def styleOf (s : String) : Style :=
  let cs := s.toList
  let f := features cs
  if cs.isEmpty then .single
  else if cs.contains '\n' then if f.literalAllowed then .literal else .double
  else if isText s && f.plainAllowed then .plain
  else if f.singleAllowed then .single
  else .double

/-! ### Scalars -/

/-- The blanks of an indentation. -/
def blanks (n : Nat) : List Char := List.replicate n ' '

/-- Characters with the lines after the first one indented; `broken` says whether a line has just
been broken, and `write` how a character is written. Lines without characters stay empty. -/
def indented (indent : Nat) (write : Char → List Char) (broken : Bool) : List Char → List Char
  | [] => []
  | c :: rest =>
    if isBreak c then c :: indented indent write true rest
    else (if broken then blanks indent else []) ++ write c ++ indented indent write false rest

/-- A single quotation mark is doubled. -/
def doubleQuote (c : Char) : List Char := if c = '\x27' then [c, c] else [c]

/-- A text in single quotation marks. -/
def singleQuoted (indent : Nat) (cs : List Char) : List Char :=
  let closing := if cs.getLast?.any isBreak then blanks indent else []
  '\x27' :: indented indent doubleQuote false cs ++ closing ++ ['\x27']

/-- The digits of a number in base sixteen, in capitals and with at least `width` digits. -/
def hexDigits (width n : Nat) : List Char :=
  let digits := (Nat.toDigits 16 n).map Char.toUpper
  List.replicate (width - digits.length) '0' ++ digits

/-- The escapes that have a letter of their own. -/
def letterEscapes : List (Nat × Char) :=
  [(0x00, '0'), (0x07, 'a'), (0x08, 'b'), (0x09, 't'), (0x0A, 'n'), (0x0B, 'v'), (0x0C, 'f'),
    (0x0D, 'r'), (0x1B, 'e'), (0x22, '\x22'), (0x5C, '\\'), (0x85, 'N'), (0xA0, '_'),
    (0x2028, 'L'), (0x2029, 'P')]

/-- A character in double quotation marks. -/
def escaped (c : Char) : List Char :=
  let n := c.toNat
  if isPrintable c && !isBreak c && c != '\x22' && c != '\\' then [c]
  else
    match letterEscapes.lookup n with
    | some letter => ['\\', letter]
    | none =>
      if n ≤ 0xFF then '\\' :: 'x' :: hexDigits 2 n
      else if n ≤ 0xFFFF then '\\' :: 'u' :: hexDigits 4 n
      else '\\' :: 'U' :: hexDigits 8 n

/-- A text in double quotation marks. -/
def doubleQuoted (cs : List Char) : List Char :=
  '\x22' :: cs.flatMap escaped ++ ['\x22']

/-- The sign that says which line breaks at the end of a block belong to the text: none, the last
one, or all. -/
def chomping (cs : List Char) : List Char :=
  match cs.reverse with
  | [] => ['-']
  | [last] => if isBreak last then ['+'] else ['-']
  | last :: before :: _ => if isBreak last then if isBreak before then ['+'] else [] else ['-']

/-- A text as a block of lines. Its head says how deep it is indented when the text itself starts
with a blank or a line break. -/
def literal (indent : Nat) (cs : List Char) : List Char :=
  let depth := if cs.head?.any (fun c => c == ' ' || isBreak c) then ['2'] else []
  '|' :: depth ++ chomping cs ++ '\n' :: indented indent (fun c => [c]) true cs

/-- A text in its style, with its further lines indented. -/
def scalar (indent : Nat) (s : String) : String :=
  let cs := s.toList
  match styleOf s with
  | .plain => s
  | .single => String.ofList (singleQuoted indent cs)
  | .double => String.ofList (doubleQuoted cs)
  | .literal => String.ofList (literal indent cs)

/-! ### Documents -/

/-- Numbers with a fraction are positional from `10 ^ -5` to below `10 ^ 16`. -/
def numberText : Number.FloatLayout := ⟨-5, 15, false, ".nan", ".inf"⟩

/-- The most bytes of a key that stands on the line of its value. -/
def keyLimit : Nat := 128

/-- Whether a key can stand on the line of its value. -/
def isShortKey (key : String) : Bool :=
  !key.toList.any isBreak && key.utf8ByteSize ≤ keyLimit

/-- The start of a new line at an indentation. A text that ends with a line break is at the start
of a line already. -/
def newLine (before : String) (indent : Nat) : String :=
  let start := String.ofList (blanks indent)
  if before.toList.getLast?.any isBreak then start else "\n" ++ start

/-- Pieces on lines of their own, all with one indentation. -/
def stack (indent : Nat) : List String → String
  | [] => ""
  | [piece] => piece
  | piece :: next :: rest => piece ++ newLine piece indent ++ stack indent (next :: rest)

/-- Whether a value is a list or a mapping that is not empty. -/
def isBlock : Json → Bool
  | .array (_ :: _) => true
  | .object (_ :: _) => true
  | _ => false

/-- Whether a value is a list that is not empty. -/
def isList : Json → Bool
  | .array (_ :: _) => true
  | _ => false

/-- The text between a key and its value: the value of a block starts a line, at the indentation of
the key if it is a list. -/
def afterKey (indent : Nat) (v : Json) : String :=
  if isList v then "\n" ++ String.ofList (blanks indent)
  else if isBlock v then "\n" ++ String.ofList (blanks (indent + 2))
  else " "

/-- The indentation of a value after its key. -/
def valueIndent (indent : Nat) (v : Json) : Nat := if isList v then indent else indent + 2

mutual

/-- A value whose lines after the first one have an indentation. -/
def node (indent : Nat) : Json → String
  | .null => "null"
  | .bool b => if b then "true" else "false"
  | .int i => ofInt i
  | .real x => numberText.write x
  | .string s => scalar indent s
  | .array [] => "[]"
  | .object [] => "\x7b\x7d"
  | .array (v :: rest) => stack indent (("- " ++ node (indent + 2) v) :: items indent rest)
  | .object ((key, v) :: rest) => stack indent (member indent key v :: members indent rest)

/-- The items of a list. -/
def items (indent : Nat) : List Json → List String
  | [] => []
  | v :: rest => ("- " ++ node (indent + 2) v) :: items indent rest

/-- A key and its value. A key that is too long or has several lines is marked and stands on lines
of its own. -/
def member (indent : Nat) (key : String) (v : Json) : String :=
  if isShortKey key then
    scalar (indent + 2) key ++ ":" ++ afterKey indent v ++ node (valueIndent indent v) v
  else
    let head := "? " ++ scalar (indent + 2) key
    head ++ newLine head indent ++ ": " ++ node (indent + 2) v

/-- The members of a mapping. -/
def members (indent : Nat) : List (String × Json) → List String
  | [] => []
  | (key, v) :: rest => member indent key v :: members indent rest

end

/-- A value as a document. -/
def document (v : Json) : String :=
  let text := node (if isBlock v then 0 else 2) v
  text ++ newLine text 0

end EdgeHealth.Yaml
