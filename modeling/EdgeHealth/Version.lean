import EdgeHealth.Number.Literal
import EdgeHealth.Text.Blank

/-!
# Versions

Dotted versions such as `1.27` or `5.15.0`, compared number by number. Numbers that are missing at
the end count as zero.

## Main definitions

* `Version` : the numbers of a version.
* `Version.read?` : the version at the start of a text.
* `Version.ofMajorMinor?` : the version of two numbers given apart.
* `Version.compare`, `Version.atLeast`, `Version.same` : the order of versions.
* `Version.text` : the written form.
-/

namespace EdgeHealth

open EdgeHealth.Number EdgeHealth.Text

/-- A version: its numbers, the most significant one first. -/
structure Version where
  /-- The numbers. -/
  parts : List Nat
  deriving DecidableEq, Repr, Inhabited

namespace Version

/-- The number of 64 bits at the start of a text, after blanks. -/
def leadingNumber? (cs : List Char) : Option Nat :=
  (digits? ((Text.trimBlank cs).takeWhile Char.isDigit)).filter (· ≤ maxUInt64)

/-- The leading numbers of the pieces between dots. The first piece without a number ends them, and
so does the first one in which more than a number stands. -/
def leadingNumbers : List (List Char) → List Nat
  | [] => []
  | piece :: rest =>
    match leadingNumber? piece with
    | none => []
    | some n => if piece.all Char.isDigit then n :: leadingNumbers rest else [n]

/-- The version at the start of a text, after blanks and any letters `v`. -/
def read? (text : String) : Option Version :=
  let body := (Text.trimBlank text.toList).dropWhile (· == 'v')
  match leadingNumbers (splitOn '.' body) with
  | [] => none
  | parts => some ⟨parts⟩

/-- The complaint about a text that starts with no version. -/
def unreadableMessage (text : String) : String := s!"'{text}' is not a version"

/-- The version of a major and a minor number, each at the start of its text. -/
def ofMajorMinor? (major minor : String) : Option Version :=
  (leadingNumber? major.toList).bind fun a =>
    (leadingNumber? minor.toList).map fun b => ⟨[a, b]⟩

/-- The first number. -/
def major (v : Version) : Nat := v.parts.headD 0

/-- The second number. -/
def minor (v : Version) : Nat := v.parts.tail.headD 0

/-- The order of two lists of numbers, in which missing numbers count as zero. -/
def compareParts : List Nat → List Nat → Ordering
  | [], [] => .eq
  | a :: as, [] => (Ord.compare a 0).then (compareParts as [])
  | [], b :: bs => (Ord.compare 0 b).then (compareParts [] bs)
  | a :: as, b :: bs => (Ord.compare a b).then (compareParts as bs)

/-- The order of two versions. -/
def compare (v w : Version) : Ordering := compareParts v.parts w.parts

/-- Whether a version is not older than another one. -/
def atLeast (v w : Version) : Bool := v.compare w != .lt

/-- Whether neither of two versions is older than the other. They need not have as many numbers. -/
def same (v w : Version) : Bool := v.compare w == .eq

/-- The written form: the numbers with dots between them. -/
def text (v : Version) : String := joinWith "." (v.parts.map Nat.repr)

end Version

end EdgeHealth
