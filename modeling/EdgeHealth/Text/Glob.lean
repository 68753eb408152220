/-!
# Glob patterns

A pattern over names: `*` stands for any run of characters, `?` for exactly one character, and
every other character for itself.

## Main definitions

* `Glob.Matches` : which names a pattern stands for, as an inductive relation with one rule for
  each kind of pattern character.
* `Glob.accepts` : the decision, by one row of answers for each tail of the pattern.
-/

namespace EdgeHealth.Text.Glob

/-- The names that a pattern stands for, rule by rule. -/
inductive Matches : List Char → List Char → Prop
  /-- The empty pattern stands for the empty name. -/
  | nil : Matches [] []
  /-- A star may stand for nothing. -/
  | starNil {pattern name : List Char} : Matches pattern name → Matches ('*' :: pattern) name
  /-- A star may take one more character. -/
  | starCons {pattern name : List Char} (c : Char) :
      Matches ('*' :: pattern) name → Matches ('*' :: pattern) (c :: name)
  /-- A question mark stands for one character. -/
  | one {pattern name : List Char} (c : Char) :
      Matches pattern name → Matches ('?' :: pattern) (c :: name)
  /-- Any other character stands for itself. -/
  | same {pattern name : List Char} (c : Char) (hstar : c ≠ '*') (hone : c ≠ '?') :
      Matches pattern name → Matches (c :: pattern) (c :: name)

/-- Whether the empty pattern stands for each tail of a name, the longest tail first. -/
def emptyRow (name : List Char) : List Bool :=
  List.replicate name.length false ++ [true]

/-- Whether a star before a pattern stands for each tail: whether the pattern stands for that tail
or for a shorter one. -/
def starRow : List Bool → List Bool
  | [] => []
  | b :: rest =>
    let tail := starRow rest
    (b || tail.headD false) :: tail

/-- Whether one pattern character before a pattern stands for each tail of a name; the second list
says it of the pattern alone. -/
def oneRow (p : Char) : List Char → List Bool → List Bool
  | c :: name, _ :: next => ((p == '?' || p == c) && next.headD false) :: oneRow p name next
  | _, _ => [false]

/-- Whether a pattern stands for each tail of a name, the longest tail first. The work is the
product of the two lengths, however many stars there are. -/
def row : List Char → List Char → List Bool
  | [], name => emptyRow name
  | p :: pattern, name =>
    if p = '*' then starRow (row pattern name) else oneRow p name (row pattern name)

/-- Whether a pattern stands for a name. -/
def accepts (pattern name : List Char) : Bool :=
  (row pattern name).headD false

end EdgeHealth.Text.Glob
