/-!
# Pieces of a text

Cutting a text at a character, at a pattern or at line ends. All functions work on the list of
characters and lose nothing but the separators.

## Main definitions

* `splitOn` : the pieces between the occurrences of one character.
* `cutAt?` : the parts before and after the first occurrence of a pattern.
* `lines` : the lines of a text, without their ends.
* `joinWith` : pieces put together with a separator between them.
-/

namespace EdgeHealth.Text

/-- The pieces between the occurrences of `sep`: one more than there are occurrences. -/
def splitOn (sep : Char) : List Char → List (List Char)
  | [] => [[]]
  | c :: rest =>
    if c = sep then [] :: splitOn sep rest
    else
      match splitOn sep rest with
      | [] => [[c]]
      | piece :: pieces => (c :: piece) :: pieces

/-- A split text has at least one piece. -/
theorem splitOn_ne_nil (sep : Char) (cs : List Char) : splitOn sep cs ≠ [] := by
  cases cs with
  | nil => simp [splitOn]
  | cons c rest =>
    simp only [splitOn]
    split
    · simp
    · split <;> simp

/-- The rest of a text after a pattern at its start. -/
def stripStart? : List Char → List Char → Option (List Char)
  | [], cs => some cs
  | _ :: _, [] => none
  | p :: ps, c :: cs => if p = c then stripStart? ps cs else none

/-- The rest of a text before a pattern at its end. -/
def stripEnd? (pattern cs : List Char) : Option (List Char) :=
  (stripStart? pattern.reverse cs.reverse).map List.reverse

/-- The parts before and after the first occurrence of a pattern. -/
def cutAt? (pattern : List Char) : List Char → Option (List Char × List Char)
  | [] => if pattern.isEmpty then some ([], []) else none
  | c :: rest =>
    match stripStart? pattern (c :: rest) with
    | some after => some ([], after)
    | none => (cutAt? pattern rest).map fun cut => (c :: cut.1, cut.2)

/-- A line without the carriage return before its line feed. -/
def dropReturn (line : List Char) : List Char :=
  (stripEnd? ['\r'] line).getD line

/-- The lines of a text. A line ends at a line feed, which may have one carriage return before it;
after the last line feed there is one more line only if it holds a character. -/
def lines (cs : List Char) : List (List Char) :=
  go (splitOn '\n' cs)
where
  /-- The lines of the pieces between line feeds. -/
  go : List (List Char) → List (List Char)
    | [] => []
    | [last] => if last.isEmpty then [] else [last]
    | line :: next :: rest => dropReturn line :: go (next :: rest)

/-- Pieces put together with `sep` between neighbours. -/
def joinWith (sep : String) : List String → String
  | [] => ""
  | [s] => s
  | s :: t :: rest => s ++ sep ++ joinWith sep (t :: rest)

/-- Pieces as a list in a sentence, with a comma and a blank between neighbours. -/
def enumerated (pieces : List String) : String := joinWith ", " pieces

/-- A text that repeats one character. -/
def repeated (c : Char) (n : Nat) : String :=
  String.ofList (List.replicate n c)

/-- The texts of the integers, in decimal, with a minus sign when negative. -/
def ofInt (i : Int) : String :=
  match i with
  | .ofNat n => Nat.repr n
  | .negSucc n => "-" ++ Nat.repr (n + 1)

end EdgeHealth.Text
