/-!
# Blank characters

The blank characters of a text and the operations that look at nothing else: trimming, and
splitting into words.

## Main definitions

* `isBlank` : the characters with the Unicode property `White_Space`.
* `trimBlank` : a text without the blanks at its two ends.
* `words` : the maximal runs of characters that are not blank.
-/

namespace EdgeHealth.Text

/-- A character is blank iff it has the Unicode property `White_Space`. -/
def isBlank (c : Char) : Bool :=
  let n := c.toNat
  (9 ≤ n && n ≤ 13) || n == 0x20 || n == 0x85 || n == 0xA0 || n == 0x1680 ||
    (0x2000 ≤ n && n ≤ 0x200A) || n == 0x2028 || n == 0x2029 || n == 0x202F ||
    n == 0x205F || n == 0x3000

/-- A list of characters without the blanks at its end. -/
def dropBlankEnd (cs : List Char) : List Char :=
  (cs.reverse.dropWhile isBlank).reverse

/-- A list of characters without the blanks at its two ends. -/
def trimBlank (cs : List Char) : List Char :=
  dropBlankEnd (cs.dropWhile isBlank)

/-- The maximal runs of characters that are not blank, in order; `run` holds the characters of the
run that is being read, last one first. -/
def wordsFrom (run : List Char) : List Char → List (List Char)
  | [] => if run.isEmpty then [] else [run.reverse]
  | c :: rest =>
    if isBlank c then
      if run.isEmpty then wordsFrom [] rest else run.reverse :: wordsFrom [] rest
    else wordsFrom (c :: run) rest

/-- The words of a text: its maximal runs of characters that are not blank. -/
def words (cs : List Char) : List (List Char) :=
  wordsFrom [] cs

end EdgeHealth.Text

namespace String

/-- The text without the blanks at its two ends. -/
def trimBlank (s : String) : String :=
  String.ofList (EdgeHealth.Text.trimBlank s.toList)

end String
