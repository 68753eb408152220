/-!
# Characters of YAML texts

The classes of characters that bear on how a YAML text is read and written, and the characters that
have a meaning of their own.

## Main definitions

* `Yaml.isAllowed` : the characters that may stand in a text.
* `Yaml.isPrintable` : those that may be written without an escape.
* `Yaml.isBreak`, `Yaml.endsMark` : line breaks, and all characters after which a mark ends.
* `Yaml.startMarks`, `Yaml.isFlowMark` : characters with a meaning.
* `Yaml.isNameLetter`, `Yaml.isTagLetter` : the characters of anchors and of tags.
-/

namespace EdgeHealth.Yaml

/-- The characters that break a line. -/
def isBreak (c : Char) : Bool :=
  c == '\n' || c == '\r' || c.toNat == 0x85 || c.toNat == 0x2028 || c.toNat == 0x2029

/-- Blanks inside a line. -/
def isLineBlank (c : Char) : Bool := c == ' ' || c == '\t'

/-- The characters that may stand unescaped. -/
def isPrintable (c : Char) : Bool :=
  let n := c.toNat
  n == 0x0A || (0x20 ≤ n && n ≤ 0x7E) ||
    (0xA0 ≤ n && n != 0xFEFF && n != 0xFFFE && n != 0xFFFF)

/-- The characters that may stand in a text at all: those that may be written, tabs, line breaks,
and the mark for the order of bytes. -/
def isAllowed (c : Char) : Bool :=
  isPrintable c || c == '\t' || c == '\r' || c.toNat == 0x85 || c.toNat == 0xFEFF

/-- The mark for the order of bytes. -/
def isOrderMark (c : Char) : Bool := c.toNat == 0xFEFF

/-- The characters after which a mark ends: blanks, line breaks and the zero character. -/
def endsMark (c : Char) : Bool := isLineBlank c || isBreak c || c.toNat == 0

/-- Whether a text is at a place where a mark ends: at a blank, a line break or the end. -/
def atBlank (cs : List Char) : Bool := (cs.head?.map endsMark).getD true

/-- The characters that have a meaning at the start of a scalar. -/
def startMarks : List Char :=
  ['#', ',', '[', ']', '\x7b', '\x7d', '&', '*', '!', '|', '>', '\x27', '\x22', '%', '@', '\x60']

/-- The marks that end a plain scalar inside of brackets. -/
def isFlowMark (c : Char) : Bool :=
  c == ',' || c == '[' || c == ']' || c == '\x7b' || c == '\x7d'

/-- The characters of the names of anchors, handles and directives. -/
def isNameLetter (c : Char) : Bool :=
  c.isDigit || ('a' ≤ c && c ≤ 'z') || ('A' ≤ c && c ≤ 'Z') || c == '_' || c == '-'

/-- The characters of a tag. One in angle brackets may have commas and square brackets too. -/
def isTagLetter (bracketed : Bool) (c : Char) : Bool :=
  isNameLetter c ||
    [';', '/', '?', ':', '@', '&', '=', '+', '$'].contains c ||
    ['.', '%', '!', '~', '*', '\x27', '(', ')'].contains c ||
    (bracketed && [',', '[', ']'].contains c)

end EdgeHealth.Yaml
