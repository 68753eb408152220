import EdgeHealth.Text.LowerCase
import EdgeHealth.Text.Pieces

/-!
# Text with escapes

A text between quotation marks in which everything that would not be seen as it is has an escape:
control characters, blanks other than the plain one, format characters, marks that combine with the
character before them, and the two characters that have a meaning there.

## Main definitions

* `Escaped.isHidden` : the characters that are escaped by their number.
* `Escaped.escape` : a character between quotation marks.
* `Escaped.quoted` : a text between quotation marks.
-/

namespace EdgeHealth.Text.Escaped

/-- The ranges of characters beyond ASCII that are escaped: controls, blanks, format characters,
combining marks and characters for private use. -/
def hiddenRanges : List (Nat × Nat) :=
  [(0x80, 0xA0), (0xAD, 0xAD), (0x300, 0x36F), (0x483, 0x489), (0x600, 0x605), (0x61C, 0x61C),
    (0x6DD, 0x6DD), (0x70F, 0x70F), (0x890, 0x891), (0x8E2, 0x8E2), (0x1680, 0x1680),
    (0x180E, 0x180E), (0x1AB0, 0x1ACE), (0x1DC0, 0x1DFF), (0x2000, 0x200F), (0x2028, 0x202F),
    (0x205F, 0x2064), (0x2066, 0x206F), (0x20D0, 0x20F0), (0x3000, 0x3000), (0xE000, 0xF8FF),
    (0xFE00, 0xFE0F), (0xFE20, 0xFE2F), (0xFEFF, 0xFEFF), (0xFFF9, 0xFFFB), (0x110BD, 0x110BD),
    (0x110CD, 0x110CD), (0x13430, 0x1343F), (0x1BCA0, 0x1BCA3), (0x1D173, 0x1D17A),
    (0xE0001, 0xE0001), (0xE0020, 0xE007F), (0xE0100, 0xE01EF), (0xF0000, 0xFFFFD),
    (0x100000, 0x10FFFD)]

/-- Whether a character is escaped by its number. -/
def isHidden (c : Char) : Bool := c.toNat < 0x20 || c.toNat = 0x7F || inRanges hiddenRanges c

/-- A character by its number in base sixteen. -/
def numbered (c : Char) : List Char :=
  ['\\', 'u', '\x7b'] ++ Nat.toDigits 16 c.toNat ++ ['\x7d']

/-- A character between quotation marks. -/
def escape (c : Char) : List Char :=
  if c = '\x22' ∨ c = '\\' then ['\\', c]
  else if c = '\n' then ['\\', 'n']
  else if c = '\r' then ['\\', 'r']
  else if c = '\t' then ['\\', 't']
  else if c = '\x00' then ['\\', '0']
  else if isHidden c then numbered c
  else [c]

/-- A text between quotation marks. -/
def quoted (s : String) : String :=
  String.ofList ('\x22' :: s.toList.flatMap escape ++ ['\x22'])

end EdgeHealth.Text.Escaped
