import EdgeHealth.Yaml.Character

/-!
# Places in a text

Where in a text a reader stands: what follows, and how many characters and lines stand before. A
line break counts as one line, whether it is one character or two.

## Main definitions

* `Yaml.Mark`, `Yaml.Place` : a place, without and with what follows.
* `Yaml.Gap` : blanks and line breaks between two parts of a scalar, and what they stand for.
* `Yaml.gapFrom` : the gap at a place.
-/

namespace EdgeHealth.Yaml

/-- What stands before a place. -/
structure Mark where
  /-- The count of characters. -/
  index : Nat
  /-- The count of lines. -/
  line : Nat
  /-- The count of characters on the line of the place. -/
  column : Nat
  deriving DecidableEq, Repr

namespace Mark

/-- The mark some characters of the same line later. -/
def after (m : Mark) (count : Nat) : Mark := ⟨m.index + count, m.line, m.column + count⟩

/-- The mark after a line break of some characters. -/
def newLine (m : Mark) (count : Nat) : Mark := ⟨m.index + count, m.line + 1, 0⟩

end Mark

/-- A place in a text. -/
structure Place where
  /-- What stands before. -/
  mark : Mark
  /-- What follows. -/
  rest : List Char

/-- What a line break stands for: a line feed, unless it is one of the separators for lines and
paragraphs. -/
def unified (c : Char) : Char :=
  if c.toNat = 0x2028 || c.toNat = 0x2029 then c else '\n'

namespace Place

/-- The place some characters of the same line later. -/
def skip (p : Place) (count : Nat) : Place := ⟨p.mark.after count, p.rest.drop count⟩

/-- The place before a rest of the text that stands on the same line. -/
def moveTo (p : Place) (rest : List Char) : Place :=
  ⟨p.mark.after (p.rest.length - rest.length), rest⟩

/-- The line break at a place, if there is one, and the place after it. -/
def takeBreak (p : Place) : List Char × Place :=
  match p.rest with
  | '\r' :: '\n' :: rest => (['\n'], ⟨p.mark.newLine 2, rest⟩)
  | c :: rest => if isBreak c then ([unified c], ⟨p.mark.newLine 1, rest⟩) else ([], p)
  | [] => ([], p)

/-- The place after the blanks of a line. -/
def skipBlanks (p : Place) : Place := p.moveTo (p.rest.dropWhile isLineBlank)

/-- The place at the end of the line. -/
def skipLine (p : Place) : Place := p.moveTo (p.rest.dropWhile fun c => !isBreak c)

/-- The place after the blanks and the comment at the end of a line and after the line itself;
nothing where anything else stands. -/
def lineEnd? (p : Place) : Option Place :=
  let q := p.skipBlanks
  let q := if q.rest.head? = some '#' then q.skipLine else q
  if q.rest.head?.all isBreak then some q.takeBreak.2 else none

/-- Whether a line starts here with three characters that mark the start or the end of a
document. -/
def atSeparator (mark : List Char) (p : Place) : Bool :=
  p.mark.column == 0 && p.rest.take 3 == mark && atBlank (p.rest.drop 3)

/-- Whether a document starts or ends here. -/
def atDocumentMark (p : Place) : Bool :=
  p.atSeparator ['-', '-', '-'] || p.atSeparator ['.', '.', '.']

end Place

/-! ### Gaps -/

/-- Blanks and line breaks between two parts of a scalar. -/
structure Gap where
  /-- Whether a line is broken. -/
  broken : Bool
  /-- The blanks, if no line is broken. -/
  blanks : List Char
  /-- The first line break; there is none where it is escaped. -/
  first : List Char
  /-- The further line breaks. -/
  others : List Char

namespace Gap

/-- Nothing between two parts. -/
def empty : Gap := ⟨false, [], [], []⟩

/-- A line break that is escaped. -/
def escaped : Gap := ⟨true, [], [], []⟩

/-- A gap with one more blank. Blanks at the start of a line do not count. -/
def addBlank (g : Gap) (c : Char) : Gap :=
  if g.broken then g else { g with blanks := g.blanks ++ [c] }

/-- A gap with one more line break. Blanks at the end of a line do not count. -/
def addBreak (g : Gap) (c : Char) : Gap :=
  if g.broken then { g with others := g.others ++ [c] } else ⟨true, [], [c], []⟩

/-- What a gap stands for. One line feed stands for a blank, and the first of several for
nothing. -/
def text (g : Gap) : List Char :=
  if !g.broken then g.blanks
  else if g.first = ['\n'] then if g.others.isEmpty then [' '] else g.others
  else g.first ++ g.others

end Gap

/-- The gap at a place, as the continuation of a gap, and what follows it. On a new line no tab may
stand before the column `indent`. -/
def gapFrom (indent : Nat) (g : Gap) (m : Mark) : List Char → Option (Gap × Place)
  | [] => some (g, ⟨m, []⟩)
  | '\r' :: '\n' :: rest => gapFrom indent (g.addBreak '\n') (m.newLine 2) rest
  | c :: rest =>
    if isBreak c then gapFrom indent (g.addBreak (unified c)) (m.newLine 1) rest
    else if isLineBlank c then
      if g.broken && m.column < indent && c = '\t' then none
      else gapFrom indent (g.addBlank c) (m.after 1) rest
    else some (g, ⟨m, c :: rest⟩)

end EdgeHealth.Yaml
