import EdgeHealth.Text.Pieces
import EdgeHealth.Yaml.Place
import EdgeHealth.Yaml.Plain

/-!
# Scalars of YAML texts

How the scalars of a text are read: plain ones, those in quotation marks, and blocks of lines. What
a scalar stands for is decided elsewhere; here it is a text.

The functions that walk over a text count down a number of steps that no text can use up.

## Main definitions

* `Yaml.plainFrom` : a plain scalar.
* `Yaml.quotedFrom` : a scalar in quotation marks.
* `Yaml.blockScalar` : a block of lines, folded or not.
-/

namespace EdgeHealth.Yaml

/-! ### Plain scalars -/

/-- The characters after which a colon inside of brackets must not stand in a plain scalar. -/
def forbidsColon (c : Char) : Bool := isFlowMark c || c == '?'

/-- The characters of a plain scalar up to a blank or a mark that ends it, and what follows. Inside
of brackets a colon right before one of their marks is a fault. -/
def plainRun (flow : Bool) : List Char → Option (List Char × List Char)
  | [] => some ([], [])
  | c :: rest =>
    if endsMark c then some ([], c :: rest)
    else if flow && c = ':' && rest.head?.any forbidsColon then none
    else if (c = ':' && atBlank rest) || (flow && isFlowMark c) then some ([], c :: rest)
    else (plainRun flow rest).map fun run => (c :: run.1, run.2)

/-- A plain scalar, or the rest of one after a gap: its characters, whether a broken line stands
between it and the place after it, and that place. Outside of brackets a further line belongs to the
scalar only from the column `indent` on. -/
def plainFrom (flow : Bool) (indent : Nat) :
    (fuel : Nat) → Gap → Place → Option (List Char × Bool × Place)
  | 0, _, _ => none
  | fuel + 1, g, p =>
    if p.atDocumentMark || p.rest.head? = some '#' then some ([], g.broken, p)
    else do
      let (run, after) ← plainRun flow p.rest
      let here := p.moveTo after
      let own := if run.isEmpty then [] else g.text ++ run
      let pending := if run.isEmpty then g else Gap.empty
      if !(after.head?.any fun c => isLineBlank c || isBreak c) then
        return (own, pending.broken, here)
      else
        let (gap, next) ← gapFrom indent pending here.mark here.rest
        if !flow && next.mark.column < indent then return (own, gap.broken, next)
        else
          let (more, broken, last) ← plainFrom flow indent fuel gap next
          return (own ++ more, broken, last)

/-! ### Quoted scalars -/

/-- The characters of a text in single quotation marks up to a blank or a quotation mark, and what
follows. A doubled quotation mark stands for one. -/
def singleRun : List Char → List Char × List Char
  | [] => ([], [])
  | '\x27' :: '\x27' :: rest => let run := singleRun rest; ('\x27' :: run.1, run.2)
  | c :: rest =>
    if endsMark c || c = '\x27' then ([], c :: rest)
    else let run := singleRun rest; (c :: run.1, run.2)

/-- The characters that escapes of one letter stand for. -/
def escapeLetters : List (Char × Nat) :=
  [('0', 0x00), ('a', 0x07), ('b', 0x08), ('t', 0x09), ('\t', 0x09), ('n', 0x0A), ('v', 0x0B),
    ('f', 0x0C), ('r', 0x0D), ('e', 0x1B), (' ', 0x20), ('\x22', 0x22), ('/', 0x2F), ('\\', 0x5C),
    ('N', 0x85), ('_', 0xA0), ('L', 0x2028), ('P', 0x2029)]

/-- The count of digits after the letter of an escape. -/
def escapeWidth : Char → Nat
  | 'x' => 2
  | 'u' => 4
  | 'U' => 8
  | _ => 0

/-- The character that a number stands for. -/
def charOf? (n : Nat) : Option Char := if n.isValidChar then some (Char.ofNat n) else none

/-- The character of an escape, and what follows. -/
def escape? : List Char → Option (Char × List Char)
  | [] => none
  | c :: rest =>
    match escapeLetters.lookup c with
    | some n => some (Char.ofNat n, rest)
    | none =>
      let width := escapeWidth c
      if width = 0 || rest.length < width then none
      else ((number? 16 (rest.take width)).bind charOf?).map fun d => (d, rest.drop width)

/-- The characters of a text in double quotation marks up to a blank, a quotation mark or an escaped
line break, and what follows. -/
def doubleRun : (fuel : Nat) → List Char → Option (List Char × List Char)
  | 0, _ => none
  | _ + 1, [] => some ([], [])
  | fuel + 1, c :: rest =>
    if endsMark c || c = '\x22' || (c = '\\' && rest.head?.any isBreak) then some ([], c :: rest)
    else if c = '\\' then do
      let (d, rest) ← escape? rest
      let (run, rest) ← doubleRun fuel rest
      return (d :: run, rest)
    else (doubleRun fuel rest).map fun run => (c :: run.1, run.2)

/-- A text in quotation marks after the first one, and the place after the last one. -/
def quotedFrom (double : Bool) : (fuel : Nat) → Place → Option (List Char × Place)
  | 0, _ => none
  | fuel + 1, p =>
    if p.atDocumentMark || p.rest.isEmpty then none
    else do
      let (run, after) ←
        if double then doubleRun (p.rest.length + 1) p.rest else some (singleRun p.rest)
      let here := p.moveTo after
      if after.head? = some (if double then '\x22' else '\x27') then return (run, here.skip 1)
      else
        let (start, here) :=
          if after.head? = some '\\' then (Gap.escaped, (here.skip 1).takeBreak.2)
          else (Gap.empty, here)
        let (gap, next) ← gapFrom 0 start here.mark here.rest
        let (more, last) ← quotedFrom double fuel next
        return (run ++ gap.text ++ more, last)

/-! ### Blocks of lines -/

/-- The signs after the mark of a block: how much deeper it is indented than the structure around
it, if that is said, the sign for the line breaks at its end, and what follows. -/
def blockHead : List Char → Option (Option Nat × Option Char × List Char)
  | [] => some (none, none, [])
  | c :: rest =>
    if c = '+' || c = '-' then
      match rest with
      | d :: rest =>
        if d = '0' then none
        else if d.isDigit then some (some (Number.digitValue d), some c, rest)
        else some (none, some c, d :: rest)
      | [] => some (none, some c, [])
    else if c = '0' then none
    else if c.isDigit then
      match rest with
      | d :: rest =>
        if d = '+' || d = '-' then some (some (Number.digitValue c), some d, rest)
        else some (some (Number.digitValue c), none, d :: rest)
      | [] => some (some (Number.digitValue c), none, [])
    else some (none, none, c :: rest)

/-- The line breaks of empty lines at a place, the greatest count of blanks at the start of a line,
and the place after the blanks of the first line that is not empty. With an indentation no more
blanks than that are passed over; before it no tab may stand. -/
def emptyLines (indent : Option Nat) (breaks : List Char) (deepest : Nat) (m : Mark) :
    List Char → Option (List Char × Nat × Place)
  | [] => some (breaks, max deepest m.column, ⟨m, []⟩)
  | '\r' :: '\n' :: rest =>
    emptyLines indent (breaks ++ ['\n']) (max deepest m.column) (m.newLine 2) rest
  | c :: rest =>
    if indent.all (m.column < ·) && c = ' ' then
      emptyLines indent breaks deepest (m.after 1) rest
    else if indent.all (m.column < ·) && c = '\t' then none
    else if isBreak c then
      emptyLines indent (breaks ++ [unified c]) (max deepest m.column) (m.newLine 1) rest
    else some (breaks, max deepest m.column, ⟨m, c :: rest⟩)

/-- What has been read of a block of lines. -/
structure Block where
  /-- The characters. -/
  text : List Char
  /-- The line break after the last line that is not empty. -/
  first : List Char
  /-- The line breaks of the empty lines after it. -/
  others : List Char
  /-- Whether that line starts with a blank. -/
  blank : Bool

/-- A block with one more line, without its line break. In a folded block a line feed between two
lines that start with no blank stands for a blank, or for nothing before empty lines. -/
def Block.addLine (folded : Bool) (b : Block) (line : List Char) : Block :=
  let blank := line.head?.any isLineBlank
  let joint :=
    if folded && b.first = ['\n'] && !b.blank && !blank then
      if b.others.isEmpty then [' '] else []
    else b.first
  ⟨b.text ++ joint ++ b.others ++ line, [], [], blank⟩

/-- The lines of a block at an indentation, and the place after it. -/
def blockLines (folded : Bool) (indent : Nat) :
    (fuel : Nat) → Block → Place → Option (Block × Place)
  | 0, _, _ => none
  | fuel + 1, b, p =>
    if p.mark.column = indent && !p.rest.isEmpty then do
      let line := p.rest.takeWhile fun c => !isBreak c
      let (first, next) := p.skipLine.takeBreak
      let (others, _, next) ← emptyLines (some indent) [] 0 next.mark next.rest
      blockLines folded indent fuel { b.addLine folded line with first := first, others := others }
        next
    else some (b, p)

/-- A block of lines after its mark, in a structure with an indentation. -/
def blockScalar (folded : Bool) (parent : Int) (p : Place) : Option (String × Place) := do
  let (depth, sign, rest) ← blockHead p.rest
  let start ← (p.moveTo rest).lineEnd?
  let given := depth.map ((max 0 parent).toNat + ·)
  let (others, deepest, next) ← emptyLines given [] 0 start.mark start.rest
  let indent := given.getD (max deepest (max 1 (parent + 1).toNat))
  let (b, last) ← blockLines folded indent (next.rest.length + 1) ⟨[], [], others, false⟩ next
  let ending :=
    match sign with
    | some '-' => []
    | some _ => b.first ++ b.others
    | none => b.first
  return (String.ofList (b.text ++ ending), last)

end EdgeHealth.Yaml
