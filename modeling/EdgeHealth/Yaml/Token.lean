import EdgeHealth.Yaml.Scalar

/-!
# Tokens of YAML texts

A text as a list of tokens. The indentation of lines becomes tokens for the start and the end of
lists and mappings. A key without a mark of its own is known only once the colon after it is
reached; its token is then put in front of the tokens that were read since.

## Main definitions

* `Yaml.ScalarForm`, `Yaml.Token` : the tokens.
* `Yaml.KeyStart`, `Yaml.Lexer` : what is known of a text up to a place.
* `Yaml.Lexer.next?` : the step over one token.
* `Yaml.tokens?` : the tokens of a text.
-/

namespace EdgeHealth.Yaml

/-- How a scalar is written. -/
inductive ScalarForm where
  /-- As it is. -/
  | plain
  /-- In quotation marks of either kind. -/
  | quoted
  /-- As a block of lines. -/
  | literal
  /-- As a block of folded lines. -/
  | folded
  deriving DecidableEq, Repr

/-- The tokens of a text. -/
inductive Token where
  /-- The version of the language. -/
  | version (major minor : Nat)
  /-- A handle for tags, and what it stands for. -/
  | handle (name lead : String)
  /-- The mark before a document. -/
  | documentStart
  /-- The mark after a document. -/
  | documentEnd
  /-- The start of a list of lines. -/
  | blockList
  /-- The start of a mapping of lines. -/
  | blockMapping
  /-- The end of a list or a mapping of lines. -/
  | blockEnd
  /-- The bracket before a list. -/
  | listStart
  /-- The bracket after a list. -/
  | listEnd
  /-- The brace before a mapping. -/
  | mappingStart
  /-- The brace after a mapping. -/
  | mappingEnd
  /-- The dash before an item of a list of lines. -/
  | dash
  /-- The comma between items and pairs in brackets. -/
  | comma
  /-- The start of a key. -/
  | key
  /-- The start of a value. -/
  | value
  /-- A name for a node, by its number. -/
  | anchor (number : Nat)
  /-- A node that is given by its name, by its number. -/
  | reference (number : Nat)
  /-- A tag: a handle, and what follows it. -/
  | tag (handle suffix : String)
  /-- A scalar. -/
  | scalar (text : String) (form : ScalarForm)
  deriving DecidableEq, Repr

/-- The start of what may turn out to be a key. -/
structure KeyStart where
  /-- Whether it must be one, since a line of a mapping starts there. -/
  required : Bool
  /-- The count of tokens before it. -/
  position : Nat
  /-- Where it is. -/
  mark : Mark

/-- What is known of a text up to a place. -/
structure Lexer where
  /-- The place. -/
  place : Place
  /-- The column of the innermost list or mapping of lines; less than zero outside of all. -/
  indent : Int
  /-- The columns of those around it, innermost first. -/
  outer : List Int
  /-- What may be a key, for each open bracket, innermost first, and last for outside of all. -/
  keys : List (Option KeyStart)
  /-- Whether a key may start at the place. -/
  keyAllowed : Bool
  /-- The numbers of the names of nodes, one for each name. -/
  names : List (String × Nat)
  /-- The tokens, last one first. -/
  read : List Token

namespace Lexer

/-- The state at the start of a text. -/
def start (cs : List Char) : Lexer := ⟨⟨⟨0, 0, 0⟩, cs⟩, -1, [], [none], true, [], []⟩

/-- Whether the place is inside of brackets. -/
def inFlow (l : Lexer) : Bool := 1 < l.keys.length

/-- A token at the end. -/
def put (l : Lexer) (t : Token) : Lexer := { l with read := t :: l.read }

/-- A token of some characters at the place. -/
def take (l : Lexer) (count : Nat) (t : Token) : Lexer :=
  { l.put t with place := l.place.skip count }

/-- A token behind a count of tokens. -/
def insert (l : Lexer) (position : Nat) (t : Token) : Lexer :=
  let later := l.read.length - position
  { l with read := l.read.take later ++ t :: l.read.drop later }

/-- Says whether a key may start next. -/
def allow (l : Lexer) (keyAllowed : Bool) : Lexer := { l with keyAllowed := keyAllowed }

/-! ### Keys -/

/-- The innermost start of what may be a key. -/
def key? (l : Lexer) : Option KeyStart := l.keys.head?.join

/-- Replaces the innermost start of what may be a key. -/
def setKey (l : Lexer) (k : Option KeyStart) : Lexer := { l with keys := k :: l.keys.drop 1 }

/-- What may have been a key is none. That is a fault if it had to be one. -/
def dropKey? (l : Lexer) : Option Lexer :=
  if l.key?.any KeyStart.required then none else some (l.setKey none)

/-- A token that may be the start of a key comes next. -/
def startKey? (l : Lexer) : Option Lexer :=
  if l.keyAllowed then
    l.dropKey?.map fun dropped =>
      dropped.setKey (some
        ⟨!l.inFlow && l.indent == (l.place.mark.column : Int), l.read.length, l.place.mark⟩)
  else some l

/-- Whether the text has gone on too far for a key: past its line, or by more than 1024
characters. -/
def isStale (m : Mark) (k : KeyStart) : Bool :=
  k.mark.line < m.line || k.mark.index + 1024 < m.index

/-- What may be a key is given up where the text has gone on too far. -/
def expire? (l : Lexer) : Option Lexer :=
  let stale := isStale l.place.mark
  if l.keys.any fun k => k.any fun start => stale start && start.required then none
  else some { l with keys := l.keys.map fun k => k.filter fun start => !stale start }

/-! ### Indentation -/

/-- The ends of the lists and mappings of lines that are deeper than a column. -/
def unrollTo (column : Int) (indent : Int) (outer : List Int) (read : List Token) :
    Int × List Int × List Token :=
  if column < indent then
    match outer with
    | [] => (indent, [], read)
    | next :: outer => unrollTo column next outer (.blockEnd :: read)
  else (indent, outer, read)

/-- Ends the lists and mappings of lines that are deeper than a column; inside of brackets there are
none. -/
def unroll (l : Lexer) (column : Int) : Lexer :=
  if l.inFlow then l
  else
    let (indent, outer, read) := unrollTo column l.indent l.outer l.read
    { l with indent := indent, outer := outer, read := read }

/-- Starts a list or a mapping of lines behind a count of tokens, if a column is deeper than the one
around it. -/
def roll (l : Lexer) (column position : Nat) (t : Token) : Lexer :=
  if !l.inFlow && l.indent < column then
    { l.insert position t with indent := column, outer := l.indent :: l.outer }
  else l

/-! ### Blanks -/

/-- The place after blanks, comments and line breaks, and whether a key may start there. Outside of
brackets one may start on each new line, and tabs are no blanks where a key may start. -/
def gapAfter (flow allowed comment : Bool) (m : Mark) : List Char → Bool × Place
  | [] => (allowed, ⟨m, []⟩)
  | '\r' :: '\n' :: rest => gapAfter flow (allowed || !flow) false (m.newLine 2) rest
  | c :: rest =>
    if isBreak c then gapAfter flow (allowed || !flow) false (m.newLine 1) rest
    else if comment || c = '#' then gapAfter flow allowed true (m.after 1) rest
    else if c = ' ' || (c = '\t' && (flow || !allowed)) || (isOrderMark c && m.column = 0) then
      gapAfter flow allowed false (m.after 1) rest
    else (allowed, ⟨m, c :: rest⟩)

/-- The state before the next token. -/
def toToken? (l : Lexer) : Option Lexer :=
  let (allowed, place) := gapAfter l.inFlow l.keyAllowed false l.place.mark l.place.rest
  let moved : Lexer := { l with keyAllowed := allowed, place := place }
  moved.expire?.map fun l => l.unroll place.mark.column

/-! ### Directives and marks between documents -/

/-- A number of at most nine digits, and what follows. -/
def smallNumber? (cs : List Char) : Option (Nat × List Char) :=
  let digits := cs.takeWhile Char.isDigit
  if digits.isEmpty || 9 < digits.length then none
  else some (Number.digitsValue digits, cs.drop digits.length)

/-- The version in a directive, and what follows. -/
def versionOf? (cs : List Char) : Option (Token × List Char) := do
  let (major, rest) ← smallNumber? (cs.dropWhile isLineBlank)
  match rest with
  | '.' :: rest =>
    let (minor, rest) ← smallNumber? rest
    return (.version major minor, rest)
  | _ => none

/-- The bytes of a character that is written with escapes, each as a character of its own: as many
as its first byte says. -/
def octets (missing : Nat) : List Char → Option (List Char × List Char)
  | '%' :: high :: low :: rest =>
    match number? 16 [high, low] with
    | none => none
    | some octet =>
      let missing :=
        if missing = 0 then
          if octet < 0x80 then some 0
          else if 0xC0 ≤ octet && octet < 0xE0 then some 1
          else if 0xE0 ≤ octet && octet < 0xF0 then some 2
          else if 0xF0 ≤ octet && octet < 0xF8 then some 3
          else none
        else if 0x80 ≤ octet && octet < 0xC0 then some (missing - 1)
        else none
      match missing with
      | none => none
      | some 0 => some ([Char.ofNat octet], rest)
      | some (more + 1) =>
        (octets (more + 1) rest).map fun run => (Char.ofNat octet :: run.1, run.2)
  | _ => none

/-- The characters of a tag, and what follows. -/
def tagRun (bracketed : Bool) : (fuel : Nat) → List Char → Option (List Char × List Char)
  | 0, _ => none
  | _ + 1, [] => some ([], [])
  | fuel + 1, c :: rest =>
    if c = '%' then do
      let (run, rest) ← octets 0 (c :: rest)
      let (more, rest) ← tagRun bracketed fuel rest
      return (run ++ more, rest)
    else if isTagLetter bracketed c then
      (tagRun bracketed fuel rest).map fun run => (c :: run.1, run.2)
    else some ([], c :: rest)

/-- The characters of a tag as a text, which ends at the zero character. -/
def tagText (cs : List Char) : String := String.ofList (cs.takeWhile fun c => c.toNat != 0)

/-- The characters of a tag, of which there must be one, and what follows. -/
def tagRun? (bracketed : Bool) (cs : List Char) : Option (List Char × List Char) :=
  (tagRun bracketed (cs.length + 1) cs).filter fun run => run.2.length < cs.length

/-- The name of a handle after its first mark, with its last mark if there is one, and what
follows. -/
def handleRun (cs : List Char) : List Char × List Char :=
  let name := cs.takeWhile isNameLetter
  match cs.drop name.length with
  | '!' :: rest => (name ++ ['!'], rest)
  | rest => (name, rest)

/-- The handle in a directive and what it stands for, and what follows. -/
def handleOf? (cs : List Char) : Option (Token × List Char) :=
  match cs.dropWhile isLineBlank with
  | '!' :: rest => do
    let (name, rest) := handleRun rest
    if !(name.isEmpty || name.getLast? = some '!') || !rest.head?.any isLineBlank then none
    else
      let (lead, rest) ← tagRun? true (rest.dropWhile isLineBlank)
      if atBlank rest then return (.handle (String.ofList ('!' :: name)) (tagText lead), rest)
      else none
  | _ => none

/-- The directive at the place. -/
def directive? (l : Lexer) : Option Lexer := do
  let l ← (l.unroll (-1)).dropKey?
  let cs := l.place.rest.drop 1
  let name := cs.takeWhile isNameLetter
  let after := cs.drop name.length
  if name.isEmpty || !atBlank after then none
  else
    let (t, rest) ←
      if name = ['Y', 'A', 'M', 'L'] then versionOf? after
      else if name = ['T', 'A', 'G'] then handleOf? after
      else none
    let place ← (l.place.moveTo rest).lineEnd?
    return { (l.put t).allow false with place := place }

/-- The mark before or after a document at the place. -/
def separator? (l : Lexer) (t : Token) : Option Lexer :=
  (l.unroll (-1)).dropKey?.map fun l => (l.take 3 t).allow false

/-! ### Structure -/

/-- The bracket before a list or a mapping. -/
def openBracket? (l : Lexer) (t : Token) : Option Lexer :=
  l.startKey?.map fun l => { (l.take 1 t).allow true with keys := none :: l.keys }

/-- The bracket after a list or a mapping. -/
def closeBracket? (l : Lexer) (t : Token) : Option Lexer :=
  l.dropKey?.map fun l =>
    { (l.take 1 t).allow false with keys := if l.inFlow then l.keys.drop 1 else l.keys }

/-- The comma between items and pairs. -/
def comma? (l : Lexer) : Option Lexer := l.dropKey?.map fun l => (l.take 1 .comma).allow true

/-- The dash or the sign for a key at the place. Outside of brackets it may stand only where a key
may start, and starts a list or a mapping if it is deeper than the one around it. -/
def sign? (l : Lexer) (collection t : Token) (allowed : Bool) : Option Lexer :=
  if !l.inFlow && !l.keyAllowed then none
  else
    (l.roll l.place.mark.column l.read.length collection).dropKey?.map fun l =>
      (l.take 1 t).allow allowed

/-- The sign for a value at the place. What may have been a key before it is one now. -/
def value? (l : Lexer) : Option Lexer :=
  match l.key? with
  | some k =>
    let keyed := (l.insert k.position .key).roll k.mark.column k.position .blockMapping
    some (((keyed.setKey none).take 1 .value).allow false)
  | none =>
    if !l.inFlow && !l.keyAllowed then none
    else
      some (((l.roll l.place.mark.column l.read.length .blockMapping).take 1 .value).allow
        (!l.inFlow))

/-! ### Properties of nodes -/

/-- The characters that may follow the name of a node. -/
def mayFollowName : List Char := ['?', ':', ',', ']', '\x7d', '%', '@', '\x60']

/-- The name of a node after the mark at the place, and the state after it. -/
def name? (l : Lexer) : Option (String × Lexer) := do
  let l ← l.startKey?
  let name := (l.place.rest.drop 1).takeWhile isNameLetter
  let rest := l.place.rest.drop (name.length + 1)
  if name.isEmpty || !(atBlank rest || rest.head?.any mayFollowName.contains) then none
  else return (String.ofList name, { l.allow false with place := l.place.moveTo rest })

/-- A name for a node. Its number is the count of names so far, whether it is new or not. -/
def anchor? (l : Lexer) : Option Lexer :=
  l.name?.map fun (name, l) =>
    let number := l.names.length
    { l.put (.anchor number) with
      names := (name, number) :: l.names.filter fun known => known.1 != name }

/-- A node that is given by its name. -/
def alias? (l : Lexer) : Option Lexer :=
  l.name?.bind fun (name, l) => (l.names.lookup name).map fun number => l.put (.reference number)

/-- The tag after the mark at the place, and what follows. A mark alone is a tag without a
handle. -/
def tagOf? : List Char → Option (Token × List Char)
  | '<' :: rest => do
    let (run, rest) ← tagRun? true rest
    match rest with
    | '>' :: rest => return (.tag "" (tagText run), rest)
    | _ => none
  | cs =>
    let (name, rest) := handleRun cs
    if name.getLast? = some '!' then
      (tagRun? false rest).map fun (run, rest) =>
        (.tag (String.ofList ('!' :: name)) (tagText run), rest)
    else
      (tagRun false (rest.length + 1) rest).map fun (run, rest) =>
        let suffix := tagText (name ++ run)
        (if suffix.isEmpty then .tag "" "!" else .tag "!" suffix, rest)

/-- The tag of a node. -/
def tag? (l : Lexer) : Option Lexer := do
  let l ← l.startKey?
  let (t, rest) ← tagOf? (l.place.rest.drop 1)
  if (l.inFlow && rest.head? = some ',') || atBlank rest then
    return { (l.put t).allow false with place := l.place.moveTo rest }
  else none

/-! ### Scalars -/

/-- A scalar in quotation marks. -/
def quoted? (l : Lexer) (double : Bool) : Option Lexer := do
  let l ← l.startKey?
  let (text, place) ← quotedFrom double (l.place.rest.length + 1) (l.place.skip 1)
  return { (l.put (.scalar (String.ofList text) .quoted)).allow false with place := place }

/-- A block of lines. -/
def block? (l : Lexer) (folded : Bool) : Option Lexer := do
  let l ← l.dropKey?
  let (text, place) ← blockScalar folded l.indent (l.place.skip 1)
  let form := if folded then ScalarForm.folded else .literal
  return { (l.put (.scalar text form)).allow true with place := place }

/-- Whether a plain scalar may start with some characters. -/
def startsPlain (flow : Bool) : List Char → Bool
  | [] => false
  | '-' :: rest => !rest.head?.any isLineBlank
  | '?' :: rest => !flow && !atBlank rest
  | ':' :: rest => !flow && !atBlank rest
  | c :: _ => !(startMarks.contains c || endsMark c)

/-- A plain scalar. A key may start after it only on a new line. -/
def plain? (l : Lexer) : Option Lexer :=
  if startsPlain l.inFlow l.place.rest then do
    let l ← l.startKey?
    let (text, broken, place) ←
      plainFrom l.inFlow (l.indent + 1).toNat (l.place.rest.length + 1) Gap.empty l.place
    return { (l.put (.scalar (String.ofList text) .plain)).allow broken with place := place }
  else none

/-! ### All tokens -/

/-- The step over the token at the place. -/
def next? (l : Lexer) : Option Lexer :=
  let rest := l.place.rest
  let signs := l.inFlow || atBlank (rest.drop 1)
  if l.place.mark.column = 0 && rest.head? = some '%' then l.directive?
  else if l.place.atSeparator ['-', '-', '-'] then l.separator? .documentStart
  else if l.place.atSeparator ['.', '.', '.'] then l.separator? .documentEnd
  else
    match rest.head? with
    | some '[' => l.openBracket? .listStart
    | some '\x7b' => l.openBracket? .mappingStart
    | some ']' => l.closeBracket? .listEnd
    | some '\x7d' => l.closeBracket? .mappingEnd
    | some ',' => l.comma?
    | some '-' => if atBlank (rest.drop 1) then l.sign? .blockList .dash true else l.plain?
    | some '?' => if signs then l.sign? .blockMapping .key (!l.inFlow) else l.plain?
    | some ':' => if signs then l.value? else l.plain?
    | some '*' => l.alias?
    | some '&' => l.anchor?
    | some '!' => l.tag?
    | some '|' => if l.inFlow then none else l.block? false
    | some '>' => if l.inFlow then none else l.block? true
    | some '\x27' => l.quoted? false
    | some '\x22' => l.quoted? true
    | _ => l.plain?

/-- The tokens at the end of a text. -/
def finish? (l : Lexer) : Option (List Token) :=
  (l.unroll (-1)).dropKey?.map fun l => l.read.reverse

/-- The tokens of a text from a place on. -/
def run? : (fuel : Nat) → Lexer → Option (List Token)
  | 0, _ => none
  | fuel + 1, l =>
    l.toToken?.bind fun l => if l.place.rest.isEmpty then l.finish? else l.next?.bind (run? fuel)

end Lexer

/-- The tokens of a text. A mark for the order of bytes at its start is passed over. -/
def tokens? (text : String) : Option (List Token) :=
  let cs := text.toList
  let cs := if cs.head?.any isOrderMark then cs.drop 1 else cs
  if cs.all isAllowed then (Lexer.start cs).run? (cs.length + 1) else none

end EdgeHealth.Yaml
