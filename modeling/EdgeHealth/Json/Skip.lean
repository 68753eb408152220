import EdgeHealth.Json.Reader

/-!
# Passing over JSON values

A value that nobody asks for is passed over and not read. Less is looked at than in reading: lists
and objects may stand inside each other to any depth, numbers may be of any size, and the numbers of
escapes need not make characters. Some faults are therefore told in another way.

## Main definitions

* `Json.skipFrom` : what follows a value.
-/

namespace EdgeHealth

namespace Json

/-- What follows the digits at the start of a text, of which there must be one. -/
def skipDigits (cs : List Char) : Except Stop (List Char) :=
  if cs.head?.any Char.isDigit then .ok (cs.dropWhile Char.isDigit) else stopAt .badNumber cs

/-- What follows the exponent at the start of a text, if there is one. -/
def skipExponent : List Char → Except Stop (List Char)
  | [] => .ok []
  | c :: rest => if isExponentMark c then skipDigits (Number.signOf rest).2 else .ok (c :: rest)

/-- What follows the fraction and the exponent at the start of a text, if there are any. -/
def skipFraction : List Char → Except Stop (List Char)
  | '.' :: rest => (skipDigits rest).bind skipExponent
  | cs => skipExponent cs

/-- What follows a number without its sign. -/
def skipNumber : List Char → Except Stop (List Char)
  | '0' :: rest =>
    if rest.head?.any Char.isDigit then stopAt .badNumber rest else skipFraction rest
  | cs => (skipDigits cs).bind skipFraction

/-- What follows a string after its first quotation mark. -/
def skipString : (fuel : Nat) → List Char → Except Stop (List Char)
  | 0, _ => stopBefore .endInString []
  | _ + 1, [] => stopBefore .endInString []
  | _ + 1, '\x22' :: rest => .ok rest
  | _ + 1, '\\' :: [] => stopBefore .endInString []
  | fuel + 1, '\\' :: 'u' :: rest => (hexEscape rest).bind fun escape => skipString fuel escape.2
  | fuel + 1, '\\' :: c :: rest =>
    if ['\x22', '\\', '/', 'b', 'f', 'n', 'r', 't'].contains c then skipString fuel rest
    else stopAt .badEscape (c :: rest)
  | fuel + 1, c :: rest =>
    if c.toNat < 0x20 then stopBefore .controlCharacter (c :: rest) else skipString fuel rest

/-- What is open around a place. -/
inductive Enclosure where
  /-- A list. -/
  | list
  /-- An object. -/
  | object
  deriving DecidableEq, Repr

namespace Enclosure

/-- The fault of a text that ends inside. -/
def unended : Enclosure → Fault
  | .list => .endInList
  | .object => .endInObject

/-- The fault of a text that goes on without a comma. -/
def unparted : Enclosure → Fault
  | .list => .noListEnd
  | .object => .noObjectEnd

/-- The sign at the end. -/
def closing : Enclosure → Char
  | .list => ']'
  | .object => '\x7d'

end Enclosure

/-- What follows the name of a member and its colon. -/
def skipKey (cs : List Char) : Except Stop (List Char) :=
  match skipSpace cs with
  | '\x22' :: rest => (skipString (rest.length + 1) rest).bind afterColon
  | [] => stopAt .endInObject []
  | rest => stopAt .noKey rest

mutual

/-- What follows a value and all that is open around it, innermost first. -/
def skipFrom : (fuel : Nat) → (enclosures : List Enclosure) → List Char → Except Stop (List Char)
  | 0, _, _ => stopBefore .endInValue []
  | fuel + 1, enclosures, cs =>
    match skipSpace cs with
    | [] => stopAt .endInValue []
    | '[' :: rest => skipRest fuel (.list :: enclosures) false rest
    | '\x7b' :: rest => skipRest fuel (.object :: enclosures) false rest
    | '\x22' :: rest =>
      (skipString (rest.length + 1) rest).bind fun rest => skipRest fuel enclosures true rest
    | '-' :: rest => (skipNumber rest).bind fun rest => skipRest fuel enclosures true rest
    | 'n' :: rest => (word .null "ull".toList rest).bind fun r => skipRest fuel enclosures true r.2
    | 't' :: rest => (word .null "rue".toList rest).bind fun r => skipRest fuel enclosures true r.2
    | 'f' :: rest => (word .null "alse".toList rest).bind fun r => skipRest fuel enclosures true r.2
    | c :: rest =>
      if c.isDigit then (skipNumber (c :: rest)).bind fun rest => skipRest fuel enclosures true rest
      else stopAt .noValue (c :: rest)

/-- What follows all that is open around a place, innermost first; `filled` says whether a value
stands before it in the innermost. -/
def skipRest : (fuel : Nat) → (enclosures : List Enclosure) → (filled : Bool) → List Char →
    Except Stop (List Char)
  | 0, _, _, _ => stopBefore .endInValue []
  | _ + 1, [], _, cs => .ok cs
  | fuel + 1, e :: enclosures, filled, cs =>
    let next := fun rest =>
      if e = .object then
        (skipKey rest).bind fun rest => skipFrom fuel (e :: enclosures) rest
      else skipFrom fuel (e :: enclosures) rest
    match skipSpace cs with
    | [] => stopAt e.unended []
    | c :: rest =>
      if c = e.closing then skipRest fuel enclosures true rest
      else if !filled then next (c :: rest)
      else if c = ',' then next rest
      else stopAt e.unparted (c :: rest)

end

/-- What follows a value at the start of a text. -/
def skipValue (cs : List Char) : Except Stop (List Char) := skipFrom (2 * cs.length + 2) [] cs

end Json

end EdgeHealth
