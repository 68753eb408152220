import EdgeHealth.Json.Mismatch

/-!
# Reading JSON

A reader for JSON texts. It stops at the first fault and says where that is: the line, and the
count of bytes of that line up to and with the byte that shows the fault.

A number with a fraction or an exponent is read as its leading digits, as far as they fit into
64 bits, times or divided by a power of ten; each of these steps rounds, so that the last digit of
a long number may differ from the nearest one.

## Main definitions

* `Json.Fault` : the causes for which a text is refused.
* `Json.ReadError` : a cause and its place, with `ReadError.message`.
* `Json.readBy` : what a reader finds in a text that holds nothing else.
* `Json.read` : the value of a text.
-/

namespace EdgeHealth

namespace Json

/-- Why a text is no JSON value, or none of the shape that is asked for. -/
inductive Fault where
  /-- The text ends inside a value. -/
  | endInValue
  /-- The text ends inside a string. -/
  | endInString
  /-- The text ends inside a list. -/
  | endInList
  /-- The text ends inside an object. -/
  | endInObject
  /-- No value starts here. -/
  | noValue
  /-- No colon after the name of a member. -/
  | noColon
  /-- Neither a comma nor the end of a list. -/
  | noListEnd
  /-- Neither a comma nor the end of an object. -/
  | noObjectEnd
  /-- A misspelt `null`, `true` or `false`. -/
  | noWord
  /-- The name of a member is no string. -/
  | noKey
  /-- A comma before the end of a list or an object. -/
  | trailingComma
  /-- Characters after the value. -/
  | trailingCharacters
  /-- A number without the digits that it needs. -/
  | badNumber
  /-- A number too great for the format. -/
  | numberOutOfRange
  /-- An unknown escape. -/
  | badEscape
  /-- Half of an escaped pair without its other half. -/
  | loneSurrogate
  /-- The first half of an escaped pair, and no escape after it. -/
  | endOfEscape
  /-- A control character inside a string. -/
  | controlCharacter
  /-- Too many lists and objects inside each other. -/
  | tooDeep
  /-- A value of another shape than the one that is asked for. -/
  | mismatch (m : Mismatch)
  deriving DecidableEq, Repr

/-- The wording of a fault. -/
def Fault.message : Fault → String
  | .endInValue => "EOF while parsing a value"
  | .endInString => "EOF while parsing a string"
  | .endInList => "EOF while parsing a list"
  | .endInObject => "EOF while parsing an object"
  | .noValue => "expected value"
  | .noColon => "expected \x60:\x60"
  | .noListEnd => "expected \x60,\x60 or \x60]\x60"
  | .noObjectEnd => "expected \x60,\x60 or \x60\x7d\x60"
  | .noWord => "expected ident"
  | .noKey => "key must be a string"
  | .trailingComma => "trailing comma"
  | .trailingCharacters => "trailing characters"
  | .badNumber => "invalid number"
  | .numberOutOfRange => "number out of range"
  | .badEscape => "invalid escape"
  | .loneSurrogate => "lone leading surrogate in hex escape"
  | .endOfEscape => "unexpected end of hex escape"
  | .controlCharacter => "control character (\\u0000-\\u001F) found while parsing a string"
  | .tooDeep => "recursion limit exceeded"
  | .mismatch m => m.message

/-- A fault, with the count of bytes that stand after its place. -/
structure Stop where
  /-- The cause. -/
  fault : Fault
  /-- The bytes after the place. -/
  left : Nat
  deriving DecidableEq, Repr

/-- A part of a text that was read, and the rest; or the fault that stopped the reading. -/
abbrev Step (α : Type) := Except Stop (α × List Char)

/-- The count of bytes of a text. -/
def byteCount : List Char → Nat
  | [] => 0
  | c :: rest => c.utf8Size + byteCount rest

/-- A fault in what has been read, before `rest`. -/
def stopBefore {α : Type} (fault : Fault) (rest : List Char) : Except Stop α :=
  .error ⟨fault, byteCount rest⟩

/-- A fault in the byte with which `rest` starts, or at the end of the text. -/
def stopAt {α : Type} (fault : Fault) (rest : List Char) : Except Stop α :=
  .error ⟨fault, byteCount rest - 1⟩

/-- The characters that may stand between the parts of a value. -/
def isSpace (c : Char) : Bool := c == ' ' || c == '\n' || c == '\t' || c == '\r'

/-- The rest of a text after the characters that may stand between parts. -/
def skipSpace (cs : List Char) : List Char := cs.dropWhile isSpace

/-! ### Words and strings -/

/-- The rest of a word. -/
def word (value : Json) : List Char → List Char → Step Json
  | [], rest => .ok (value, rest)
  | _ :: _, [] => stopBefore .endInValue []
  | w :: ws, c :: rest => if w = c then word value ws rest else stopAt .noWord (c :: rest)

/-- The value of a digit of base sixteen of either case. -/
def hexValue? (c : Char) : Option Nat :=
  if c.isDigit then some (c.toNat - '0'.toNat)
  else if 'a' ≤ c && c ≤ 'f' then some (c.toNat - 'a'.toNat + 10)
  else if 'A' ≤ c && c ≤ 'F' then some (c.toNat - 'A'.toNat + 10)
  else none

/-- The four digits of an escape. They are four bytes; a text that is too short ends inside its
string. -/
def hexEscape (cs : List Char) : Step Nat :=
  if byteCount cs < 4 then stopBefore .endInString []
  else
    match cs with
    | a :: b :: c :: d :: rest =>
      match hexValue? a, hexValue? b, hexValue? c, hexValue? d with
      | some a, some b, some c, some d => .ok (((a * 16 + b) * 16 + c) * 16 + d, rest)
      | _, _, _, _ => .error ⟨.badEscape, byteCount cs - 4⟩
    | _ => .error ⟨.badEscape, byteCount cs - 4⟩

/-- The second half of an escaped pair whose first half is `high`. -/
def lowHalf (high : Nat) : List Char → Step Char
  | [] => stopBefore .endInString []
  | '\\' :: [] => stopBefore .endInString []
  | '\\' :: 'u' :: rest =>
    (hexEscape rest).bind fun (low, rest) =>
      if 0xDC00 ≤ low && low ≤ 0xDFFF then
        .ok (Char.ofNat ((high - 0xD800) * 0x400 + (low - 0xDC00) + 0x10000), rest)
      else stopBefore .loneSurrogate rest
  | '\\' :: rest => stopAt .endOfEscape rest
  | rest => stopAt .endOfEscape rest

/-- The character that a numbered escape stands for. -/
def numberedEscape (cs : List Char) : Step Char :=
  (hexEscape cs).bind fun (n, rest) =>
    if 0xDC00 ≤ n && n ≤ 0xDFFF then stopBefore .loneSurrogate rest
    else if 0xD800 ≤ n && n ≤ 0xDBFF then lowHalf n rest
    else .ok (Char.ofNat n, rest)

/-- The character that an escape stands for. -/
def escape : List Char → Step Char
  | [] => stopBefore .endInString []
  | '\x22' :: rest => .ok ('\x22', rest)
  | '\\' :: rest => .ok ('\\', rest)
  | '/' :: rest => .ok ('/', rest)
  | 'b' :: rest => .ok ('\x08', rest)
  | 'f' :: rest => .ok ('\x0c', rest)
  | 'n' :: rest => .ok ('\n', rest)
  | 'r' :: rest => .ok ('\r', rest)
  | 't' :: rest => .ok ('\t', rest)
  | 'u' :: rest => numberedEscape rest
  | rest => stopAt .badEscape rest

/-- The characters of a string after its first quotation mark; `read` holds those already read,
last one first. A string has no more parts than its text has characters, which `fuel` counts. -/
def stringFrom : (fuel : Nat) → (read : List Char) → List Char → Step String
  | 0, _, _ => stopBefore .endInString []
  | _ + 1, _, [] => stopBefore .endInString []
  | fuel + 1, read, c :: rest =>
    if c = '\x22' then .ok (String.ofList read.reverse, rest)
    else if c = '\\' then
      match escape rest with
      | .ok (d, rest) => stringFrom fuel (d :: read) rest
      | .error stop => .error stop
    else if c.toNat < 0x20 then stopBefore .controlCharacter rest
    else stringFrom fuel (c :: read) rest

/-- A string after its first quotation mark. -/
def stringAfter (cs : List Char) : Step String := stringFrom (cs.length + 1) [] cs

/-! ### Numbers -/

/-- A power of ten that the format holds. -/
def powerOfTen (e : Nat) : Binary64 := .ofDecimal false 1 e

/-- A number of leading digits times a power of ten, computed by one product or by quotients, each
of which rounds. Infinity is a fault; a number that has become zero stays so. `fuel` bounds the
quotients by `10 ^ 308`. -/
def scaled (rest : List Char) : (fuel : Nat) → Binary64 → Int → Except Stop Binary64
  | 0, f, _ => .ok f
  | fuel + 1, f, e =>
    if e.natAbs ≤ 308 then
      if 0 ≤ e then
        let product := f.mul (powerOfTen e.natAbs)
        if product.isFinite then .ok product else stopBefore .numberOutOfRange rest
      else .ok (f.div (powerOfTen e.natAbs))
    else if f.le (.zero false) then .ok f
    else if 0 ≤ e then stopBefore .numberOutOfRange rest
    else scaled rest fuel (f.div (powerOfTen 308)) (e + 308)

/-- A number of leading digits, an exponent of ten and a sign. -/
def fromParts (negative : Bool) (digits : Nat) (e : Int) (rest : List Char) : Step Json :=
  (scaled rest 5 (Binary64.ofNat digits) e).map fun f =>
    (.real (if negative then f.neg else f), rest)

/-- The greatest written exponent that is added up; beyond it the number is zero or too great. -/
def maxExponent : Nat := (1 <<< 31) - 1

/-- The digits of an exponent after its first one; `none` as soon as they exceed the greatest
exponent, with the text from the digit after the one that exceeds it. -/
def exponentDigits (value : Nat) : List Char → Option Nat × List Char
  | [] => (some value, [])
  | c :: rest =>
    if c.isDigit then
      let next := value * 10 + Number.digitValue c
      if maxExponent < next then (none, rest) else exponentDigits next rest
    else (some value, c :: rest)

/-- The exponent after its letter, and the number. -/
def exponentAfter (negative : Bool) (digits : Nat) (start : Int) (cs : List Char) : Step Json :=
  let signed := Number.signOf cs
  match signed.2 with
  | [] => stopBefore .endInValue []
  | c :: rest =>
    if c.isDigit then
      match exponentDigits (Number.digitValue c) rest with
      | (some e, rest) =>
        fromParts negative digits (if signed.1 then start - e else start + e) rest
      | (none, rest) =>
        if digits ≠ 0 && !signed.1 then stopBefore .numberOutOfRange rest
        else .ok (.real (.zero negative), rest.dropWhile Char.isDigit)
    else stopAt .badNumber (c :: rest)

/-- Whether a letter starts an exponent. -/
def isExponentMark (c : Char) : Bool := c == 'e' || c == 'E'

/-- The end of a number: an exponent or nothing. -/
def numberEnd (negative : Bool) (digits : Nat) (e : Int) : List Char → Step Json
  | [] => fromParts negative digits e []
  | c :: rest =>
    if isExponentMark c then exponentAfter negative digits e rest
    else fromParts negative digits e (c :: rest)

/-- Digits added to a number while it fits into 64 bits: the number, how many were added, and the
text from the first digit on that was not. -/
def fittingDigits (value count : Nat) : List Char → Nat × Nat × List Char
  | [] => (value, count, [])
  | c :: rest =>
    if c.isDigit then
      let next := value * 10 + Number.digitValue c
      if Number.maxUInt64 < next then (value, count, c :: rest)
      else fittingDigits next (count + 1) rest
    else (value, count, c :: rest)

/-- The digits after a point, and the number. Digits that do not fit are passed over. -/
def fractionAfter (negative : Bool) (digits : Nat) (e : Int) (cs : List Char) : Step Json :=
  let (value, count, rest) := fittingDigits digits 0 cs
  match rest with
  | c :: _ =>
    if c.isDigit then numberEnd negative value (e - count) (rest.dropWhile Char.isDigit)
    else if count = 0 then stopAt .badNumber rest
    else numberEnd negative value (e - count) rest
  | [] => if count = 0 then stopAt .endInValue rest else numberEnd negative value (e - count) rest

/-- A number after its integral digits, which had `e` more digits than fit. -/
def afterInteger (negative : Bool) (digits : Nat) (e : Nat) (cs : List Char) : Step Json :=
  match cs with
  | '.' :: rest => fractionAfter negative digits e rest
  | _ => numberEnd negative digits e cs

/-- A number without fraction and exponent. One that does not fit into 64 bits with its sign is no
integer, and neither is a negative zero. -/
def integerValue (negative : Bool) (n : Nat) : Json :=
  if !negative then .int n
  else if n ≠ 0 && n ≤ 1 <<< 63 then .int (-n)
  else .real (Binary64.ofNat n).neg

/-- A number after its sign. -/
def numberAfter (negative : Bool) : List Char → Step Json
  | [] => stopBefore .endInValue []
  | c :: rest =>
    if !c.isDigit then stopAt .badNumber (c :: rest)
    else if c = '0' && (rest.head?.any Char.isDigit) then stopAt .badNumber rest
    else
      let (value, _, rest) := fittingDigits (Number.digitValue c) 0 rest
      let more := rest.takeWhile Char.isDigit
      let rest := rest.dropWhile Char.isDigit
      if !more.isEmpty then afterInteger negative value more.length rest
      else
        match rest with
        | d :: _ =>
          if d = '.' || isExponentMark d then afterInteger negative value 0 rest
          else .ok (integerValue negative value, rest)
        | [] => .ok (integerValue negative value, [])

/-! ### Values -/

/-- How many lists and objects may stand inside each other, and one more. -/
def depthLimit : Nat := 128

/-- The rest of a text after the colon between a name and its value. -/
def afterColon (cs : List Char) : Except Stop (List Char) :=
  match skipSpace cs with
  | ':' :: rest => .ok rest
  | [] => stopAt .endInObject []
  | rest => stopAt .noColon rest

mutual

/-- A value, and the rest of the text. `depth` is one more than the count of lists and objects that
may still be opened, and `fuel` bounds the count of parts. -/
def valueFrom : (fuel depth : Nat) → List Char → Step Json
  | 0, _, _ => stopBefore .endInValue []
  | fuel + 1, depth, cs =>
    match skipSpace cs with
    | [] => stopAt .endInValue []
    | 'n' :: rest => word .null "ull".toList rest
    | 't' :: rest => word (.bool true) "rue".toList rest
    | 'f' :: rest => word (.bool false) "alse".toList rest
    | '-' :: rest => numberAfter true rest
    | '\x22' :: rest => (stringAfter rest).map fun (s, rest) => (.string s, rest)
    | '[' :: rest =>
      if depth ≤ 1 then stopAt .tooDeep ('[' :: rest)
      else
        match skipSpace rest with
        | ']' :: rest => .ok (.array [], rest)
        | [] => stopAt .endInList []
        | rest => itemsFrom fuel (depth - 1) [] rest
    | '\x7b' :: rest =>
      if depth ≤ 1 then stopAt .tooDeep ('\x7b' :: rest)
      else
        match skipSpace rest with
        | '\x7d' :: rest => .ok (.object [], rest)
        | '\x22' :: rest => membersFrom fuel (depth - 1) [] rest
        | [] => stopAt .endInObject []
        | rest => stopAt .noKey rest
    | c :: rest =>
      if c.isDigit then numberAfter false (c :: rest) else stopAt .noValue (c :: rest)

/-- The items of a list from one that must be there; `read` holds those before it, last one
first. -/
def itemsFrom : (fuel depth : Nat) → (read : List Json) → List Char → Step Json
  | 0, _, _, _ => stopBefore .endInValue []
  | fuel + 1, depth, read, cs =>
    match valueFrom fuel depth cs with
    | .error stop => .error stop
    | .ok (v, rest) =>
      match skipSpace rest with
      | ']' :: rest => .ok (.array (v :: read).reverse, rest)
      | ',' :: rest =>
        match skipSpace rest with
        | ']' :: rest => stopAt .trailingComma (']' :: rest)
        | [] => stopAt .endInValue []
        | rest => itemsFrom fuel depth (v :: read) rest
      | [] => stopAt .endInList []
      | rest => stopAt .noListEnd rest

/-- The members of an object from inside the name of one; `read` holds those before it, in order.
A name that comes again keeps its first place and takes the last value. -/
def membersFrom : (fuel depth : Nat) → (read : List (String × Json)) → List Char → Step Json
  | 0, _, _, _ => stopBefore .endInValue []
  | fuel + 1, depth, read, cs =>
    match stringAfter cs with
    | .error stop => .error stop
    | .ok (key, rest) =>
      match afterColon rest with
      | .error stop => .error stop
      | .ok rest =>
        match valueFrom fuel depth rest with
        | .error stop => .error stop
        | .ok (v, rest) =>
          match skipSpace rest with
          | '\x7d' :: rest => .ok (.object (setMember key v read), rest)
          | ',' :: rest =>
            match skipSpace rest with
            | '\x22' :: rest => membersFrom fuel depth (setMember key v read) rest
            | '\x7d' :: rest => stopAt .trailingComma ('\x7d' :: rest)
            | [] => stopAt .endInValue []
            | rest => stopAt .noKey rest
          | [] => stopAt .endInObject []
          | rest => stopAt .noObjectEnd rest

end

/-- Why a text is refused, and where: the line, counted from one, and the bytes of that line up to
and with the one that shows the fault. -/
structure ReadError where
  /-- The cause. -/
  fault : Fault
  /-- The line. -/
  line : Nat
  /-- The bytes of the line. -/
  column : Nat
  deriving DecidableEq, Repr

/-- The wording of a refusal. -/
def ReadError.message (e : ReadError) : String :=
  s!"{e.fault.message} at line {e.line} column {e.column}"

/-- The line and the column of the place after the first `offset` bytes of a text. -/
def placeFrom (line column : Nat) : (offset : Nat) → List Char → Nat × Nat
  | _, [] => (line, column)
  | offset, c :: rest =>
    if offset < c.utf8Size then (line, column + offset)
    else if c = '\n' then placeFrom (line + 1) 0 (offset - c.utf8Size) rest
    else placeFrom line (column + c.utf8Size) (offset - c.utf8Size) rest

/-- What is read from the start of a text that holds nothing else. -/
def whole (step : List Char → Step Json) (cs : List Char) : Except Stop Json :=
  match step cs with
  | .error stop => .error stop
  | .ok (v, rest) =>
    match skipSpace rest with
    | [] => .ok v
    | rest => stopAt .trailingCharacters rest

/-- What is read from a text that holds nothing else, or the first fault and its place. -/
def readBy (step : List Char → Step Json) (text : String) : Except ReadError Json :=
  let cs := text.toList
  (whole step cs).mapError fun stop =>
    let place := placeFrom 1 0 (byteCount cs - stop.left) cs
    ⟨stop.fault, place.1, place.2⟩

/-- A value at the start of a text, and the rest. -/
def anyFrom (depth : Nat) (cs : List Char) : Step Json := valueFrom (2 * cs.length + 2) depth cs

/-- The value of a text that holds nothing else, or the first fault and its place. -/
def read (text : String) : Except ReadError Json := readBy (anyFrom depthLimit) text

end Json

end EdgeHealth
