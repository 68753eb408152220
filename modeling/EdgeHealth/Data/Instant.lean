import EdgeHealth.Number.Literal
import EdgeHealth.Text.Blank

/-!
# Points in time

Points in time as they are written in manifests: a date, a time of day with an optional fraction of
a second, and the distance from universal time. They are read with some freedom: a part may have
fewer digits than it is written with, and blanks may stand between the parts.

## Main definitions

* `Instant` : a point in time, in universal time.
* `Instant.parse` : the point in time that a text names, with `Instant.Fault`.
* `Instant.written` : a point in time with a given sign for universal time.
-/

namespace EdgeHealth

open EdgeHealth.Number

/-- A point in time. -/
structure Instant where
  /-- The whole seconds since the start of 1970. -/
  seconds : Int
  /-- The billionths of a second beyond them. A second inserted at the end of a day is counted as
  part of the second before it. -/
  nanos : Nat
  deriving DecidableEq, Repr

namespace Instant

/-- The days from the start of 1970 to a date of the Gregorian calendar. Years are counted from
March, so that a leap day is the last day of its year. -/
def daysTo (year month day : Int) : Int :=
  let y := if month ≤ 2 then year - 1 else year
  let era := y.fdiv 400
  let ofEra := y - era * 400
  let fromMarch := (month + 9).emod 12
  let ofYear := (153 * fromMarch + 2) / 5 + day - 1
  era * 146097 + (ofEra * 365 + ofEra / 4 - ofEra / 100 + ofYear) - 719468

/-- The date, as year, month and day, some days after the start of 1970. -/
def dateAfter (days : Int) : Int × Int × Int :=
  let z := days + 719468
  let era := z.fdiv 146097
  let ofEra := z - era * 146097
  let year := (ofEra - ofEra / 1460 + ofEra / 36524 - ofEra / 146096) / 365
  let ofYear := ofEra - (365 * year + year / 4 - year / 100)
  let fromMarch := (5 * ofYear + 2) / 153
  let day := ofYear - (153 * fromMarch + 2) / 5 + 1
  let month := if fromMarch < 10 then fromMarch + 3 else fromMarch - 9
  (era * 400 + year + (if month ≤ 2 then 1 else 0), month, day)

/-! ### Reading -/

/-- Why a text names no point in time. -/
inductive Fault where
  /-- A part is greater or less than it may be. -/
  | outOfRange
  /-- The point in time is outside of the calendar. -/
  | impossible
  /-- Something else stands where a part should be. -/
  | invalid
  /-- The text ends before its last part. -/
  | tooShort
  /-- The text goes on after its last part. -/
  | tooLong
  deriving DecidableEq, Repr

/-- The wording of a fault. -/
def Fault.message : Fault → String
  | .outOfRange => "input is out of range"
  | .impossible => "no possible date and time matching input"
  | .invalid => "input contains invalid characters"
  | .tooShort => "premature end of input"
  | .tooLong => "trailing input"

/-- A part of a text, and the rest; or the fault in it. -/
abbrev Part (α : Type) := Except Fault (α × List Char)

/-- A text without the blanks at its start. -/
def skipBlank (cs : List Char) : List Char := cs.dropWhile Text.isBlank

/-- A number of at most `width` digits. -/
def number (width : Nat) (cs : List Char) : Part Nat :=
  let digits := (cs.take width).takeWhile Char.isDigit
  if cs.isEmpty then .error .tooShort
  else if digits.isEmpty then .error .invalid
  else .ok (digitsValue digits, cs.drop digits.length)

/-- The part of a date or of a time of day after blanks: a number of one or two digits from `lo` to
`hi`. -/
def between (lo hi : Nat) (cs : List Char) : Part Int :=
  (number 2 (skipBlank cs)).bind fun (n, rest) =>
    if lo ≤ n && n ≤ hi then .ok ((n : Int), rest) else .error .outOfRange

/-- The year: at most four digits, or any count of digits after a sign. -/
def year (cs : List Char) : Part Int :=
  let signed := fun (sign : Int) (rest : List Char) =>
    (number rest.length rest).bind fun (n, rest) =>
      if Int32.minValue.toInt ≤ sign * n && sign * n ≤ Int32.maxValue.toInt then
        .ok (sign * n, rest)
      else .error .outOfRange
  match skipBlank cs with
  | '-' :: rest => signed (-1) rest
  | '+' :: rest => signed 1 rest
  | rest => (number 4 rest).map fun (n, rest) => ((n : Int), rest)

/-- What follows a sign between two parts, before which blanks may stand. -/
def after (sign : Char) (cs : List Char) : Except Fault (List Char) :=
  match skipBlank cs with
  | [] => .error .tooShort
  | c :: rest => if c = sign then .ok rest else .error .invalid

/-- What follows the sign between a date and a time of day. -/
def afterDate : List Char → Except Fault (List Char)
  | [] => .error .tooShort
  | c :: rest => if ['t', 'T', ' '].contains c then .ok rest else .error .invalid

/-- The billionths of a second after a point. Digits after the ninth are passed over. -/
def fraction : List Char → Part Nat
  | '.' :: rest =>
    (number 9 rest).map fun (n, after) =>
      (n * Nat.pow 10 (9 - (rest.length - after.length)), after.dropWhile Char.isDigit)
  | cs => .ok (0, cs)

/-- A number of two digits. A text of a single byte is too short for it. -/
def twoDigits : List Char → Part Nat
  | a :: b :: rest =>
    if a.isDigit && b.isDigit then .ok (digitsValue [a, b], rest) else .error .invalid
  | [c] => if c.utf8Size < 2 then .error .tooShort else .error .invalid
  | [] => .error .tooShort

/-- The distance from universal time after its sign, in seconds: hours and minutes, between which
colons and blanks may stand. -/
def distance (sign : Int) (cs : List Char) : Except Fault (Int × List Char) := do
  let (hours, cs) ← twoDigits cs
  let (minutes, cs) ← twoDigits (cs.dropWhile fun c => c == ':' || Text.isBlank c)
  if minutes < 60 then return (sign * ((hours * 60 + minutes) * 60 : Nat), cs)
  else .error .outOfRange

/-- The distance from universal time, in seconds. -/
def zone : List Char → Part Int
  | [] => .error .tooShort
  | c :: rest =>
    if ((c :: rest).take 3).map Char.toUpper = ['U', 'T', 'C'] then .ok (0, rest.drop 2)
    else if c = 'Z' || c = 'z' then .ok (0, rest)
    else if c = '+' then distance 1 rest
    else if c = '-' || c.toNat = 0x2212 then distance (-1) rest
    else .error .invalid

/-- The days of a month. -/
def daysIn (year month : Int) : Int :=
  if month = 12 then 31 else daysTo year (month + 1) 1 - daysTo year month 1

/-- The first and the last year of the calendar. -/
def isYear (year : Int) : Bool := -262143 ≤ year && year ≤ 262142

/-- The point in time that a text names, or the first fault in it. -/
def parse (text : String) : Except Fault Instant := do
  let (year, cs) ← year text.toList
  let (month, cs) ← between 1 12 (← after '-' cs)
  let (day, cs) ← between 1 31 (← after '-' cs)
  let (hour, cs) ← between 0 23 (← afterDate cs)
  let (minute, cs) ← between 0 59 (← after ':' cs)
  let (second, cs) ← between 0 60 (← after ':' cs)
  let (nanos, cs) ← fraction cs
  let (zone, cs) ← zone (skipBlank cs)
  let inserted := second = 60
  let second := if inserted then 59 else second
  let seconds := daysTo year month day * 86400 + hour * 3600 + minute * 60 + second - zone
  if !(skipBlank cs).isEmpty then .error .tooLong
  else if !isYear year || daysIn year month < day || 86400 ≤ zone.natAbs then .error .outOfRange
  else if !isYear (dateAfter (seconds.fdiv 86400)).1 then .error .impossible
  else return ⟨seconds, if inserted then nanos + 1000000000 else nanos⟩

/-- The point in time that a text names, if it names one. -/
def read? (text : String) : Option Instant := (parse text).toOption

/-! ### Writing -/

/-- A number with zeros in front of it. -/
def padded (width n : Nat) : String :=
  let digits := Nat.repr n
  Text.repeated '0' (width - digits.length) ++ digits

/-- A year with four digits; one before the year zero or after the year 9999 has a sign. -/
def yearText (year : Int) : String :=
  if 0 ≤ year && year ≤ 9999 then padded 4 year.toNat
  else (if year < 0 then "-" else "+") ++ padded 4 year.natAbs

/-- A fraction of a second with three, six or nine digits, as few as it needs. -/
def fractionText (nanos : Nat) : String :=
  if nanos = 0 then ""
  else if nanos % 1000000 = 0 then "." ++ padded 3 (nanos / 1000000)
  else if nanos % 1000 = 0 then "." ++ padded 6 (nanos / 1000)
  else "." ++ padded 9 nanos

/-- A point in time in universal time, with a sign for that at its end. -/
def written (t : Instant) (zone : String) : String :=
  let days := t.seconds.fdiv 86400
  let ofDay := (t.seconds - days * 86400).toNat
  let (year, month, day) := dateAfter days
  let second := ofDay % 60 + t.nanos / 1000000000
  s!"{yearText year}-{padded 2 month.toNat}-{padded 2 day.toNat}T" ++
    s!"{padded 2 (ofDay / 3600)}:{padded 2 (ofDay / 60 % 60)}:{padded 2 second}" ++
    fractionText (t.nanos % 1000000000) ++ zone

/-- A point in time in universal time, to the second and without signs between the parts. -/
def compact (t : Instant) : String :=
  String.ofList (((written ⟨t.seconds, 0⟩ "Z").toList).filter fun c => c != '-' && c != ':')

end Instant

end EdgeHealth
