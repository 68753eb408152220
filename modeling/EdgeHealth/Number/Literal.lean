import EdgeHealth.Number.Binary64
import EdgeHealth.Text.Pieces

/-!
# Number literals

How numbers are written where they are read from text: natural numbers in decimal with a bound, and
floating-point numbers in decimal with an optional fraction and exponent.

## Main definitions

* `digitsValue` : the value of a run of decimal digits.
* `natural?` : a natural number up to a bound, with an optional plus sign.
* `integer?` : an integer between two bounds, with an optional sign.
* `Decimal` : a decimal number as written, and `decimal?`, which reads one.
* `float?` : a floating-point number.
-/

namespace EdgeHealth.Number

open EdgeHealth.Text

/-- The value of a decimal digit. -/
def digitValue (c : Char) : Nat := c.toNat - '0'.toNat

/-- The value of a run of decimal digits that follows digits of value `acc`. -/
def digitsValueFrom (acc : Nat) : List Char → Nat
  | [] => acc
  | c :: rest => digitsValueFrom (acc * 10 + digitValue c) rest

/-- The value of a run of decimal digits; zero for the empty run. -/
def digitsValue (cs : List Char) : Nat := digitsValueFrom 0 cs

/-- The value of a nonempty run that holds nothing but decimal digits. -/
def digits? (cs : List Char) : Option Nat :=
  if cs.isEmpty then none else if cs.all Char.isDigit then some (digitsValue cs) else none

/-- The greatest 64-bit natural number. -/
def maxUInt64 : Nat := UInt64.size - 1

/-- The greatest 16-bit natural number. -/
def maxUInt16 : Nat := UInt16.size - 1

/-- A natural number of at most `bound`: decimal digits after an optional plus sign. -/
def natural? (bound : Nat) (cs : List Char) : Option Nat :=
  let body := match cs with
    | '+' :: rest => rest
    | _ => cs
  (digits? body).filter (· ≤ bound)

/-- An integer from `lo` to `hi`: decimal digits after an optional sign. -/
def integer? (lo hi : Int) (cs : List Char) : Option Int :=
  let value := match cs with
    | '+' :: rest => (digits? rest).map Int.ofNat
    | '-' :: rest => (digits? rest).map fun n => -(n : Int)
    | _ => (digits? cs).map Int.ofNat
  value.filter fun i => lo ≤ i && i ≤ hi

/-- A 64-bit integer with sign. -/
def int64? (cs : List Char) : Option Int :=
  integer? Int64.minValue.toInt Int64.maxValue.toInt cs

/-- A decimal number as it is written: `digits * 10 ^ exponent`, negated if asked. -/
structure Decimal where
  /-- Whether a minus sign was written. -/
  negative : Bool
  /-- All digits, the fraction included, as one natural number. -/
  digits : Nat
  /-- The written exponent less the count of the digits of the fraction. -/
  exponent : Int
  deriving DecidableEq, Repr

/-- The sign before a number, and what follows. -/
def signOf : List Char → Bool × List Char
  | '-' :: rest => (true, rest)
  | '+' :: rest => (false, rest)
  | cs => (false, cs)

/-- The exponent after a mantissa: nothing, or the letter `e` of either case, an optional sign and
at least one digit. -/
def exponent? : List Char → Option Int
  | [] => some 0
  | c :: rest =>
    if c = 'e' || c = 'E' then
      let signed := signOf rest
      (digits? signed.2).map fun n => if signed.1 then -(n : Int) else n
    else none

/-- A decimal number without sign: digits with an optional point among, before or after them, then
an optional exponent. -/
def unsigned? (negative : Bool) (cs : List Char) : Option Decimal :=
  let whole := cs.takeWhile Char.isDigit
  let rest := cs.dropWhile Char.isDigit
  let parts := match rest with
    | '.' :: after => (after.takeWhile Char.isDigit, after.dropWhile Char.isDigit)
    | _ => ([], rest)
  if whole.isEmpty && parts.1.isEmpty then none
  else
    (exponent? parts.2).map fun e =>
      ⟨negative, digitsValue (whole ++ parts.1), e - parts.1.length⟩

/-- A decimal number with an optional sign. -/
def decimal? (cs : List Char) : Option Decimal :=
  let signed := signOf cs
  unsigned? signed.1 signed.2

/-- The number that a decimal number is rounded to. -/
def Decimal.toBinary64 (d : Decimal) : Binary64 :=
  .ofDecimal d.negative d.digits d.exponent

/-- The words for numbers that are not finite, in lower case. -/
def special? (negative : Bool) (cs : List Char) : Option Binary64 :=
  let word := String.ofList (cs.map Char.toLower)
  if word = "inf" || word = "infinity" then some (.infinite negative)
  else if word = "nan" then some .nan
  else none

/-- A floating-point number: a decimal number, or a word for one that is not finite, in any case
and with an optional sign. -/
def float? (cs : List Char) : Option Binary64 :=
  match decimal? cs with
  | some d => some d.toBinary64
  | none =>
    let signed := signOf cs
    special? signed.1 signed.2

end EdgeHealth.Number
