import EdgeHealth.Number.Literal

/-!
# Plain scalars

What a scalar of a YAML text stands for when it is written without quotation marks: nothing, a truth
value, an integer, a floating-point number or a text.

## Main definitions

* `Yaml.isNullWord`, `Yaml.boolWord?` : the words for nothing and for the truth values.
* `Yaml.isPaddedDigits` : runs of digits that are texts because they start with a zero.
* `Yaml.unsigned?` : a natural number in base ten, sixteen, eight or two.
* `Yaml.isText` : whether a scalar stands for itself.
-/

namespace EdgeHealth.Yaml

open EdgeHealth.Number EdgeHealth.Text

/-- Whether a scalar is a word for nothing. -/
def isNullWord (s : String) : Bool := ["null", "Null", "NULL", "~"].contains s

/-- The truth value that a scalar is a word for. -/
def boolWord? (s : String) : Option Bool :=
  if ["true", "True", "TRUE"].contains s then some true
  else if ["false", "False", "FALSE"].contains s then some false
  else none

/-- A text without one sign at its start. -/
def dropSign : List Char → List Char
  | '+' :: rest => rest
  | '-' :: rest => rest
  | cs => cs

/-- Whether a scalar is a run of two or more digits that starts with a zero, with an optional sign.
Such a run is a text. -/
def isPaddedDigits (cs : List Char) : Bool :=
  match dropSign cs with
  | '0' :: next :: rest => (next :: rest).all Char.isDigit
  | _ => false

/-- The value of a digit of any base up to sixteen. -/
def digitOf? (base : Nat) (c : Char) : Option Nat :=
  let value :=
    if c.isDigit then some (digitValue c)
    else if 'a' ≤ c && c ≤ 'f' then some (c.toNat - 'a'.toNat + 10)
    else if 'A' ≤ c && c ≤ 'F' then some (c.toNat - 'A'.toNat + 10)
    else none
  value.filter (· < base)

/-- The value of digits that follow digits of value `acc`. -/
def digitsIn (base acc : Nat) : List Char → Option Nat
  | [] => some acc
  | c :: rest => (digitOf? base c).bind fun d => digitsIn base (acc * base + d) rest

/-- The value of a nonempty run of digits. -/
def number? (base : Nat) (cs : List Char) : Option Nat :=
  if cs.isEmpty then none else digitsIn base 0 cs

/-- A number after one of the marks for the bases sixteen, eight and two. -/
def marked? : List Char → Option Nat
  | '0' :: 'x' :: rest => number? 16 rest
  | '0' :: 'o' :: rest => number? 8 rest
  | '0' :: 'b' :: rest => number? 2 rest
  | _ => none

/-- A natural number of at most `bound`, in any base and with an optional plus sign. -/
def unsigned? (bound : Nat) (cs : List Char) : Option Nat :=
  let body := match cs with
    | '+' :: rest => rest
    | _ => cs
  ((marked? body).filter (· ≤ bound)).or
    (if isPaddedDigits cs then none else (digits? body).filter (· ≤ bound))

/-- The absolute value of a negative integer of at least `-bound`, in any base. -/
def negative? (bound : Nat) (cs : List Char) : Option Nat :=
  match cs with
  | '-' :: body =>
    ((marked? body).filter (· ≤ bound)).or
      (if isPaddedDigits cs then none else (digits? body).filter (· ≤ bound))
  | _ => none

/-- Whether a scalar is an integer of 128 bits, with or without sign. -/
def isInteger (cs : List Char) : Bool :=
  (unsigned? ((1 <<< 128) - 1) cs).isSome || (negative? (1 <<< 127) cs).isSome

/-- The spellings of the numbers that are not finite. -/
def specialWords : List String :=
  [".inf", ".Inf", ".INF", "+.inf", "+.Inf", "+.INF", "-.inf", "-.Inf", "-.INF", ".nan", ".NaN",
    ".NAN"]

/-- A text without a plus sign at its start; nothing for a text with a second sign. -/
def dropPlus? : List Char → Option (List Char)
  | '+' :: rest =>
    match rest with
    | '+' :: _ => none
    | '-' :: _ => none
    | _ => some rest
  | cs => some cs

/-- Whether a scalar is a floating-point number. -/
def isFloat (cs : List Char) : Bool :=
  specialWords.contains (String.ofList cs) ||
    ((dropPlus? cs).bind float?).any Binary64.isFinite

/-- Whether a plain scalar stands for itself and not for a value of another type. Runs of digits
that start with a zero stand for themselves too, but are no less in doubt. -/
def isText (s : String) : Bool :=
  let cs := s.toList
  !(cs.isEmpty || isNullWord s || (boolWord? s).isSome || isInteger cs || isPaddedDigits cs ||
    isFloat cs)

end EdgeHealth.Yaml
