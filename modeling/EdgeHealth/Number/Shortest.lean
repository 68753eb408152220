import EdgeHealth.Number.Binary64
import EdgeHealth.Text.Pieces

/-!
# Floating-point numbers as decimal text

Two ways to write a floating-point number in decimal: with the fewest digits that read back as the
same number, and with one place after the point.

## Main definitions

* `shortest` : the fewest digits that read back, with the place of the first one.
* `FloatLayout` : the decisions of a format around those digits.
* `FloatLayout.write` : a number written in a format.
* `onePlace` : a number written with one place after the point.
-/

namespace EdgeHealth.Number

open EdgeHealth.Text

/-- The numerator and the denominator of `num / den * 10 ^ e`. -/
def scaleDecimal (num den : Nat) (e : Int) : Nat × Nat :=
  match e with
  | .ofNat k => (num * Nat.pow 10 k, den)
  | .negSucc k => (num, den * Nat.pow 10 (k + 1))

/-- How many factors of ten lift a quotient below one to at least one, counted from `k`. -/
def leadingZeros (den : Nat) (k : Nat) : Nat → Nat → Nat
  | 0, _ => k
  | fuel + 1, num => if den ≤ num then k else leadingZeros den (k + 1) fuel (num * 10)

/-- The exponent of ten of the first digit of a positive quotient `num / den`, which is at least
`10 ^ -400`. -/
def decimalExponent (num den : Nat) : Int :=
  if den ≤ num then (Nat.repr (num / den)).length - 1
  else -(leadingZeros den 0 400 num : Int)

/-- The digits of a natural number without zeros at their end, for a number with at most `fuel`
digits. -/
def dropZeros : Nat → Nat → Nat
  | 0, n => n
  | fuel + 1, n => if n % 10 = 0 && n ≠ 0 then dropZeros fuel (n / 10) else n

/-- The decimal with `count` digits that reads back as `x`, which is `num / den` with its first
digit at `10 ^ top`. Only the two neighbours of the quotient on the grid of such decimals can read
back unless farther ones do too; of two that do, the nearer is taken, and the even one of two that
are equally near. -/
def withDigits? (x : Binary64) (num den : Nat) (top : Int) (count : Nat) : Option Nat :=
  let place : Int := top + 1 - count
  let scaled := scaleDecimal num den (-place)
  let low := scaled.1 / scaled.2
  let rest := scaled.1 % scaled.2
  let reads (n : Nat) : Bool := Binary64.ofDecimal false n place == x
  let upFirst := scaled.2 < 2 * rest || (scaled.2 == 2 * rest && low % 2 == 1)
  let first := if upFirst then low + 1 else low
  let second := if upFirst then low else low + 1
  if reads first then some first else if reads second then some second else none

/-- The first count of digits, from `count` on, that reads back, with the digits. -/
def searchDigits (x : Binary64) (num den : Nat) (top : Int) : Nat → Nat → Nat × Nat
  | 0, count => ((withDigits? x num den top count).getD 0, count)
  | fuel + 1, count =>
    match withDigits? x num den top count with
    | some n => (n, count)
    | none => searchDigits x num den top fuel (count + 1)

/-- The fewest digits that read back as the positive finite number `m * 2 ^ q`, and the exponent of
ten of the first digit. Seventeen digits always suffice. -/
def shortest (m : Nat) (q : Int) : String × Int :=
  let quotient := scaleBinary m 1 q
  let top := decimalExponent quotient.1 quotient.2
  let found := searchDigits (.finite false m q) quotient.1 quotient.2 top 16 1
  let written := Nat.repr found.1
  (Nat.repr (dropZeros 20 found.1), top + written.length - found.2)

/-- What a format decides about a floating-point number beyond its digits. -/
structure FloatLayout where
  /-- The least exponent of ten of the first digit that is written without an exponent. -/
  fixedFrom : Int
  /-- The greatest exponent of ten of the first digit that is written without an exponent. -/
  fixedTo : Int
  /-- Whether a positive exponent has a plus sign. -/
  plusSign : Bool
  /-- The text of the undefined number. -/
  nanText : String
  /-- The text of positive infinity. -/
  infinityText : String
  deriving Repr

/-- Digits with a point, for a number whose first digit stands at `10 ^ top`. A whole number has
one zero after its point. -/
def fixedText (digits : String) (top : Int) : String :=
  match top with
  | .negSucc k => "0." ++ repeated '0' k ++ digits
  | .ofNat k =>
    if digits.length ≤ k + 1 then digits ++ repeated '0' (k + 1 - digits.length) ++ ".0"
    else
      String.ofList (digits.toList.take (k + 1)) ++ "." ++
        String.ofList (digits.toList.drop (k + 1))

/-- Digits with a point after the first one, if more follow, and an exponent. -/
def exponentText (plusSign : Bool) (digits : String) (top : Int) : String :=
  let mantissa := match digits.toList with
    | first :: second :: rest => String.ofList (first :: '.' :: second :: rest)
    | _ => digits
  mantissa ++ "e" ++ (if plusSign && 0 ≤ top then "+" else "") ++ ofInt top

/-- A number written in a format, with the fewest digits that read back. -/
def FloatLayout.write (layout : FloatLayout) : Binary64 → String
  | .nan => layout.nanText
  | .infinite negative => (if negative then "-" else "") ++ layout.infinityText
  | .finite negative m e =>
    (if negative then "-" else "") ++
      if m = 0 then "0.0"
      else
        let found := shortest m e
        if layout.fixedFrom ≤ found.2 && found.2 ≤ layout.fixedTo then fixedText found.1 found.2
        else exponentText layout.plusSign found.1 found.2

/-- The format of the statistics: positional from `10 ^ -4` to below `10 ^ 16`. -/
def statisticText : FloatLayout := ⟨-4, 15, false, "NaN", "inf"⟩

/-- A nonnegative finite number with one place after the point; of two places equally near the
even one is taken. -/
def onePlace (m : Nat) (e : Int) : String :=
  let scaled := scaleBinary (m * 10) 1 e
  let tenths := roundQuotient scaled.1 scaled.2
  Nat.repr (tenths / 10) ++ "." ++ Nat.repr (tenths % 10)

end EdgeHealth.Number
