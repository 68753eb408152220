/-!
# Binary floating point with 53 significant bits

The numbers of the 64-bit binary floating-point format as exact data, with its arithmetic. A finite
number is a sign, a significand and an exponent of two; every operation computes the exact result
as a quotient of natural numbers and rounds it once, to the nearest number of the format and to the
even one of two that are equally near.

## Main definitions

* `Binary64` : the numbers of the format.
* `Binary64.round` : the number nearest to a quotient.
* `Binary64.add`, `Binary64.mul`, `Binary64.div`, `Binary64.max` : the arithmetic.
* `Binary64.le` : the order, in which the undefined number has no place.
* `Binary64.clamp` : the whole part, kept between zero and a bound.
-/

namespace EdgeHealth

/-- A number of the 64-bit binary floating-point format. The finite number with significand `m` and
exponent `q` has the absolute value `m * 2 ^ q`; it is written with `m < 2 ^ 53` and
`-1074 ≤ q ≤ 971`, and with `2 ^ 52 ≤ m` unless `q = -1074`. -/
inductive Binary64 where
  /-- The undefined number. -/
  | nan
  /-- Infinity of either sign. -/
  | infinite (negative : Bool)
  /-- A finite number, zero included. -/
  | finite (negative : Bool) (significand : Nat) (exponent : Int)
  deriving DecidableEq, Repr, Inhabited

/-- The quotient of two natural numbers, rounded to the nearest and to the even one of two that are
equally near. -/
def roundQuotient (num den : Nat) : Nat :=
  let quotient := num / den
  let rest := num % den
  if den < 2 * rest || (den == 2 * rest && quotient % 2 == 1) then quotient + 1 else quotient

/-- The numerator and the denominator of `num / den * 2 ^ e`. -/
def scaleBinary (num den : Nat) (e : Int) : Nat × Nat :=
  match e with
  | .ofNat k => (num <<< k, den)
  | .negSucc k => (num, den <<< (k + 1))

/-- The greatest `e` with `2 ^ e ≤ num / den`, for a positive quotient. -/
def floorLog2 (num den : Nat) : Int :=
  let e : Int := (num.log2 : Int) - (den.log2 : Int)
  let scaled := scaleBinary num den (-e)
  if scaled.2 ≤ scaled.1 then e else e - 1

namespace Binary64

/-- The least exponent of a finite number. -/
def minExponent : Int := -1074

/-- The greatest exponent of a finite number. -/
def maxExponent : Int := 971

/-- Zero of either sign. -/
def zero (negative : Bool) : Binary64 := .finite negative 0 minExponent

/-- The number with a rounded significand. A significand that rounding has carried to `2 ^ 53` moves
to the next exponent, and an exponent that is too great makes the number infinite. -/
def ofSignificand (negative : Bool) (m : Nat) (e : Int) : Binary64 :=
  let carried := if m = 1 <<< 53 then (1 <<< 52, e + 1) else (m, e)
  if maxExponent < carried.2 then .infinite negative else .finite negative carried.1 carried.2

/-- The number nearest to `num / den`, negated if asked. -/
def round (negative : Bool) (num den : Nat) : Binary64 :=
  if num = 0 then zero negative
  else
    let e := max minExponent (floorLog2 num den - 52)
    let scaled := scaleBinary num den (-e)
    ofSignificand negative (roundQuotient scaled.1 scaled.2) e

/-- The number nearest to a natural number. -/
def ofNat (n : Nat) : Binary64 := round false n 1

/-- The number nearest to `m * 2 ^ e`, negated if asked. -/
def ofScaled (negative : Bool) (m : Nat) (e : Int) : Binary64 :=
  let scaled := scaleBinary m 1 e
  round negative scaled.1 scaled.2

/-- Decimal exponents beyond these bounds give infinity or zero whatever the digits are, so that the
powers of ten that are computed stay small. -/
def decimalBound : Int := 400

/-- The number nearest to `digits * 10 ^ exponent`, negated if asked. -/
def ofDecimal (negative : Bool) (digits : Nat) (exponent : Int) : Binary64 :=
  if digits = 0 then zero negative
  else
    let size : Int := (Nat.repr digits).length + exponent
    if decimalBound < size then .infinite negative
    else if size < -decimalBound then zero negative
    else
      match exponent with
      | .ofNat k => round negative (digits * Nat.pow 10 k) 1
      | .negSucc k => round negative digits (Nat.pow 10 (k + 1))

/-- Whether a number is finite. -/
def isFinite : Binary64 → Bool
  | .finite .. => true
  | _ => false

/-- The number with the other sign. -/
def neg : Binary64 → Binary64
  | .nan => .nan
  | .infinite negative => .infinite !negative
  | .finite negative m e => .finite (!negative) m e

/-- A finite number as an integer times a power of two that is not above its own. -/
def scaledTo (e : Int) (negative : Bool) (m : Nat) (q : Int) : Int :=
  let size : Int := (m <<< (q - e).toNat : Nat)
  if negative then -size else size

/-- The sum. The sum of opposite numbers is positive zero, and that of two negative zeros is
negative zero. -/
def add : Binary64 → Binary64 → Binary64
  | .nan, _ => .nan
  | _, .nan => .nan
  | .infinite s, .infinite t => if s = t then .infinite s else .nan
  | .infinite s, _ => .infinite s
  | _, .infinite t => .infinite t
  | .finite s m p, .finite t n q =>
    let e := min p q
    let sum := scaledTo e s m p + scaledTo e t n q
    if sum = 0 then zero (s && t) else ofScaled (decide (sum < 0)) sum.natAbs e

/-- The product. -/
def mul : Binary64 → Binary64 → Binary64
  | .nan, _ => .nan
  | _, .nan => .nan
  | .infinite s, .infinite t => .infinite (xor s t)
  | .infinite s, .finite t n _ => if n = 0 then .nan else .infinite (xor s t)
  | .finite s m _, .infinite t => if m = 0 then .nan else .infinite (xor s t)
  | .finite s m p, .finite t n q => ofScaled (xor s t) (m * n) (p + q)

/-- The quotient. -/
def div : Binary64 → Binary64 → Binary64
  | .nan, _ => .nan
  | _, .nan => .nan
  | .infinite _, .infinite _ => .nan
  | .infinite s, .finite t _ _ => .infinite (xor s t)
  | .finite s _ _, .infinite t => zero (xor s t)
  | .finite s m p, .finite t n q =>
    if n = 0 then if m = 0 then .nan else .infinite (xor s t)
    else
      let scaled := scaleBinary m n (p - q)
      round (xor s t) scaled.1 scaled.2

/-- Whether the first number is at most the second; false as soon as one is undefined. -/
def le : Binary64 → Binary64 → Bool
  | .nan, _ => false
  | _, .nan => false
  | .infinite s, .infinite t => s || !t
  | .infinite s, .finite .. => s
  | .finite .., .infinite t => !t
  | .finite s m p, .finite t n q =>
    let e := min p q
    decide (scaledTo e s m p ≤ scaledTo e t n q)

/-- The greater of two numbers; an undefined one gives way to the other. -/
def max (x y : Binary64) : Binary64 :=
  match x, y with
  | .nan, y => y
  | x, .nan => x
  | x, y => if le x y then y else x

/-- The whole part of the absolute value of a finite number. -/
def wholePart (m : Nat) (e : Int) : Nat :=
  let scaled := scaleBinary m 1 e
  scaled.1 / scaled.2

/-- The whole part of a number, kept between zero and `bound`; zero for the undefined number. -/
def clamp (bound : Nat) : Binary64 → Nat
  | .nan => 0
  | .infinite negative => if negative then 0 else bound
  | .finite negative m e => if negative then 0 else min bound (wholePart m e)

end Binary64

end EdgeHealth
