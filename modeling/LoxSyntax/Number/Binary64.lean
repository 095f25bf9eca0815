/-!
Numbers without a sign in the binary64 format. A finite one is a whole mantissa times a power of
two; reading a decimal rounds to the nearest one, a half going to the even mantissa, and what lies
half a step or more above the largest is infinite.
-/

namespace LoxSyntax.Number

/-- A number that binary64 holds: `finite m e` is `m * 2 ^ e` in units of `2 ^ -1074`. -/
inductive Binary64
  | finite (mantissa exponent : Nat)
  | infinite
  deriving DecidableEq, Repr

/-- The whole number nearest to a fraction, a half going to the even neighbour. -/
def roundRatio (numerator denominator : Nat) : Nat :=
  let quotient := numerator / denominator
  let twice := 2 * (numerator % denominator)
  if twice < denominator then quotient
  else if denominator < twice then quotient + 1
  else quotient + quotient % 2

namespace Binary64

/-- Mantissas lie below this bound; at exponents above zero they are at least half of it. -/
def mantissaBound : Nat := Nat.pow 2 53

/-- The largest exponent of a finite number. -/
def maxExponent : Nat := 2045

def unitsOfOne : Nat := Nat.pow 2 1074

/-- The number with this mantissa and exponent, where the mantissa may have reached its bound. -/
def ofRounded (mantissa exponent : Nat) : Binary64 :=
  let (m, e) :=
    if mantissa < mantissaBound then (mantissa, exponent) else (mantissa / 2, exponent + 1)
  if e ≤ maxExponent then .finite m e else .infinite

/-- The number nearest to a fraction. -/
def ofRatio (numerator denominator : Nat) : Binary64 :=
  let units := numerator * unitsOfOne
  let exponent := (units / denominator).log2 - 52
  ofRounded (roundRatio units (denominator * Nat.pow 2 exponent)) exponent

/-- The number nearest to `digits`, of which the last `places` stand after the point. -/
def ofDecimal (digits places : Nat) : Binary64 :=
  ofRatio digits (Nat.pow 10 places)

def bits : Binary64 → Nat
  | .finite mantissa exponent => exponent * Nat.pow 2 52 + mantissa
  | .infinite => 0x7ff0000000000000

def hexBits (x : Binary64) : String :=
  let digits := Nat.toDigits 16 x.bits
  String.ofList (List.replicate (16 - digits.length) '0' ++ digits)

end Binary64

end LoxSyntax.Number
