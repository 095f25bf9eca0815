import LoxSyntax.Number.Binary64

/-!
Shortest digits. Among the decimals that read back as a given number, this picks one with the
fewest digits, of those the nearest to the number, and of two equally near the larger.
-/

namespace LoxSyntax.Number

/-- A decimal `0.d₁d₂…dₙ * 10 ^ point` by its digits and the place of its point. -/
structure Decimal where
  digits : List Char
  point : Int
  deriving DecidableEq, Repr

/-- The reals that read back as one number, with the number itself, as fractions over one
denominator. The ends belong to them iff `closed`. -/
structure Neighbourhood where
  low : Nat
  value : Nat
  high : Nat
  denominator : Nat
  closed : Bool

namespace Neighbourhood

/-- What reads back as `mantissa * 2 ^ exponent` units: half a step to each side, and below a power
of two half of the smaller step. -/
def ofParts (mantissa exponent : Nat) : Neighbourhood where
  low :=
    (4 * mantissa - if mantissa = Nat.pow 2 52 ∧ 0 < exponent then 1 else 2) * Nat.pow 2 exponent
  value := 4 * mantissa * Nat.pow 2 exponent
  high := (4 * mantissa + 2) * Nat.pow 2 exponent
  denominator := Nat.pow 2 1076
  closed := mantissa % 2 == 0

/-- The same reals, and the number, multiplied by a power of ten. -/
def scale (n : Neighbourhood) (power : Int) : Neighbourhood :=
  if 0 ≤ power then
    { n with
      low := n.low * Nat.pow 10 power.toNat
      value := n.value * Nat.pow 10 power.toNat
      high := n.high * Nat.pow 10 power.toNat }
  else { n with denominator := n.denominator * Nat.pow 10 (-power).toNat }

def contains (n : Neighbourhood) (k : Nat) : Bool :=
  let k := k * n.denominator
  if n.closed then n.low ≤ k && k ≤ n.high else n.low < k && k < n.high

/-- The whole number among the reals that is nearest to the number. -/
def nearest? (n : Neighbourhood) : Option Nat :=
  let below := n.value / n.denominator
  let above := below + 1
  let nearerAbove := n.denominator ≤ 2 * (n.value % n.denominator)
  match n.contains below, n.contains above with
  | true, true => some (if nearerAbove then above else below)
  | true, false => some below
  | false, true => some above
  | false, false => none

/-- The power of ten just above the number: the place of its point. -/
def point (n : Neighbourhood) : Int :=
  (Nat.toDigits 10 (n.value * Nat.pow 10 400 / n.denominator)).length - 400

end Neighbourhood

/-- The first of the grids with `count`, `count + 1`, … digits that has a point reading back. -/
def shortestFrom (n : Neighbourhood) (point : Int) (count : Nat) : Nat → Option (Nat × Int)
  | 0 => none
  | more + 1 =>
      match (n.scale (count - point)).nearest? with
      | some k => some (k, point - count)
      | none => shortestFrom n point (count + 1) more

/-- The digits of `k * 10 ^ power` without zeros at the end. -/
def Decimal.ofNat (k : Nat) (power : Int) : Decimal :=
  let digits := Nat.toDigits 10 k
  { digits := (digits.reverse.dropWhile (· == '0')).reverse
    point := digits.length + power }

/-- The shortest decimal of a finite number that is not zero; 17 digits always suffice. -/
def shortest (mantissa exponent : Nat) : Decimal :=
  let n := Neighbourhood.ofParts mantissa exponent
  let found := (shortestFrom n n.point 1 17).map fun (k, power) => Decimal.ofNat k power
  found.getD ⟨[], 0⟩

end LoxSyntax.Number
