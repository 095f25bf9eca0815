import LoxSyntax.Number.Shortest

/-!
Layouts of a number. All three write the shortest digits that read back; they differ in where the
exponent form begins, in whether a whole number keeps `.0`, and in the word for infinity.
-/

namespace LoxSyntax.Number

structure Layout where
  /-- The places of the point, lowest and highest, that are written without an exponent. -/
  positional : Option (Int × Int)
  /-- Whether a whole number is written with `.0`. -/
  pointZero : Bool
  infinity : String

namespace Layout

/-- Values as a program prints them: digits only. -/
def plain : Layout := ⟨none, false, "inf"⟩

/-- Values inside a record dump: an exponent below 1e-4 and from 1e16 on. -/
def dump : Layout := ⟨some (-3, 16), true, "inf"⟩

/-- Values in JSON: an exponent below 1e-5 and from 1e16 on, and no infinity. -/
def json : Layout := ⟨some (-4, 16), true, "null"⟩

def writePositional (layout : Layout) (d : Decimal) : List Char :=
  let n := d.digits.length
  if d.point ≤ 0 then ['0', '.'] ++ List.replicate (-d.point).toNat '0' ++ d.digits
  else if n ≤ d.point.toNat then
    d.digits ++ List.replicate (d.point.toNat - n) '0' ++
      if layout.pointZero then ['.', '0'] else []
  else d.digits.take d.point.toNat ++ '.' :: d.digits.drop d.point.toNat

def writeExponent (d : Decimal) : List Char :=
  d.digits.take 1 ++
    (if d.digits.length ≤ 1 then [] else '.' :: d.digits.drop 1) ++
    'e' :: (toString (d.point - 1)).toList

def write (layout : Layout) : Binary64 → String
  | .infinite => layout.infinity
  | .finite 0 _ => if layout.pointZero then "0.0" else "0"
  | .finite mantissa exponent =>
      let d := shortest mantissa exponent
      let isPositional := layout.positional.all fun (low, high) => low ≤ d.point && d.point ≤ high
      String.ofList (if isPositional then layout.writePositional d else writeExponent d)

end Layout

end LoxSyntax.Number
