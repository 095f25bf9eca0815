import LoxSyntax.Number.Binary64

/-!
Reading numbers. A number is written with decimal digits, and may have a point with digits on both
sides of it; every such text has a value, and no other text has one.
-/

namespace LoxSyntax.Number

/-- The number that decimal digits write. -/
def digitsValue (digits : List Char) : Nat :=
  Nat.ofDigitChars 10 digits 0

/-- Whether the text consists of digits, of which there is one at least. -/
def isDigits (cs : List Char) : Bool :=
  !cs.isEmpty && cs.all Char.isDigit

def Binary64.parse? (text : List Char) : Option Binary64 :=
  let whole := text.takeWhile Char.isDigit
  match text.dropWhile Char.isDigit with
  | [] => if isDigits whole then some (ofDecimal (digitsValue whole) 0) else none
  | point :: places =>
      if point = '.' && isDigits whole && isDigits places then
        some (ofDecimal (digitsValue (whole ++ places)) places.length)
      else none

theorem isDigits_iff (cs : List Char) :
    isDigits cs = true ↔ cs ≠ [] ∧ ∀ c ∈ cs, c.isDigit = true := by
  simp [isDigits]

theorem Binary64.parse?_whole {whole : List Char} (h : isDigits whole = true) :
    parse? whole = some (ofDecimal (digitsValue whole) 0) := by
  have hdigits := ((isDigits_iff whole).1 h).2
  have htake : whole.takeWhile Char.isDigit = whole := by
    rw [← List.append_nil whole, List.takeWhile_append_of_pos hdigits, List.takeWhile_nil]
  have hdrop : whole.dropWhile Char.isDigit = [] := by
    rw [← List.append_nil whole, List.dropWhile_append_of_pos hdigits, List.dropWhile_nil]
  simp [parse?, htake, hdrop, h]

theorem Binary64.parse?_fraction {whole places : List Char} (hwhole : isDigits whole = true)
    (hplaces : isDigits places = true) :
    parse? (whole ++ '.' :: places) =
      some (ofDecimal (digitsValue (whole ++ places)) places.length) := by
  have hdigits := ((isDigits_iff whole).1 hwhole).2
  have hpoint : ¬ '.'.isDigit = true := by decide
  have htake : (whole ++ '.' :: places).takeWhile Char.isDigit = whole := by
    rw [List.takeWhile_append_of_pos hdigits, List.takeWhile_cons_of_neg hpoint, List.append_nil]
  have hdrop : (whole ++ '.' :: places).dropWhile Char.isDigit = '.' :: places := by
    rw [List.dropWhile_append_of_pos hdigits, List.dropWhile_cons_of_neg hpoint]
  simp [parse?, htake, hdrop, hwhole, hplaces]

end LoxSyntax.Number
