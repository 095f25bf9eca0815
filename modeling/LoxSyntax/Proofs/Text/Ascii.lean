/-!
The ASCII letters and digits as ranges of code points, and what becomes of them in lower case.
-/

namespace LoxSyntax.Text

theorem isUpper_iff (c : Char) : c.isUpper = true ↔ 65 ≤ c.toNat ∧ c.toNat ≤ 90 :=
  decide_eq_true_iff

theorem isLower_iff (c : Char) : c.isLower = true ↔ 97 ≤ c.toNat ∧ c.toNat ≤ 122 := by
  change (decide ('a'.val ≤ c.val) && decide (c.val ≤ 'z'.val)) = true ↔ _
  rw [Bool.and_eq_true, decide_eq_true_iff, decide_eq_true_iff]
  rfl

theorem isDigit_iff (c : Char) : c.isDigit = true ↔ 48 ≤ c.toNat ∧ c.toNat ≤ 57 :=
  Char.isDigit_iff_toNat

theorem isAlpha_iff (c : Char) :
    c.isAlpha = true ↔ (65 ≤ c.toNat ∧ c.toNat ≤ 90) ∨ (97 ≤ c.toNat ∧ c.toNat ≤ 122) := by
  rw [← isUpper_iff, ← isLower_iff, ← Bool.or_eq_true]
  rfl

theorem isAlphanum_iff (c : Char) : c.isAlphanum = true ↔ c.isAlpha = true ∨ c.isDigit = true := by
  rw [← Bool.or_eq_true]
  rfl

theorem toNat_toLower (c : Char) :
    c.toLower.toNat = if c.isUpper then c.toNat + 32 else c.toNat := by
  have hupper : (c.val ≥ 'A'.val ∧ c.val ≤ 'Z'.val) ↔ c.isUpper = true := decide_eq_true_iff.symm
  unfold Char.toLower
  split
  · next h =>
      rw [if_pos (hupper.1 h)]
      have hlast : c.val.toNat ≤ 90 := UInt32.le_iff_toNat_le.1 h.2
      have hbound : c.val.toNat + 32 < 2 ^ 32 := by omega
      change (c.val + 32).toNat = c.val.toNat + 32
      rw [UInt32.toNat_add]
      exact Nat.mod_eq_of_lt hbound
  · next h => rw [if_neg (mt hupper.2 h)]

theorem toLower_of_not_isUpper {c : Char} (h : c.isUpper = false) : c.toLower = c := by
  rw [← Char.toNat_inj, toNat_toLower, h, if_neg Bool.false_ne_true]

theorem isUpper_toLower (c : Char) : c.toLower.isUpper = false := by
  rw [Bool.eq_false_iff, ne_eq, isUpper_iff, toNat_toLower]
  split
  · next h =>
      rw [isUpper_iff] at h
      omega
  · next h => rwa [isUpper_iff] at h

theorem isAlpha_toLower (c : Char) : c.toLower.isAlpha = c.isAlpha := by
  rw [Bool.eq_iff_iff, isAlpha_iff, isAlpha_iff, toNat_toLower]
  split
  · next h =>
      rw [isUpper_iff] at h
      omega
  · exact Iff.rfl

theorem isAlphanum_toLower (c : Char) : c.toLower.isAlphanum = c.isAlphanum := by
  rw [Bool.eq_iff_iff, isAlphanum_iff, isAlphanum_iff, isAlpha_toLower, isDigit_iff, isDigit_iff,
    isAlpha_iff, toNat_toLower]
  split
  · next h =>
      rw [isUpper_iff] at h
      omega
  · exact Iff.rfl

theorem toLower_eq_underscore_iff {c : Char} : c.toLower = '_' ↔ c = '_' := by
  rw [← Char.toNat_inj, ← Char.toNat_inj, toNat_toLower]
  split
  · next h =>
      rw [isUpper_iff] at h
      change c.toNat + 32 = 95 ↔ c.toNat = 95
      omega
  · exact Iff.rfl

end LoxSyntax.Text
