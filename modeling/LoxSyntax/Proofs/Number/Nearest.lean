import Mathlib.Data.Nat.Dist
import Mathlib.Tactic.Ring
import LoxSyntax.Number.Reading

/-!
Reading a decimal gives the number nearest to it, and of two that are equally near the one with the
even mantissa. Fractions are compared with numbers as whole numbers, in units of `2 ^ -1074` over
the denominator.
-/

namespace LoxSyntax.Number

section Ratio

variable {denominator : Nat}

/-- Below a half the quotient is taken, above it the next number, and at it the even one of them. -/
theorem roundRatio_cases (numerator denominator : Nat) :
    roundRatio numerator denominator = numerator / denominator ∧
        2 * (numerator % denominator) < denominator ∨
      roundRatio numerator denominator = numerator / denominator + 1 ∧
        denominator < 2 * (numerator % denominator) ∨
      (roundRatio numerator denominator = numerator / denominator ∨
          roundRatio numerator denominator = numerator / denominator + 1) ∧
        denominator = 2 * (numerator % denominator) ∧
        roundRatio numerator denominator % 2 = 0 := by
  rw [roundRatio]
  split
  · omega
  · split
    · omega
    · omega

/-- The multiples of the denominator by the quotient and by the number after it are next to the
numerator, and every other one is a whole denominator farther off. -/
theorem multiple_cases (q denominator k : Nat) :
    k = q ∨ k = q + 1 ∨ k * denominator + denominator ≤ q * denominator ∨
      q * denominator + 2 * denominator ≤ k * denominator := by
  rcases Nat.lt_trichotomy k q with hlt | heq | hlt
  · have hle := Nat.mul_le_mul_right denominator (Nat.succ_le_of_lt hlt)
    rw [Nat.succ_mul] at hle
    exact .inr (.inr (.inl hle))
  · exact .inl heq
  · rcases Nat.eq_or_lt_of_le (Nat.succ_le_of_lt hlt) with heq | hlt
    · exact .inr (.inl heq.symm)
    · have hle := Nat.mul_le_mul_right denominator (Nat.succ_le_of_lt hlt)
      rw [Nat.succ_mul, Nat.succ_mul] at hle
      exact .inr (.inr (.inr (by omega)))

/-- No multiple of the denominator is nearer to the numerator than the rounded one, and where
another is as near the rounded one is even. -/
theorem dist_roundRatio (numerator : Nat) (hpos : 0 < denominator) (k : Nat) :
    Nat.dist (roundRatio numerator denominator * denominator) numerator ≤
        Nat.dist (k * denominator) numerator ∧
      (Nat.dist (k * denominator) numerator =
          Nat.dist (roundRatio numerator denominator * denominator) numerator →
        k = roundRatio numerator denominator ∨ roundRatio numerator denominator % 2 = 0) := by
  have hdivide := Nat.div_add_mod' numerator denominator
  have hrest := Nat.mod_lt numerator hpos
  have hround := roundRatio_cases numerator denominator
  have hmultiple := multiple_cases (numerator / denominator) denominator k
  generalize roundRatio numerator denominator = rounded at *
  generalize numerator / denominator = q at *
  generalize numerator % denominator = r at *
  have hnext : (q + 1) * denominator = q * denominator + denominator := Nat.succ_mul _ _
  unfold Nat.dist
  obtain ⟨rfl, hbelow⟩ | ⟨rfl, habove⟩ | ⟨rfl | rfl, hhalf, heven⟩ := hround
  all_goals
    obtain rfl | rfl | hless | hmore := hmultiple
    all_goals omega

end Ratio

namespace Binary64

/-- The forms that numbers have: only at exponent zero may the mantissa be small. -/
def Canonical : Binary64 → Prop
  | .finite mantissa exponent =>
      mantissa < mantissaBound ∧ exponent ≤ maxExponent ∧
        (0 < exponent → mantissaBound ≤ 2 * mantissa)
  | .infinite => True

/-- The number in units of `2 ^ -1074`. The infinite one stands where the next number after the
largest would. -/
def units : Binary64 → Nat
  | .finite mantissa exponent => mantissa * 2 ^ exponent
  | .infinite => mantissaBound * 2 ^ maxExponent

def EvenMantissa : Binary64 → Prop
  | .finite mantissa _ => mantissa % 2 = 0
  | .infinite => True

/-- How far a number is from a fraction. -/
def distance (numerator denominator : Nat) (x : Binary64) : Nat :=
  Nat.dist (x.units * denominator) (numerator * unitsOfOne)

/-- The number nearest to a fraction, a half going to the even mantissa. -/
structure IsNearest (numerator denominator : Nat) (x : Binary64) : Prop where
  canonical : x.Canonical
  nearest : ∀ y : Binary64, y.Canonical →
    distance numerator denominator x ≤ distance numerator denominator y
  even : ∀ y : Binary64, y.Canonical → y ≠ x →
    distance numerator denominator y = distance numerator denominator x → x.EvenMantissa

section Grid

variable {x y : Binary64} {mantissa exponent m e : Nat}

theorem two_mul_units_lt (hbound : m < mantissaBound) (hlt : e < exponent) :
    2 * units (.finite m e) < mantissaBound * 2 ^ exponent :=
  calc 2 * (m * 2 ^ e)
      = m * 2 ^ (e + 1) := by ring
    _ < mantissaBound * 2 ^ (e + 1) := Nat.mul_lt_mul_of_pos_right hbound (Nat.two_pow_pos _)
    _ ≤ mantissaBound * 2 ^ exponent :=
        Nat.mul_le_mul_left _ (pow_le_pow_right₀ one_le_two hlt)

theorem le_two_mul_units (h : (finite m e).Canonical) (hpos : 0 < e) :
    mantissaBound * 2 ^ e ≤ 2 * units (.finite m e) := by
  rw [units, ← Nat.mul_assoc]
  exact Nat.mul_le_mul_right _ (h.2.2 hpos)

theorem units_lt_infinite (h : (finite m e).Canonical) :
    units (.finite m e) < units .infinite := by
  have hpow : 2 ^ e ≤ 2 ^ maxExponent := pow_le_pow_right₀ one_le_two h.2.1
  rw [units, units]
  exact Nat.lt_of_lt_of_le (Nat.mul_lt_mul_of_pos_right h.1 (Nat.two_pow_pos e))
    (Nat.mul_le_mul_left _ hpow)

theorem units_le_infinite (h : y.Canonical) : y.units ≤ units .infinite := by
  cases y with
  | finite m e => exact Nat.le_of_lt (units_lt_infinite h)
  | infinite => exact Nat.le_refl _

/-- A number is on the grid of an exponent, unless it lies below the numbers of this exponent. -/
theorem dvd_units_or_lt (h : y.Canonical) (hle : e ≤ maxExponent) :
    2 ^ e ∣ y.units ∨ 0 < e ∧ 2 * y.units < mantissaBound * 2 ^ e := by
  cases y with
  | infinite =>
      rw [units]
      exact .inl (Dvd.dvd.mul_left (pow_dvd_pow 2 hle) _)
  | finite mantissa exponent =>
      by_cases hsmall : e ≤ exponent
      · exact .inl (Dvd.dvd.mul_left (pow_dvd_pow 2 hsmall) _)
      · have hlt : exponent < e := Nat.lt_of_not_le hsmall
        exact .inr ⟨Nat.zero_lt_of_lt hlt, two_mul_units_lt h.1 hlt⟩

/-- Between a number and the one with the next mantissa there is no other. -/
theorem succ_units_le (hx : (finite m e).Canonical) (hy : y.Canonical)
    (hlt : units (.finite m e) < y.units) : units (.finite (m + 1) e) ≤ y.units := by
  obtain ⟨k, hk⟩ | ⟨hpos, hbelow⟩ := dvd_units_or_lt hy hx.2.1
  · rw [units] at hlt ⊢
    rw [hk, Nat.mul_comm (2 ^ e)] at hlt ⊢
    exact Nat.mul_le_mul_right _ (Nat.lt_of_mul_lt_mul_right hlt)
  · have hnormal := le_two_mul_units hx hpos
    omega

theorem eq_of_units_finite (hx : (finite m e).Canonical)
    (hy : (finite mantissa exponent).Canonical)
    (h : units (.finite m e) = units (.finite mantissa exponent)) (hle : e ≤ exponent) :
    finite m e = finite mantissa exponent := by
  obtain rfl | hlt := Nat.eq_or_lt_of_le hle
  · rw [Nat.eq_of_mul_eq_mul_right (Nat.two_pow_pos e) h]
  · have hbelow := two_mul_units_lt hx.1 hlt
    have hnormal := le_two_mul_units hy (Nat.zero_lt_of_lt hlt)
    omega

theorem eq_of_units (hx : x.Canonical) (hy : y.Canonical) (h : x.units = y.units) : x = y := by
  cases x with
  | infinite =>
      cases y with
      | infinite => rfl
      | finite m e => exact absurd h.symm (Nat.ne_of_lt (units_lt_infinite hy))
  | finite mantissa exponent =>
      cases y with
      | infinite => exact absurd h (Nat.ne_of_lt (units_lt_infinite hx))
      | finite m e =>
          cases Nat.le_total exponent e with
          | inl hle => exact eq_of_units_finite hx hy h hle
          | inr hle => exact (eq_of_units_finite hy hx h.symm hle).symm

/-- The rounded mantissa may reach its bound, which makes the smallest one of the next exponent. -/
theorem ofRounded_spec (hbound : m ≤ mantissaBound) (hle : e ≤ maxExponent)
    (hnormal : 0 < e → mantissaBound ≤ 2 * m) :
    (ofRounded m e).Canonical ∧ (ofRounded m e).units = m * 2 ^ e ∧
      (m % 2 = 0 → (ofRounded m e).EvenMantissa) := by
  obtain rfl | hlt := Nat.eq_or_lt_of_le hbound
  · have hhalf : mantissaBound = mantissaBound / 2 * 2 := by decide
    obtain rfl | hroom := Nat.eq_or_lt_of_le hle
    · have hrounded : ofRounded mantissaBound maxExponent = .infinite := by decide
      rw [hrounded]
      exact ⟨trivial, rfl, fun _ => trivial⟩
    · have hrounded : ofRounded mantissaBound e = .finite (mantissaBound / 2) (e + 1) := by
        simp [ofRounded, Nat.succ_le_of_lt hroom]
      rw [hrounded]
      have heven : mantissaBound / 2 % 2 = 0 := by decide
      refine ⟨⟨by decide, hroom, fun _ => by decide⟩, ?_, fun _ => heven⟩
      rw [units, pow_succ', ← Nat.mul_assoc, ← hhalf]
  · have hrounded : ofRounded m e = .finite m e := by simp [ofRounded, hlt, hle]
    rw [hrounded]
    exact ⟨⟨hlt, hle, hnormal⟩, rfl, id⟩

theorem ofRounded_of_lt (hlt : maxExponent < e) : ofRounded m e = .infinite := by
  by_cases hbound : m < mantissaBound
  · simp [ofRounded, hbound, Nat.not_le_of_lt hlt]
  · simp [ofRounded, hbound, Nat.not_le_of_lt (Nat.lt_succ_of_lt hlt)]

end Grid

section Fraction

variable {numerator denominator u e : Nat} {x y : Binary64}

theorem roundRatio_le_bound (hlog : (u / denominator).log2 ≤ 52 + e) :
    roundRatio u (denominator * 2 ^ e) ≤ mantissaBound := by
  have hquotient : u / (denominator * 2 ^ e) < 2 ^ 53 := by
    rw [← Nat.div_div_eq_div_mul, Nat.div_lt_iff_lt_mul (Nat.two_pow_pos e), ← pow_add]
    calc u / denominator
        < 2 ^ ((u / denominator).log2 + 1) := Nat.lt_log2_self
      _ ≤ 2 ^ (53 + e) := pow_le_pow_right₀ one_le_two (by omega)
  have hbound : mantissaBound = 2 ^ 53 := rfl
  have hround := roundRatio_cases u (denominator * 2 ^ e)
  omega

theorem bound_le_units (hpos : 0 < denominator) (hlog : (u / denominator).log2 = 52 + e) :
    mantissaBound * (denominator * 2 ^ e) ≤ 2 * u := by
  have hnonzero : u / denominator ≠ 0 := by
    intro hzero
    rw [hzero, Nat.log2_zero] at hlog
    omega
  have hlow := (Nat.le_div_iff_mul_le hpos).1 (hlog ▸ Nat.log2_self_le hnonzero)
  calc mantissaBound * (denominator * 2 ^ e)
      = 2 * (2 ^ (52 + e) * denominator) := by
        rw [show mantissaBound = 2 * 2 ^ 52 from rfl]
        ring
    _ ≤ 2 * u := Nat.mul_le_mul_left 2 hlow

theorem bound_le_roundRatio (hpos : 0 < denominator)
    (hlow : mantissaBound * (denominator * 2 ^ e) ≤ 2 * u) :
    mantissaBound ≤ 2 * roundRatio u (denominator * 2 ^ e) := by
  have hhalf : mantissaBound = 2 * (mantissaBound / 2) := by decide
  have hquotient : mantissaBound / 2 ≤ u / (denominator * 2 ^ e) := by
    rw [Nat.le_div_iff_mul_le (Nat.mul_pos hpos (Nat.two_pow_pos e))]
    rw [hhalf, Nat.mul_assoc] at hlow
    exact Nat.le_of_mul_le_mul_left hlow Nat.two_pos
  have hround := roundRatio_cases u (denominator * 2 ^ e)
  omega

/-- What lies below the smallest normal number of an exponent is farther from a fraction above it
than the rounded mantissa. -/
theorem dist_roundRatio_lt (hpos : 0 < denominator)
    (hlow : mantissaBound * (denominator * 2 ^ e) ≤ 2 * u)
    (hbelow : 2 * y.units < mantissaBound * 2 ^ e) :
    Nat.dist (roundRatio u (denominator * 2 ^ e) * (denominator * 2 ^ e)) u <
      Nat.dist (y.units * denominator) u := by
  have hround := dist_roundRatio u (Nat.mul_pos hpos (Nat.two_pow_pos e)) (mantissaBound / 2)
  refine Nat.lt_of_le_of_lt hround.1 ?_
  have hfar : 2 * (y.units * denominator) < mantissaBound * (denominator * 2 ^ e) := by
    calc 2 * (y.units * denominator)
        = 2 * y.units * denominator := (Nat.mul_assoc _ _ _).symm
      _ < mantissaBound * 2 ^ e * denominator := Nat.mul_lt_mul_of_pos_right hbelow hpos
      _ = mantissaBound * (denominator * 2 ^ e) := by ring
  have hhalf : 2 * (mantissaBound / 2 * (denominator * 2 ^ e)) =
      mantissaBound * (denominator * 2 ^ e) := by
    rw [← Nat.mul_assoc]
    rfl
  unfold Nat.dist
  omega

/-- A number with a rounded mantissa is nearest: the numbers off its grid lie below the smallest
normal one of the exponent, and the fraction does not. -/
theorem isNearest_of_units (hpos : 0 < denominator) (hle : e ≤ maxExponent)
    (hlow : 0 < e → mantissaBound * (denominator * 2 ^ e) ≤ 2 * (numerator * unitsOfOne))
    (hcanonical : x.Canonical)
    (hunits : x.units = roundRatio (numerator * unitsOfOne) (denominator * 2 ^ e) * 2 ^ e)
    (heven : roundRatio (numerator * unitsOfOne) (denominator * 2 ^ e) % 2 = 0 → x.EvenMantissa) :
    IsNearest numerator denominator x := by
  have hgrid : ∀ k, k * 2 ^ e * denominator = k * (denominator * 2 ^ e) := fun k => by ring
  have hround := dist_roundRatio (numerator * unitsOfOne) (Nat.mul_pos hpos (Nat.two_pow_pos e))
  have hnearest : ∀ y : Binary64, y.Canonical →
      distance numerator denominator x ≤ distance numerator denominator y ∧
        (distance numerator denominator y = distance numerator denominator x →
          y = x ∨ x.EvenMantissa) := by
    intro y hy
    rw [distance, distance, hunits, hgrid]
    obtain ⟨k, hk⟩ | ⟨hexponent, hbelow⟩ := dvd_units_or_lt hy hle
    · rw [Nat.mul_comm] at hk
      rw [hk, hgrid]
      refine ⟨(hround k).1, fun hsame => ?_⟩
      obtain heq | hparity := (hround k).2 hsame
      · exact .inl (eq_of_units hy hcanonical (by rw [hk, hunits, heq]))
      · exact .inr (heven hparity)
    · have hlt := dist_roundRatio_lt hpos (hlow hexponent) hbelow
      exact ⟨Nat.le_of_lt hlt, fun hsame => absurd hsame (Nat.ne_of_gt hlt)⟩
  exact ⟨hcanonical, fun y hy => (hnearest y hy).1,
    fun y hy hne hsame => ((hnearest y hy).2 hsame).resolve_left hne⟩

theorem isNearest_infinite (h : units .infinite * denominator ≤ numerator * unitsOfOne) :
    IsNearest numerator denominator .infinite where
  canonical := trivial
  nearest y hy := by
    have hle := Nat.mul_le_mul_right denominator (units_le_infinite hy)
    rw [distance, distance, Nat.dist_eq_sub_of_le h, Nat.dist_eq_sub_of_le (Nat.le_trans hle h)]
    exact Nat.sub_le_sub_left hle _
  even _ _ _ _ := trivial

theorem isNearest_ofRatio (hpos : 0 < denominator) (numerator : Nat) :
    IsNearest numerator denominator (ofRatio numerator denominator) := by
  obtain ⟨e, he⟩ : ∃ e, e = (numerator * unitsOfOne / denominator).log2 - 52 := ⟨_, rfl⟩
  have hratio : ofRatio numerator denominator =
      ofRounded (roundRatio (numerator * unitsOfOne) (denominator * 2 ^ e)) e := by
    rw [he]
    rfl
  have hlow : 0 < e → mantissaBound * (denominator * 2 ^ e) ≤ 2 * (numerator * unitsOfOne) :=
    fun hexponent => bound_le_units hpos (by omega)
  rw [hratio]
  by_cases hle : e ≤ maxExponent
  · obtain ⟨hcanonical, hunits, heven⟩ := ofRounded_spec (roundRatio_le_bound (by omega)) hle
      fun hexponent => bound_le_roundRatio hpos (hlow hexponent)
    exact isNearest_of_units hpos hle hlow hcanonical hunits heven
  · have hlt : maxExponent < e := Nat.lt_of_not_le hle
    rw [ofRounded_of_lt hlt]
    apply isNearest_infinite
    apply Nat.le_of_mul_le_mul_left _ Nat.two_pos
    calc 2 * (mantissaBound * 2 ^ maxExponent * denominator)
        = mantissaBound * (denominator * 2 ^ (maxExponent + 1)) := by ring
      _ ≤ mantissaBound * (denominator * 2 ^ e) :=
          Nat.mul_le_mul_left _ (Nat.mul_le_mul_left _ (pow_le_pow_right₀ one_le_two hlt))
      _ ≤ 2 * (numerator * unitsOfOne) := hlow (Nat.zero_lt_of_lt hlt)

/-- Between two numbers with even mantissas there is one that is nearer to what lies half way. -/
theorem IsNearest.not_units_lt (hpos : 0 < denominator) (hx : IsNearest numerator denominator x)
    (hy : IsNearest numerator denominator y) : ¬ x.units < y.units := by
  intro hlt
  have hne : y ≠ x := by
    intro heq
    rw [heq] at hlt
    exact Nat.lt_irrefl _ hlt
  have hsame := Nat.le_antisymm (hy.nearest x hx.canonical) (hx.nearest y hy.canonical)
  have hxeven := hx.even y hy.canonical hne hsame
  have hyeven := hy.even x hx.canonical hne.symm hsame.symm
  cases x with
  | infinite => exact absurd hlt (Nat.not_lt_of_le (units_le_infinite hy.canonical))
  | finite m e =>
      obtain ⟨hbound, hle, hnormal⟩ := hx.canonical
      have hparity : mantissaBound % 2 = 0 := by decide
      have hm : m % 2 = 0 := hxeven
      have hbetween : (finite (m + 1) e).Canonical :=
        ⟨by omega, hle, fun hexponent => by have := hnormal hexponent; omega⟩
      have hodd : y ≠ finite (m + 1) e := by
        intro heq
        rw [heq] at hyeven
        have hsucc : (m + 1) % 2 = 0 := hyeven
        omega
      have hupper : units (.finite (m + 1) e) < y.units :=
        Nat.lt_of_le_of_ne (succ_units_le hx.canonical hy.canonical hlt) fun heq =>
          hodd (eq_of_units hy.canonical hbetween heq.symm)
      have hlower : units (.finite m e) < units (.finite (m + 1) e) :=
        Nat.mul_lt_mul_of_pos_right (Nat.lt_succ_self m) (Nat.two_pow_pos e)
      have hnearest := hx.nearest _ hbetween
      have hlower := Nat.mul_lt_mul_of_pos_right hlower hpos
      have hupper := Nat.mul_lt_mul_of_pos_right hupper hpos
      unfold distance Nat.dist at hsame hnearest
      omega

theorem IsNearest.unique (hpos : 0 < denominator) (hx : IsNearest numerator denominator x)
    (hy : IsNearest numerator denominator y) : x = y :=
  eq_of_units hx.canonical hy.canonical
    (Nat.le_antisymm (Nat.le_of_not_lt (hy.not_units_lt hpos hx))
      (Nat.le_of_not_lt (hx.not_units_lt hpos hy)))

end Fraction

/-- One number is nearest to a decimal, and rounding finds it. -/
theorem ofDecimal_eq_iff {digits places : Nat} {x : Binary64} :
    ofDecimal digits places = x ↔ IsNearest digits (10 ^ places) x := by
  have hpos : 0 < 10 ^ places := Nat.pow_pos (by decide)
  have hnearest : IsNearest digits (10 ^ places) (ofDecimal digits places) :=
    isNearest_ofRatio hpos digits
  constructor
  · intro h
    rw [← h]
    exact hnearest
  · exact hnearest.unique hpos

end Binary64

/-- What a text of decimal digits writes: its digits as one whole number, and how many of them stand
after the point. -/
inductive Writes : List Char → Nat → Nat → Prop
  | whole {digits} (h : isDigits digits = true) : Writes digits (digitsValue digits) 0
  | fraction {digits places} (hdigits : isDigits digits = true) (hplaces : isDigits places = true) :
      Writes (digits ++ '.' :: places) (digitsValue (digits ++ places)) places.length

section Writes

variable {text : List Char} {digits places : Nat} {x : Binary64}

theorem Writes.parse? (h : Writes text digits places) :
    Binary64.parse? text = some (.ofDecimal digits places) := by
  cases h with
  | whole hdigits => exact Binary64.parse?_whole hdigits
  | fraction hdigits hplaces => exact Binary64.parse?_fraction hdigits hplaces

theorem exists_writes_of_parse? (h : Binary64.parse? text = some x) :
    ∃ digits places, Writes text digits places := by
  have hsplit := List.takeWhile_append_dropWhile (p := Char.isDigit) (l := text)
  rw [Binary64.parse?] at h
  generalize text.takeWhile Char.isDigit = whole at *
  generalize text.dropWhile Char.isDigit = rest at *
  subst hsplit
  cases rest with
  | nil =>
      dsimp only at h
      split at h
      · next hwhole =>
          rw [List.append_nil]
          exact ⟨_, _, .whole hwhole⟩
      · cases h
  | cons point places =>
      dsimp only at h
      split at h
      · next hfraction =>
          simp only [Bool.and_eq_true, decide_eq_true_eq] at hfraction
          obtain ⟨⟨rfl, hwhole⟩, hplaces⟩ := hfraction
          exact ⟨_, _, .fraction hwhole hplaces⟩
      · cases h

/-- Reading a text gives the number nearest to what it writes. -/
theorem Binary64.parse?_eq_some_iff : parse? text = some x ↔
    ∃ digits places, Writes text digits places ∧ x.IsNearest digits (10 ^ places) := by
  constructor
  · intro h
    obtain ⟨digits, places, hwrites⟩ := exists_writes_of_parse? h
    have heq := Option.some.inj (hwrites.parse?.symm.trans h)
    exact ⟨digits, places, hwrites, Binary64.ofDecimal_eq_iff.1 heq⟩
  · intro h
    obtain ⟨digits, places, hwrites, hnearest⟩ := h
    rw [hwrites.parse?, Binary64.ofDecimal_eq_iff.2 hnearest]

end Writes

end LoxSyntax.Number
