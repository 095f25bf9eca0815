/-!
Binary search. A table is searched by asking how an entry stands to what is looked for: before it,
behind it, or at it. In a table in order at most one entry is at it, and the search finds that one.
-/

namespace LoxSyntax.Source

variable {α : Type}

/-- Searches `size` entries of a table from `base` on, where `place` says how an entry stands to
what is looked for. -/
def search? (place : α → Ordering) (table : Array α) (base size : Nat) : Option Nat :=
  if 1 < size then
    let half := size / 2
    if table[base + half]?.map place = some .gt then search? place table base (size - half)
    else search? place table (base + half) (size - half)
  else if table[base]?.map place = some .eq then some base
  else none
termination_by size

/-- Of two entries, the first lies before what is looked for or the second behind it. -/
def InOrder (place : α → Ordering) (table : Array α) : Prop :=
  ∀ (i j : Nat) (a b : α), i < j → table[i]? = some a → table[j]? = some b →
    place a = .lt ∨ place b = .gt

section Search

variable {place : α → Ordering} {table : Array α} {base size index other : Nat}

theorem search?_sound (h : search? place table base size = some index) :
    table[index]?.map place = some .eq := by
  fun_induction search? place table base size with
  | case1 base size hsize half hgt ih => exact ih h
  | case2 base size hsize half hgt ih => exact ih h
  | case3 base size hsize heq =>
      cases h
      exact heq
  | case4 => cases h

theorem InOrder.lt_of_gt (horder : InOrder place table)
    (hindex : table[index]?.map place = some .eq) (hother : table[other]?.map place = some .gt) :
    index < other := by
  obtain ⟨a, ha, hat⟩ := Option.map_eq_some_iff.1 hindex
  obtain ⟨b, hb, hbehind⟩ := Option.map_eq_some_iff.1 hother
  rcases Nat.lt_trichotomy index other with hlt | rfl | hlt
  · exact hlt
  · rw [hindex] at hother
    cases hother
  · rcases horder _ _ b a hlt hb ha with h | h
    · rw [h] at hbehind
      cases hbehind
    · rw [h] at hat
      cases hat

theorem InOrder.gt_of_lt (horder : InOrder place table)
    (hindex : table[index]?.map place = some .eq) (hlt : index < other)
    (hother : other < table.size) : table[other]?.map place = some .gt := by
  obtain ⟨a, ha, hat⟩ := Option.map_eq_some_iff.1 hindex
  have hb : table[other]? = some table[other] := Array.getElem?_eq_getElem hother
  cases horder _ _ a _ hlt ha hb with
  | inl h =>
      rw [h] at hat
      cases hat
  | inr h => rw [hb, Option.map_some, h]

/-- The entry at what is looked for is found if it is among those searched. -/
theorem search?_complete (horder : InOrder place table)
    (hindex : table[index]?.map place = some .eq) (hbase : base ≤ index)
    (hstop : index < base + size) (hsize : base + size ≤ table.size) :
    search? place table base size = some index := by
  fun_induction search? place table base size with
  | case1 base size hlarge half hgt ih =>
      have hbefore := horder.lt_of_gt hindex hgt
      exact ih hbase (by omega) (by omega)
  | case2 base size hlarge half hgt ih =>
      have hbehind : base + half ≤ index := Nat.le_of_not_lt fun hlt =>
        hgt (horder.gt_of_lt hindex hlt (by omega))
      exact ih hbehind (by omega) (by omega)
  | case3 base size hsmall heq =>
      have hsame : index = base := by omega
      rw [hsame]
  | case4 base size hsmall hne =>
      -- one entry is left to search, and it is not another one
      have hsame : index = base := by omega
      exact absurd (hsame ▸ hindex) hne

/-- The search of a whole table in order finds the entry that is looked for. -/
theorem search?_eq_some_iff (horder : InOrder place table) :
    search? place table 0 table.size = some index ↔ table[index]?.map place = some .eq := by
  refine ⟨search?_sound, fun h => search?_complete horder h (Nat.zero_le _) ?_ (by omega)⟩
  obtain ⟨a, ha, -⟩ := Option.map_eq_some_iff.1 h
  rw [Nat.zero_add]
  exact (Array.getElem?_eq_some_iff.1 ha).1

end Search

end LoxSyntax.Source
