/-!
Blank characters and the operations that cut a text at them. A blank is a character with the
Unicode property White_Space; no other character separates the words of a grammar line.
-/

namespace LoxSyntax.Text

/-- The Unicode property White_Space. -/
def isBlank (c : Char) : Bool :=
  let n := c.toNat
  (0x09 ≤ n && n ≤ 0x0d) || n == 0x20 || n == 0x85 || n == 0xa0 || n == 0x1680 ||
    (0x2000 ≤ n && n ≤ 0x200a) || n == 0x2028 || n == 0x2029 || n == 0x202f || n == 0x205f ||
    n == 0x3000

def trimStart (cs : List Char) : List Char :=
  cs.dropWhile isBlank

def trimEnd : List Char → List Char
  | [] => []
  | c :: cs =>
      match trimEnd cs with
      | [] => if isBlank c then [] else [c]
      | d :: ds => c :: d :: ds

def trim (cs : List Char) : List Char :=
  trimEnd (trimStart cs)

/-- The two sides of the first character that satisfies the predicate, which is in neither. -/
def splitAt? (p : Char → Bool) : List Char → Option (List Char × List Char)
  | [] => none
  | c :: cs =>
      if p c then some ([], cs) else (splitAt? p cs).map fun (before, after) => (c :: before, after)

def withoutBlanks (cs : List Char) : List Char :=
  cs.filter fun c => !isBlank c

theorem trimEnd_eq_nil_iff (cs : List Char) : trimEnd cs = [] ↔ ∀ c ∈ cs, isBlank c = true := by
  induction cs with
  | nil => simp [trimEnd]
  | cons c cs ih =>
      rw [trimEnd]
      cases h : trimEnd cs with
      | nil => simp [← ih, h]
      | cons d ds => simp [← ih, h]

theorem splitAt?_eq_none_iff {p : Char → Bool} {cs : List Char} :
    splitAt? p cs = none ↔ ∀ c ∈ cs, p c = false := by
  induction cs with
  | nil => simp [splitAt?]
  | cons c cs ih =>
      rw [splitAt?, List.forall_mem_cons]
      cases h : p c with
      | true => simp
      | false => simp [ih]

/-- A text is split at the first place where that can be done. -/
theorem splitAt?_eq_some_iff {p : Char → Bool} {cs before after : List Char} :
    splitAt? p cs = some (before, after) ↔
      ∃ c, cs = before ++ c :: after ∧ p c = true ∧ ∀ d ∈ before, p d = false := by
  induction cs generalizing before after with
  | nil => simp [splitAt?]
  | cons x xs ih =>
      rw [splitAt?]
      split
      · next hx =>
          constructor
          · intro h
            cases h
            exact ⟨x, rfl, hx, nofun⟩
          · rintro ⟨c, heq, -, hbefore⟩
            cases before with
            | nil => cases heq; rfl
            | cons d ds =>
                cases heq
                have hno := hbefore x List.mem_cons_self
                rw [hx] at hno
                cases hno
      · next hx =>
          simp only [Option.map_eq_some_iff, Prod.exists, Prod.mk.injEq, ih]
          constructor
          · rintro ⟨b, a, ⟨c, rfl, hc, hb⟩, rfl, rfl⟩
            exact ⟨c, rfl, hc, List.forall_mem_cons.2 ⟨by simpa using hx, hb⟩⟩
          · rintro ⟨c, heq, hc, hbefore⟩
            cases before with
            | nil =>
                cases heq
                exact absurd hc hx
            | cons d ds =>
                cases heq
                exact ⟨ds, after, ⟨c, rfl, hc, (List.forall_mem_cons.1 hbefore).2⟩, rfl, rfl⟩

end LoxSyntax.Text
