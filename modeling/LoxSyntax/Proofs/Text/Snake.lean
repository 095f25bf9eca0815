import LoxSyntax.Proofs.Text.Ascii
import LoxSyntax.Text.Snake

/-!
What snake case makes of a text, said character by character, and what it leaves alone: letters stay
letters, digits stay digits, nothing comes to stand before the first character, and all that is
added are underscores, none of them beside another.
-/

namespace LoxSyntax.Text

/-- Snake case of a text that follows the character `before`. -/
def snakeAfter (before : Option Char) : List Char → List Char
  | [] => []
  | c :: cs =>
      if beginsWord before c cs.head? then '_' :: c.toLower :: snakeAfter (some c) cs
      else c.toLower :: snakeAfter (some c) cs

section Snake

variable {before : Option Char} {written cs : List Char} {b c : Char} {name : String}

/-- A word begins only at a capital, and not behind an underscore. -/
theorem ne_underscore_of_beginsWord {after : Option Char}
    (h : beginsWord before c after = true) : c ≠ '_' ∧ before ≠ some '_' := by
  constructor
  · rintro rfl
    cases h
  · rintro rfl
    rw [beginsWord, Bool.and_eq_true] at h
    cases h.2

/-- The end of what is written is the character before in lower case, so no underscore is ever
left out because of one that stands there. -/
theorem writeSnake_eq (h : written.head? = before.map Char.toLower) :
    writeSnake written before cs = written.reverse ++ snakeAfter before cs := by
  induction cs generalizing written before with
  | nil => rw [writeSnake, snakeAfter, List.append_nil]
  | cons c cs ih =>
      rw [writeSnake, snakeAfter]
      cases hbegin : beginsWord before c cs.head? with
      | true =>
          have hupper : c.isUpper = true := (Bool.and_eq_true_iff.1 hbegin).1
          have hend : written.head? ≠ some '_' := by
            rw [h]
            intro hunderscore
            obtain ⟨b, hb, hlower⟩ := Option.map_eq_some_iff.1 hunderscore
            rw [toLower_eq_underscore_iff.1 hlower] at hb
            exact (ne_underscore_of_beginsWord hbegin).2 hb
          have hwrites : (true && written.head? != some '_') = true := by simpa using hend
          rw [if_pos hupper, if_pos hwrites, ih rfl, if_pos rfl]
          simp
      | false =>
          rw [Bool.false_and, if_neg Bool.false_ne_true, if_neg Bool.false_ne_true]
          split
          · rw [ih rfl, List.reverse_cons, List.append_assoc, List.singleton_append]
          · next hno =>
              have hsame : c.toLower = c := toLower_of_not_isUpper (Bool.eq_false_iff.2 hno)
              rw [ih (by rw [List.head?_cons, Option.map_some, hsame]), List.reverse_cons,
                List.append_assoc, List.singleton_append, hsame]

/-- A text without capitals stays as it is. -/
theorem snakeAfter_of_no_capital (h : ∀ c ∈ cs, c.isUpper = false) : snakeAfter before cs = cs := by
  induction cs generalizing before with
  | nil => rfl
  | cons c cs ih =>
      obtain ⟨hc, hcs⟩ := List.forall_mem_cons.1 h
      have hbegin : beginsWord before c cs.head? = false := by
        simp only [beginsWord, hc, Bool.false_and]
      rw [snakeAfter, hbegin, if_neg Bool.false_ne_true, toLower_of_not_isUpper hc, ih hcs]

theorem snake_eq (name : String) : snake name = String.ofList (snakeAfter none name.toList) := by
  rw [snake]
  split
  · rw [writeSnake_eq rfl, List.reverse_nil, List.nil_append]
  · next hno =>
      have hcapital : ∀ c ∈ name.toList, c.isUpper = false := by simpa using hno
      rw [snakeAfter_of_no_capital hcapital, String.ofList_toList]

theorem mem_snakeAfter (h : c ∈ snakeAfter before cs) : c = '_' ∨ ∃ d ∈ cs, c = d.toLower := by
  induction cs generalizing before with
  | nil => cases h
  | cons d cs ih =>
      have hrest : c ∈ d.toLower :: snakeAfter (some d) cs →
          c = '_' ∨ ∃ e ∈ d :: cs, c = e.toLower := by
        intro h
        cases List.mem_cons.1 h with
        | inl h => exact .inr ⟨d, List.mem_cons_self, h⟩
        | inr h =>
            refine (ih h).imp_right fun hlower => ?_
            obtain ⟨e, he, hc⟩ := hlower
            exact ⟨e, List.mem_cons_of_mem d he, hc⟩
      rw [snakeAfter] at h
      split at h
      · exact (List.mem_cons.1 h).elim .inl hrest
      · exact hrest h

/-- No word begins inside a name at its first character. -/
theorem snakeAfter_none_cons (c : Char) (cs : List Char) :
    snakeAfter none (c :: cs) = c.toLower :: snakeAfter (some c) cs := by
  have hbegin : beginsWord none c cs.head? = false := Bool.and_false _
  rw [snakeAfter, hbegin, if_neg Bool.false_ne_true]

theorem sublist_snakeAfter (before : Option Char) (cs : List Char) :
    (cs.map Char.toLower).Sublist (snakeAfter before cs) := by
  induction cs generalizing before with
  | nil => exact List.Sublist.refl []
  | cons c cs ih =>
      rw [snakeAfter, List.map_cons]
      split
      · exact ((ih (some c)).cons_cons _).cons _
      · exact (ih (some c)).cons_cons _

theorem length_le_length_snakeAfter (before : Option Char) (cs : List Char) :
    cs.length ≤ (snakeAfter before cs).length := by
  have hlength := (sublist_snakeAfter before cs).length_le
  rwa [List.length_map] at hlength

theorem snake_eq_underscore_iff : snake name = "_" ↔ name = "_" := by
  have hunderscore : "_" = String.ofList ['_'] := rfl
  rw [snake_eq, hunderscore, String.ofList_inj, ← String.toList_inj, String.toList_ofList]
  constructor
  · intro h
    cases hname : name.toList with
    | nil =>
        rw [hname] at h
        cases h
    | cons c cs =>
        rw [hname, snakeAfter_none_cons] at h
        obtain ⟨hc, hcs⟩ := List.cons.inj h
        have hlength := length_le_length_snakeAfter (some c) cs
        rw [hcs, List.length_nil, Nat.le_zero, List.length_eq_zero_iff] at hlength
        rw [hlength, toLower_eq_underscore_iff.1 hc]
  · intro h
    rw [h]
    rfl

end Snake

end LoxSyntax.Text
