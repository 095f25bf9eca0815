/-!
Runs of characters of one class at the front of a text, and what follows them.
-/

namespace LoxSyntax.Text

variable {p : Char → Bool} {c : Char} {cs tail back core : List Char}

theorem head?_cases (c : Char) (cs : List Char) :
    (∃ rest, cs = c :: rest) ∨ ∀ d ∈ cs.head?, d ≠ c := by
  cases cs with
  | nil => exact .inr nofun
  | cons d rest =>
      by_cases hd : d = c
      · exact .inl ⟨rest, by rw [hd]⟩
      · refine .inr fun x hx => ?_
        rwa [← Option.some.inj hx]

/-- Behind a run stands a character outside of the class, or the end. -/
theorem head?_dropWhile (p : Char → Bool) (cs : List Char) :
    ∀ c ∈ (cs.dropWhile p).head?, p c = false := by
  intro c hc
  have hhead := List.head?_dropWhile_not p cs
  rw [hc] at hhead
  simpa using hhead

/-- A run ends with its text if what follows begins with a character outside of the class. -/
theorem takeWhile_append_tail (h : ∀ x ∈ tail.head?, p x = false) (cs : List Char) :
    (cs ++ tail).takeWhile p = cs.takeWhile p ∧
      (cs ++ tail).dropWhile p = cs.dropWhile p ++ tail := by
  induction cs with
  | nil =>
      cases tail with
      | nil => exact ⟨rfl, rfl⟩
      | cons x xs => simp [h x rfl]
  | cons c cs ih =>
      by_cases hc : p c = true
      · simpa [hc] using ih
      · simp [hc]

/-- A run that ends inside its text ends there whatever follows. -/
theorem takeWhile_append_of_dropWhile {rest : List Char} (h : cs.dropWhile p = c :: rest)
    (tail : List Char) :
    (cs ++ tail).takeWhile p = cs.takeWhile p ∧ (cs ++ tail).dropWhile p = c :: (rest ++ tail) := by
  induction cs with
  | nil => cases h
  | cons x xs ih =>
      by_cases hx : p x = true
      · rw [List.dropWhile_cons_of_pos hx] at h
        simpa [hx] using ih h
      · rw [List.dropWhile_cons_of_neg hx] at h
        cases h
        simp [hx]

/-- A run of a class ends where a character outside of it stands. -/
theorem takeWhile_append_of_stop (hcore : ∀ c ∈ core, p c = true)
    (hback : back.head?.any p = false) :
    (core ++ back).takeWhile p = core ∧ (core ++ back).dropWhile p = back := by
  rw [List.takeWhile_append_of_pos hcore, List.dropWhile_append_of_pos hcore]
  cases back with
  | nil => simp
  | cons x back =>
      have hx : ¬ p x = true := Bool.eq_false_iff.1 hback
      rw [List.takeWhile_cons_of_neg hx, List.dropWhile_cons_of_neg hx, List.append_nil]
      exact ⟨rfl, rfl⟩

end LoxSyntax.Text
