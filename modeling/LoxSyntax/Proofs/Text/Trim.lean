import LoxSyntax.Proofs.Text.Run
import LoxSyntax.Text.Blank

/-!
What trimming does. A trimmed text has no blank at either end, and is all that stood between the
blanks there.
-/

namespace LoxSyntax.Text

def AllBlank (cs : List Char) : Prop :=
  ∀ c ∈ cs, isBlank c = true

/-- `core` is what a text holds between the blanks at its ends. -/
structure Trimmed (text core : List Char) : Prop where
  between : ∃ front back, text = front ++ core ++ back ∧ AllBlank front ∧ AllBlank back
  head : ∀ c ∈ core.head?, isBlank c = false
  last : ∀ c ∈ core.getLast?, isBlank c = false

section Trim

variable {cs ds front back text core : List Char} {c : Char}

theorem not_mem_of_allBlank (hc : isBlank c = false) (h : AllBlank cs) : c ∉ cs := by
  intro hmem
  rw [h c hmem] at hc
  cases hc

theorem not_mem_of_not_blank (hc : isBlank c = true) (h : ∀ x ∈ cs, isBlank x = false) :
    c ∉ cs := by
  intro hmem
  rw [h c hmem] at hc
  cases hc

theorem allBlank_takeWhile (cs : List Char) : AllBlank (cs.takeWhile isBlank) :=
  List.all_eq_true.1 List.all_takeWhile

theorem trimStart_append_of_blank (cs : List Char) (h : AllBlank front) :
    trimStart (front ++ cs) = trimStart cs :=
  List.dropWhile_append_of_pos h

theorem trimStart_of_head (h : ∀ c ∈ cs.head?, isBlank c = false) : trimStart cs = cs := by
  cases cs with
  | nil => rfl
  | cons c cs =>
      have hc : ¬ isBlank c = true := by rw [h c rfl]; exact Bool.false_ne_true
      exact List.dropWhile_cons_of_neg hc

theorem head_trimStart (cs : List Char) : ∀ c ∈ (trimStart cs).head?, isBlank c = false :=
  head?_dropWhile isBlank cs

theorem trimEnd_cons (c : Char) (h : trimEnd cs ≠ []) : trimEnd (c :: cs) = c :: trimEnd cs := by
  rw [trimEnd]
  split
  · next heq => exact absurd heq h
  · next heq => rw [heq]

theorem trimEnd_append_of_blank (cs : List Char) (h : AllBlank back) :
    trimEnd (cs ++ back) = trimEnd cs := by
  induction cs with
  | nil => exact (trimEnd_eq_nil_iff back).2 h
  | cons c cs ih => rw [List.cons_append, trimEnd, ih, trimEnd]

theorem trimEnd_of_last (h : ∀ c ∈ cs.getLast?, isBlank c = false) : trimEnd cs = cs := by
  induction cs with
  | nil => rfl
  | cons c cs ih =>
      cases cs with
      | nil =>
          have hc : ¬ isBlank c = true := by rw [h c rfl]; exact Bool.false_ne_true
          simp only [trimEnd, if_neg hc]
      | cons d ds =>
          have hrest := ih fun x hx => h x (by rw [List.getLast?_cons_cons]; exact hx)
          rw [trimEnd_cons c (by rw [hrest]; exact List.cons_ne_nil d ds), hrest]

/-- Only blanks are cut off at the end, and all of them. -/
theorem exists_trimEnd (cs : List Char) :
    ∃ back, cs = trimEnd cs ++ back ∧ AllBlank back ∧
      ∀ c ∈ (trimEnd cs).getLast?, isBlank c = false := by
  induction cs with
  | nil =>
      refine ⟨[], rfl, List.forall_mem_nil _, fun c hc => ?_⟩
      cases hc
  | cons c cs ih =>
      obtain ⟨back, hcs, hback, hlast⟩ := ih
      by_cases hnil : trimEnd cs = []
      · have hall : AllBlank cs := (trimEnd_eq_nil_iff cs).1 hnil
        by_cases hc : isBlank c = true
        · have hcut : trimEnd (c :: cs) = [] := by simp only [trimEnd, hnil, if_pos hc]
          rw [hcut]
          refine ⟨c :: cs, rfl, List.forall_mem_cons.2 ⟨hc, hall⟩, fun x hx => ?_⟩
          cases hx
        · have hkept : trimEnd (c :: cs) = [c] := by simp only [trimEnd, hnil, if_neg hc]
          rw [hkept]
          refine ⟨cs, rfl, hall, fun x hx => ?_⟩
          cases hx
          exact Bool.eq_false_iff.2 hc
      · rw [trimEnd_cons c hnil]
        refine ⟨back, by rw [List.cons_append, ← hcs], hback, ?_⟩
        obtain ⟨d, ds, hd⟩ := List.exists_cons_of_ne_nil hnil
        rw [hd] at hlast ⊢
        rwa [List.getLast?_cons_cons]

theorem head?_trimEnd (h : ∀ c ∈ cs.head?, isBlank c = false) :
    (trimEnd cs).head? = cs.head? := by
  cases cs with
  | nil => rfl
  | cons c cs =>
      have hc : ¬ isBlank c = true := by rw [h c rfl]; exact Bool.false_ne_true
      rw [trimEnd]
      split
      · rw [if_neg hc]
        rfl
      · rfl

theorem trimmed_trim (text : List Char) : Trimmed text (trim text) where
  between := by
    obtain ⟨back, hback, hblank, -⟩ := exists_trimEnd (trimStart text)
    refine ⟨text.takeWhile isBlank, back, ?_, allBlank_takeWhile text, hblank⟩
    rw [List.append_assoc, trim, ← hback, trimStart, List.takeWhile_append_dropWhile]
  head := by
    rw [trim, head?_trimEnd (head_trimStart text)]
    exact head_trimStart text
  last := by
    obtain ⟨-, -, -, hlast⟩ := exists_trimEnd (trimStart text)
    exact hlast

/-- Trimming finds the one core of a text. -/
theorem trim_eq_iff : trim text = core ↔ Trimmed text core := by
  constructor
  · rintro rfl
    exact trimmed_trim text
  · rintro ⟨⟨front, back, rfl, hfront, hback⟩, hhead, hlast⟩
    rw [trim, List.append_assoc, trimStart_append_of_blank _ hfront]
    cases core with
    | nil =>
        have hnone := trimStart_append_of_blank [] hback
        rw [List.append_nil] at hnone
        rw [List.nil_append, hnone]
        rfl
    | cons c cs =>
        have hstart : trimStart (c :: cs ++ back) = c :: cs ++ back := trimStart_of_head hhead
        rw [hstart, trimEnd_append_of_blank _ hback, trimEnd_of_last hlast]

theorem trim_of_ends (hhead : ∀ c ∈ cs.head?, isBlank c = false)
    (hlast : ∀ c ∈ cs.getLast?, isBlank c = false) : trim cs = cs :=
  trim_eq_iff.2 ⟨⟨[], [], by simp, nofun, nofun⟩, hhead, hlast⟩

theorem trim_of_no_blank (h : ∀ c ∈ cs, isBlank c = false) : trim cs = cs :=
  trim_of_ends (fun c hc => h c (List.mem_of_mem_head? hc))
    fun c hc => h c (List.mem_of_getLast? hc)

theorem trim_append_of_blank (cs : List Char) (h : AllBlank back) :
    trim (cs ++ back) = trim cs := by
  obtain ⟨⟨front, rest, hcs, hfront, hrest⟩, hhead, hlast⟩ := trimmed_trim cs
  refine trim_eq_iff.2 ⟨⟨front, rest ++ back, ?_, hfront, ?_⟩, hhead, hlast⟩
  · rw [← List.append_assoc, ← hcs]
  · exact fun c hc => (List.mem_append.1 hc).elim (hrest c) (h c)

theorem trim_trimStart (cs : List Char) : trim (trimStart cs) = trim cs := by
  rw [trim, trimStart_of_head (head_trimStart cs), trim]

/-- The first character of a trimmed text is the first one that is no blank. -/
theorem head?_trim (cs : List Char) : (trim cs).head? = cs.find? fun c => !isBlank c := by
  rw [trim, head?_trimEnd (head_trimStart cs), trimStart]
  induction cs with
  | nil => rfl
  | cons c cs ih =>
      rw [List.dropWhile_cons, List.find?_cons]
      cases isBlank c with
      | true => exact ih
      | false => rfl

/-- A character that is no blank keeps the blanks on its two sides apart. -/
theorem trim_append_cons (before after : List Char) (hc : isBlank c = false) :
    trim (before ++ c :: after) = trimStart before ++ c :: trimEnd after := by
  obtain ⟨back, hafter, hback, hlast⟩ := exists_trimEnd after
  refine trim_eq_iff.2 ⟨⟨before.takeWhile isBlank, back, ?_, allBlank_takeWhile before, hback⟩,
    ?_, ?_⟩
  · rw [List.append_assoc, List.append_assoc, List.cons_append, ← hafter, ← List.append_assoc,
      trimStart, List.takeWhile_append_dropWhile]
  · intro x hx
    rw [List.head?_append] at hx
    cases hstart : (trimStart before).head? with
    | none =>
        rw [hstart] at hx
        cases hx
        exact hc
    | some y =>
        rw [hstart] at hx
        cases hx
        exact head_trimStart before _ hstart
  · intro x hx
    rw [List.getLast?_append, List.getLast?_cons, Option.some_or] at hx
    cases hend : trimEnd after with
    | nil =>
        rw [hend] at hx
        cases hx
        exact hc
    | cons d ds =>
        rw [hend, List.getLast?_cons] at hx hlast
        exact hlast x hx

end Trim

end LoxSyntax.Text
