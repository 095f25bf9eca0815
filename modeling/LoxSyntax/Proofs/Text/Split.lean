import LoxSyntax.Proofs.Text.Run
import LoxSyntax.Proofs.Text.Trim
import LoxSyntax.Text.Lines
import Mathlib.Data.List.Forall2

/-!
Cutting a text at characters that are no blanks. It may be done before or after trimming: the parts
are the same, but for blanks at their ends. Lines are such parts, since what ends a line is blank.
-/

namespace LoxSyntax.Text

section Split

variable {p : Char → Bool} {cs : List Char} {separator : Char}

theorem splitAt?_beq_eq_some_iff {before after : List Char} :
    splitAt? (· == separator) cs = some (before, after) ↔
      cs = before ++ separator :: after ∧ separator ∉ before := by
  rw [splitAt?_eq_some_iff]
  constructor
  · intro h
    obtain ⟨c, hcs, hc, hbefore⟩ := h
    refine ⟨beq_iff_eq.1 hc ▸ hcs, fun hmem => ?_⟩
    exact beq_eq_false_iff_ne.1 (hbefore separator hmem) rfl
  · intro h
    obtain ⟨hcs, hbefore⟩ := h
    refine ⟨separator, hcs, beq_iff_eq.2 rfl, fun d hd => beq_eq_false_iff_ne.2 ?_⟩
    rintro rfl
    exact hbefore hd

/-- A trimmed text is split as the text is, and loses only blanks at its two ends. -/
theorem splitAt?_trim (hp : ∀ c, isBlank c = true → p c = false) (cs : List Char) :
    splitAt? p (trim cs) =
      (splitAt? p cs).map fun (before, after) => (trimStart before, trimEnd after) := by
  cases hsplit : splitAt? p cs with
  | none =>
      have hnone := splitAt?_eq_none_iff.1 hsplit
      obtain ⟨⟨front, back, hcs, -⟩, -⟩ := trimmed_trim cs
      refine splitAt?_eq_none_iff.2 fun c hc => hnone c ?_
      rw [hcs]
      exact List.mem_append_left _ (List.mem_append_right _ hc)
  | some parts =>
      obtain ⟨before, after⟩ := parts
      obtain ⟨c, rfl, hc, hbefore⟩ := splitAt?_eq_some_iff.1 hsplit
      have hblank : isBlank c = false := by
        cases h : isBlank c with
        | false => rfl
        | true =>
            rw [hp c h] at hc
            cases hc
      rw [trim_append_cons before after hblank]
      refine splitAt?_eq_some_iff.2 ⟨c, rfl, hc, fun d hd => hbefore d ?_⟩
      exact (List.dropWhile_sublist isBlank).mem hd

/-- No part of a text has the separator in it. -/
theorem not_mem_of_mem_splitOn {part : List Char} (h : part ∈ cs.splitOn separator) :
    separator ∉ part := by
  induction cs generalizing part with
  | nil =>
      obtain rfl := List.mem_singleton.1 h
      exact List.not_mem_nil
  | cons c cs ih =>
      rw [List.splitOn_cons_eq_if_modifyHead] at h
      obtain ⟨first, rest, hparts⟩ := List.exists_cons_of_ne_nil (List.splitOn_ne_nil separator cs)
      rw [hparts] at h ih
      split at h
      · cases List.mem_cons.1 h with
        | inl h => rw [h]; exact List.not_mem_nil
        | inr h => exact ih h
      · next hc =>
          cases List.mem_cons.1 h with
          | inl h =>
              rw [h, List.mem_cons, not_or]
              exact ⟨fun heq => hc (beq_iff_eq.2 heq.symm), ih List.mem_cons_self⟩
          | inr h => exact ih (List.mem_cons_of_mem first h)

/-- Parts and what stands between them hold no other characters than these. -/
theorem not_mem_intercalate {c : Char} {between : List Char} {parts : List (List Char)}
    (hbetween : c ∉ between) (hparts : ∀ part ∈ parts, c ∉ part) :
    c ∉ between.intercalate parts := by
  induction parts with
  | nil => simp
  | cons part parts ih =>
      obtain ⟨hpart, hrest⟩ := List.forall_mem_cons.1 hparts
      cases parts with
      | nil => simpa using hpart
      | cons next parts =>
          rw [List.intercalate_cons_cons, List.mem_append, List.mem_append]
          simp only [hpart, hbetween, ih hrest, or_self, not_false_eq_true]

/-- Behind the last separator, more text goes on where it ends. -/
theorem splitOn_append_of_not_mem (cs : List Char) (h : separator ∉ back) :
    ∃ parts last, cs.splitOn separator = parts ++ [last] ∧
      (cs ++ back).splitOn separator = parts ++ [last ++ back] := by
  induction cs with
  | nil => exact ⟨[], [], rfl, List.splitOn_eq_singleton h⟩
  | cons c cs ih =>
      obtain ⟨parts, last, hparts, happend⟩ := ih
      rw [List.cons_append, List.splitOn_cons_eq_if_modifyHead, List.splitOn_cons_eq_if_modifyHead,
        hparts, happend]
      split
      · exact ⟨[] :: parts, last, rfl, rfl⟩
      · cases parts with
        | nil => exact ⟨[], c :: last, rfl, rfl⟩
        | cons part parts => exact ⟨(c :: part) :: parts, last, rfl, rfl⟩

/-- The parts of a text without the blanks at its end are, trimmed, those of the text. -/
theorem map_trim_splitOn_trimEnd (hseparator : isBlank separator = false) (cs : List Char) :
    ((trimEnd cs).splitOn separator).map trim = (cs.splitOn separator).map trim := by
  obtain ⟨back, hcs, hback, -⟩ := exists_trimEnd cs
  obtain ⟨parts, last, hparts, happend⟩ :=
    splitOn_append_of_not_mem (trimEnd cs) (not_mem_of_allBlank hseparator hback)
  rw [← hcs] at happend
  rw [hparts, happend, List.map_append, List.map_append, List.map_singleton, List.map_singleton,
    trim_append_of_blank last hback]

/-- The lines of a text are its parts between newlines, but for a carriage return at their ends and
an empty part behind the last newline. -/
theorem exists_splitOn_newline (cs : List Char) :
    ∃ parts rest, cs.splitOn '\n' = parts ++ rest ∧ (rest = [] ∨ rest = [[]]) ∧
      List.Forall₂ (fun line part => part = line ∨ part = line ++ ['\r']) (lines cs) parts := by
  unfold lines
  induction cs with
  | nil => exact ⟨[], [[]], rfl, .inr rfl, .nil⟩
  | cons c cs ih =>
      obtain ⟨parts, rest, hparts, hrest, hlines⟩ := ih
      rw [List.splitOn_cons_eq_if_modifyHead, linesBy, hparts]
      by_cases hc : c = '\n'
      · rw [if_pos (beq_iff_eq.2 hc), if_pos hc]
        exact ⟨[] :: parts, rest, rfl, hrest, .cons (.inl rfl) hlines⟩
      rw [if_neg (mt beq_iff_eq.1 hc), if_neg hc]
      cases hrows : linesBy '\n' '\r' cs with
      | nil =>
          rw [hrows] at hlines
          cases hlines
          -- no line follows, so the character makes the empty part at the end a line
          have hlast : rest = [[]] := hrest.resolve_left fun hnil => by
            rw [hnil] at hparts
            exact List.splitOn_ne_nil _ _ hparts
          exact ⟨[[c]], [], by rw [hlast]; rfl, .inl rfl, .cons (.inl rfl) .nil⟩
      | cons line rows =>
          rw [hrows] at hlines
          cases hlines with
          | @cons _ part _ parts hsame hlines =>
          refine ⟨(c :: part) :: parts, rest, rfl, hrest, ?_⟩
          dsimp only
          by_cases hreturn : (decide (c = '\r') && decide (cs.head? = some '\n')) = true
          · -- the carriage return is all that stands before its newline
            obtain ⟨rfl, hnewline⟩ : c = '\r' ∧ cs.head? = some '\n' := by simpa using hreturn
            obtain ⟨ds, rfl⟩ := List.head?_eq_some_iff.1 hnewline
            rw [List.splitOn_cons_eq_if_modifyHead, if_pos (beq_iff_eq.2 rfl)] at hparts
            obtain rfl : [] = part := (List.cons.inj hparts).1
            rw [if_pos hreturn]
            exact .cons (.inr rfl) hlines
          · rw [if_neg hreturn]
            refine .cons ?_ hlines
            cases hsame with
            | inl heq =>
                subst heq
                exact .inl rfl
            | inr heq =>
                subst heq
                exact .inr rfl

end Split

end LoxSyntax.Text
