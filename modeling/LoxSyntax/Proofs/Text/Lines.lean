import LoxSyntax.Text.Lines

/-!
What the lines of a sequence are, said without the reader: each ends at a newline or with the
sequence, has no newline in it, and is without one carriage return that stands before its newline.
-/

namespace LoxSyntax.Text

/-- A sequence is cut into lines. -/
inductive CutInto {α : Type} (newline carriage : α) : List α → List (List α) → Prop
  | nothing : CutInto newline carriage [] []
  | last {line : List α} (hne : line ≠ []) (hline : newline ∉ line) :
      CutInto newline carriage line [line]
  | feed {line rest : List α} {lines : List (List α)} (hline : newline ∉ line)
      (hlast : line.getLast? ≠ some carriage) (hrest : CutInto newline carriage rest lines) :
      CutInto newline carriage (line ++ newline :: rest) (line :: lines)
  | carriageFeed {line rest : List α} {lines : List (List α)} (hline : newline ∉ line)
      (hrest : CutInto newline carriage rest lines) :
      CutInto newline carriage (line ++ [carriage] ++ newline :: rest) (line :: lines)

section Lines

variable {α : Type} {newline carriage : α} {line xs rest : List α} {lines : List (List α)}

theorem CutInto.newline_not_mem (h : CutInto newline carriage xs lines) :
    ∀ line ∈ lines, newline ∉ line := by
  induction h with
  | nothing => exact fun _ hmem => absurd hmem List.not_mem_nil
  | last _ hline => exact List.forall_mem_singleton.2 hline
  | feed hline _ _ ih | carriageFeed hline _ ih => exact List.forall_mem_cons.2 ⟨hline, ih⟩

variable [DecidableEq α]

theorem linesBy_of_not_mem (hne : line ≠ []) (hline : newline ∉ line) :
    linesBy newline carriage line = [line] := by
  induction line with
  | nil => exact absurd rfl hne
  | cons x line ih =>
      rw [List.mem_cons, not_or] at hline
      rw [linesBy, if_neg (Ne.symm hline.1)]
      cases line with
      | nil => rfl
      | cons y line =>
          have hy : y ≠ newline := fun h => hline.2 (h ▸ List.mem_cons_self)
          simp [ih (List.cons_ne_nil y line) hline.2, hy]

/-- What stands before the first newline is the first line, but for a carriage return. -/
theorem linesBy_append_newline (hline : newline ∉ line) :
    linesBy newline carriage (line ++ newline :: rest) =
      (if line.getLast? = some carriage then line.dropLast else line) ::
        linesBy newline carriage rest := by
  induction line with
  | nil => simp [linesBy]
  | cons x line ih =>
      rw [List.mem_cons, not_or] at hline
      rw [List.cons_append, linesBy, if_neg (Ne.symm hline.1), ih hline.2]
      cases line with
      | nil =>
          by_cases hx : x = carriage
          · simp [hx]
          · simp [hx]
      | cons y line =>
          have hy : y ≠ newline := fun h => hline.2 (h ▸ List.mem_cons_self)
          by_cases hlast : (y :: line).getLast? = some carriage
          · simp [hy, hlast]
          · simp [hy, hlast]

/-- There is one way to cut a sequence into lines, and reading its lines finds it. -/
theorem cutInto_iff (hne : carriage ≠ newline) :
    CutInto newline carriage xs lines ↔ lines = linesBy newline carriage xs := by
  constructor
  · intro h
    induction h with
    | nothing => rfl
    | last hne hline => exact (linesBy_of_not_mem hne hline).symm
    | feed hline hlast _ ih => rw [linesBy_append_newline hline, if_neg hlast, ih]
    | @carriageFeed line rest lines hline _ ih =>
        have hwhole : newline ∉ line ++ [carriage] := by simp [hline, hne.symm]
        rw [linesBy_append_newline hwhole, if_pos List.getLast?_concat, List.dropLast_concat, ih]
  · rintro rfl
    -- the induction is on the length, since each step takes a whole line
    induction hn : xs.length using Nat.strongRecOn generalizing xs with
    | ind n ih =>
        by_cases hmem : newline ∈ xs
        · obtain ⟨line, rest, rfl, hline⟩ := List.eq_append_cons_of_mem hmem
          have hrest := ih rest.length (by simp [← hn]; omega) rfl
          rw [linesBy_append_newline hline]
          by_cases hlast : line.getLast? = some carriage
          · obtain ⟨front, rfl⟩ := List.getLast?_eq_some_iff.1 hlast
            rw [if_pos hlast, List.dropLast_concat]
            exact .carriageFeed (fun h => hline (List.mem_append_left _ h)) hrest
          · rw [if_neg hlast]
            exact .feed hline hlast hrest
        · cases xs with
          | nil => exact .nothing
          | cons x xs =>
              rw [linesBy_of_not_mem (List.cons_ne_nil x xs) hmem]
              exact .last (List.cons_ne_nil x xs) hmem

end Lines

/-- A text up to the end of as many lines as are asked for. -/
def firstLines : Nat → List Char → List Char
  | 0, _ => []
  | _ + 1, [] => []
  | n + 1, c :: cs => c :: (if c = '\n' then firstLines n cs else firstLines (n + 1) cs)

section First

variable {line : List Char}

theorem firstLines_of_not_mem (n : Nat) (hline : '\n' ∉ line) :
    firstLines (n + 1) line = line := by
  induction line with
  | nil => rfl
  | cons c line ih =>
      rw [List.mem_cons, not_or] at hline
      rw [firstLines, if_neg (Ne.symm hline.1), ih hline.2]

theorem firstLines_append_newline (n : Nat) (hline : '\n' ∉ line) (rest : List Char) :
    firstLines (n + 1) (line ++ '\n' :: rest) = line ++ '\n' :: firstLines n rest := by
  induction line with
  | nil => rfl
  | cons c line ih =>
      rw [List.mem_cons, not_or] at hline
      rw [List.cons_append, firstLines, if_neg (Ne.symm hline.1), ih hline.2, List.cons_append]

theorem lines_firstLines (n : Nat) (cs : List Char) :
    lines (firstLines n cs) = (lines cs).take n := by
  unfold lines
  induction n generalizing cs with
  | zero => rw [firstLines, linesBy, List.take_zero]
  | succ n ih =>
      by_cases hmem : '\n' ∈ cs
      · obtain ⟨line, rest, rfl, hline⟩ := List.eq_append_cons_of_mem hmem
        rw [firstLines_append_newline n hline, linesBy_append_newline hline,
          linesBy_append_newline hline, List.take_succ_cons, ih]
      · rw [firstLines_of_not_mem n hmem]
        cases cs with
        | nil => rw [linesBy, List.take_nil]
        | cons c cs =>
            rw [linesBy_of_not_mem (List.cons_ne_nil c cs) hmem, List.take_succ_cons, List.take_nil]

end First

end LoxSyntax.Text
