import LoxSyntax.Source.Span

/-!
What the line table of a file says. Its ranges are the lines of the text, each with its newline,
laid side by side; the line of a place is the one that the newlines before it lead to, and the
binary search finds it there.
-/

namespace LoxSyntax.Text

/-- The first line of a text, with its newline. -/
def firstLine : List Char → List Char
  | [] => []
  | c :: cs => if c = '\n' then [c] else c :: firstLine cs

/-- The lines behind the first, each with its newline. -/
def laterLines : List Char → List (List Char)
  | [] => []
  | c :: cs => if c = '\n' then firstLine cs :: laterLines cs else laterLines cs

/-- The lines of a text, each with its newline. There is always a last line. -/
def rawLines (cs : List Char) : List (List Char) :=
  firstLine cs :: laterLines cs

/-- What a text holds behind its last newline. -/
def openLine : List Char → List Char
  | [] => []
  | c :: cs => if '\n' ∈ c :: cs then openLine cs else c :: cs

theorem exists_firstLine_cons (c : Char) (cs : List Char) :
    ∃ rest, firstLine (c :: cs) = c :: rest := by
  rw [firstLine]
  split
  · exact ⟨[], rfl⟩
  · exact ⟨firstLine cs, rfl⟩

theorem flatten_rawLines (cs : List Char) : (rawLines cs).flatten = cs := by
  induction cs with
  | nil => rfl
  | cons c cs ih =>
      rw [rawLines, List.flatten_cons] at ih ⊢
      rw [firstLine, laterLines]
      split
      · rw [List.flatten_cons, ih, List.singleton_append]
      · rw [List.cons_append, ih]

/-- A line stands in the text behind all lines before it. -/
theorem eq_flatten_of_rawLines {cs line : List Char} {earlier later : List (List Char)}
    (h : rawLines cs = earlier ++ line :: later) :
    cs = earlier.flatten ++ line ++ later.flatten := by
  rw [← flatten_rawLines cs, h, List.flatten_append, List.flatten_cons, List.append_assoc]

theorem length_rawLines (cs : List Char) : (rawLines cs).length = 1 + newlines cs := by
  induction cs with
  | nil => rfl
  | cons c cs ih =>
      rw [rawLines, List.length_cons] at ih ⊢
      rw [laterLines, newlines_cons]
      split
      · rw [List.length_cons]
        omega
      · exact ih

theorem openLine_of_no_newline {cs : List Char} (h : newlines cs = 0) : openLine cs = cs := by
  cases cs with
  | nil => rfl
  | cons c cs => rw [openLine, if_neg (List.count_eq_zero.1 h)]

theorem openLine_of_newline {c : Char} {cs : List Char} (h : newlines (c :: cs) ≠ 0) :
    openLine (c :: cs) = openLine cs := by
  rw [openLine, if_pos (List.count_pos_iff.1 (Nat.pos_of_ne_zero h))]

theorem rawLines_newline (cs : List Char) : rawLines ('\n' :: cs) = ['\n'] :: rawLines cs := by
  rw [rawLines, firstLine, laterLines, if_pos rfl, if_pos rfl, rawLines]

theorem rawLines_cons {c : Char} (hc : c ≠ '\n') (cs : List Char) :
    rawLines (c :: cs) = (c :: firstLine cs) :: laterLines cs := by
  rw [rawLines, firstLine, laterLines, if_neg hc, if_neg hc]

/-- The lines of a text on both sides of a place. Its line has the newlines before the place as
number and is cut in two there. -/
theorem rawLines_append (before after : List Char) :
    ∃ earlier, rawLines (before ++ after) =
        earlier ++ (openLine before ++ firstLine after) :: laterLines after ∧
      earlier.length = newlines before ∧ earlier.flatten ++ openLine before = before := by
  induction before with
  | nil => exact ⟨[], rfl, rfl, rfl⟩
  | cons c cs ih =>
      obtain ⟨earlier, hlines, hlength, hflat⟩ := ih
      by_cases hc : c = '\n'
      · subst hc
        have hnumber : newlines ('\n' :: cs) = newlines cs + 1 := by rw [newlines_cons, if_pos rfl]
        refine ⟨['\n'] :: earlier, ?_, ?_, ?_⟩
        · rw [List.cons_append, rawLines_newline, hlines, openLine_of_newline (by omega),
            List.cons_append]
        · rw [List.length_cons, hlength, hnumber]
        · rw [openLine_of_newline (by omega), List.flatten_cons, List.append_assoc, hflat,
            List.singleton_append]
      · have hnumber : newlines (c :: cs) = newlines cs := by rw [newlines_cons, if_neg hc]; rfl
        -- the character joins the first line, which is that of the place if no newline is before it
        cases earlier with
        | nil =>
            obtain ⟨hfirst, hlater⟩ := List.cons.inj hlines
            have hnone : newlines cs = 0 := hlength.symm
            refine ⟨[], ?_, hnumber ▸ hlength, ?_⟩
            · rw [List.cons_append, rawLines_cons hc, hfirst, hlater,
                openLine_of_no_newline hnone, openLine_of_no_newline (hnumber.trans hnone)]
              rfl
            · exact openLine_of_no_newline (hnumber.trans hnone)
        | cons line earlier =>
            obtain ⟨hfirst, hlater⟩ := List.cons.inj hlines
            rw [List.length_cons] at hlength
            refine ⟨(c :: line) :: earlier, ?_, ?_, ?_⟩
            · rw [List.cons_append, rawLines_cons hc, hfirst, hlater,
                openLine_of_newline (by omega)]
              rfl
            · rw [List.length_cons, hlength, hnumber]
            · rw [openLine_of_newline (by omega), List.flatten_cons, List.cons_append,
                List.cons_append, ← List.flatten_cons, hflat]

end LoxSyntax.Text

namespace LoxSyntax.Source

open Text

/-- The ranges of lines laid side by side from an offset on. -/
def layLines (offset : Nat) : List (List Char) → List ByteRange
  | [] => []
  | line :: lines => ⟨offset, offset + width line⟩ :: layLines (offset + width line) lines

theorem layLines_append (offset : Nat) (xs ys : List (List Char)) :
    layLines offset (xs ++ ys) = layLines offset xs ++ layLines (offset + width xs.flatten) ys := by
  induction xs generalizing offset with
  | nil => rfl
  | cons x xs ih =>
      rw [List.cons_append, layLines, layLines, ih, List.flatten_cons, width_append,
        Nat.add_assoc, List.cons_append]

@[simp] theorem length_layLines (offset : Nat) (xs : List (List Char)) :
    (layLines offset xs).length = xs.length := by
  induction xs generalizing offset with
  | nil => rfl
  | cons x xs ih => rw [layLines, List.length_cons, ih, List.length_cons]

theorem lineRanges_eq (start offset : Nat) (cs : List Char) :
    lineRanges start offset cs = ⟨start, offset + width (firstLine cs)⟩ ::
      layLines (offset + width (firstLine cs)) (laterLines cs) := by
  induction cs generalizing start offset with
  | nil => rfl
  | cons c cs ih =>
      rw [lineRanges, firstLine, laterLines]
      split
      · rw [ih, layLines, width_cons, width_nil, Nat.add_zero]
      · rw [ih, width_cons, Nat.add_assoc]

theorem le_start_of_mem_layLines {offset : Nat} {xs : List (List Char)} {range : ByteRange}
    (h : range ∈ layLines offset xs) : offset ≤ range.start ∧ range.start ≤ range.stop := by
  induction xs generalizing offset with
  | nil => cases h
  | cons x xs ih =>
      rw [layLines, List.mem_cons] at h
      cases h with
      | inl heq =>
          subst heq
          exact ⟨Nat.le_refl _, Nat.le_add_right _ _⟩
      | inr h =>
          obtain ⟨hle, horder⟩ := ih h
          exact ⟨Nat.le_trans (Nat.le_add_right _ _) hle, horder⟩

theorem pairwise_layLines (offset : Nat) (xs : List (List Char)) :
    (layLines offset xs).Pairwise fun a b => a.stop ≤ b.start := by
  induction xs generalizing offset with
  | nil => exact .nil
  | cons x xs ih => exact .cons (fun b hb => (le_start_of_mem_layLines hb).1) (ih _)

namespace ByteRange

theorem place_eq_iff {offset : Nat} {range : ByteRange} :
    range.place offset = .eq ↔ range.start ≤ offset ∧ offset < range.stop := by
  unfold ByteRange.place ByteRange.contains
  rw [← decide_eq_true_iff (p := range.start ≤ offset ∧ offset < range.stop)]
  rw [Bool.decide_and]
  split
  · next h => simp [h]
  · next h => split <;> simp [h]

/-- Of two ranges side by side, the first lies before an offset or the second behind it. -/
theorem place_of_stop_le {a b : ByteRange} (offset : Nat) (ha : a.start ≤ a.stop)
    (h : a.stop ≤ b.start) :
    a.place offset = .lt ∨ b.place offset = .gt := by
  cases Nat.lt_or_ge offset b.start with
  | inl hlt =>
      refine .inr ?_
      have hcontains : b.contains offset = false := by
        simp only [contains, Nat.not_le.2 hlt, decide_false, Bool.false_and]
      simp only [place, hcontains, Bool.false_eq_true, if_false, if_pos hlt]
  | inr hge =>
      refine .inl ?_
      have hcontains : a.contains offset = false := by
        simp only [contains, Nat.not_lt.2 (Nat.le_trans h hge), decide_false, Bool.and_false]
      have hstart : ¬ offset < a.start := by omega
      simp only [place, hcontains, Bool.false_eq_true, if_false, if_neg hstart]

end ByteRange

namespace File

variable {file : File}

theorem lineTable_eq (file : File) : file.lineTable = layLines 0 (rawLines file.chars) := by
  rw [lineTable, lineRanges_eq, rawLines, layLines]

/-- There is one line more than newlines. -/
theorem lineCount_eq (file : File) : file.lineCount = 1 + newlines file.chars := by
  rw [lineCount, lineTable_eq, length_layLines, length_rawLines]

theorem inOrder_lineTable (file : File) (offset : Nat) :
    InOrder (ByteRange.place offset) file.lineTable.toArray := by
  intro i j a b hij ha hb
  rw [List.getElem?_toArray] at ha hb
  obtain ⟨hi, rfl⟩ := List.getElem?_eq_some_iff.1 ha
  obtain ⟨hj, rfl⟩ := List.getElem?_eq_some_iff.1 hb
  have hordered : ∀ range ∈ file.lineTable, range.start ≤ range.stop := by
    intro range hrange
    rw [lineTable_eq] at hrange
    exact (le_start_of_mem_layLines hrange).2
  have hpairs : file.lineTable.Pairwise fun a b => a.stop ≤ b.start := by
    rw [lineTable_eq]
    exact pairwise_layLines 0 _
  exact ByteRange.place_of_stop_le offset (hordered _ (List.getElem_mem hi))
    (List.pairwise_iff_getElem.1 hpairs i j hi hj hij)

/-- The entry of the line table at a number is the place of the line of that number. -/
theorem getElem?_lineTable {earlier later : List (List Char)} {line : List Char}
    (h : rawLines file.chars = earlier ++ line :: later) :
    file.lineTable[earlier.length]? =
      some ⟨width earlier.flatten, width earlier.flatten + width line⟩ := by
  rw [lineTable_eq, h, layLines_append, List.getElem?_append_right (by simp)]
  simp [layLines]

theorem line?_eq {earlier later : List (List Char)} {line : List Char}
    (h : rawLines file.chars = earlier ++ line :: later) :
    file.line? (earlier.length + 1) = some (String.ofList line) := by
  rw [line?, if_neg (Nat.succ_ne_zero _), Nat.add_sub_cancel, getElem?_lineTable h,
    Option.map_some, eq_flatten_of_rawLines h, slice_append]

/-- A character of a line is found in it, behind the characters that the line has before it. -/
theorem locate?_of_line {earlier later : List (List Char)} {before after : List Char} {c : Char}
    (h : rawLines file.chars = earlier ++ (before ++ c :: after) :: later) :
    file.locate? (width earlier.flatten + width before) =
      some ⟨earlier.length + 1, before.length + 1⟩ := by
  have hrange := getElem?_lineTable h
  have hline := line?_eq h
  have hchars : file.chars =
      (earlier.flatten ++ before) ++ (c :: after ++ later.flatten) := by
    rw [eq_flatten_of_rawLines h]
    simp only [List.append_assoc]
  have hplace : file.isPlace (width earlier.flatten + width before) = true := by
    rw [File.isPlace, hchars, ← width_append]
    exact isPlace_width _ _
  have hfound : search? (ByteRange.place (width earlier.flatten + width before))
      file.lineTable.toArray 0 file.lineTable.toArray.size = some earlier.length := by
    have hpos := width_pos (List.cons_ne_nil c after)
    rw [search?_eq_some_iff (inOrder_lineTable file _), List.getElem?_toArray, hrange,
      Option.map_some, Option.some.injEq, ByteRange.place_eq_iff, width_append]
    exact ⟨Nat.le_add_right _ _,
      Nat.add_lt_add_left (Nat.lt_add_of_pos_right hpos) _⟩
  simp only [locate?, hplace, if_true, hfound, hrange, hline, String.toList_ofList,
    Nat.add_sub_cancel_left, countWithin_append_width, Option.pure_def, Option.bind_eq_bind,
    Option.bind_some]

/-- A character of a file is on the line that the newlines before it lead to, behind what they
leave open. -/
theorem locate?_eq {before after : List Char} {c : Char} (h : file.chars = before ++ c :: after) :
    file.locate? (width before) =
      some ⟨1 + newlines before, 1 + (openLine before).length⟩ := by
  obtain ⟨earlier, hlines, hlength, hflat⟩ := rawLines_append before (c :: after)
  obtain ⟨rest, hrest⟩ := exists_firstLine_cons c after
  rw [← h, hrest] at hlines
  have hlocated := locate?_of_line hlines
  rwa [← width_append, hflat, hlength, Nat.add_comm _ 1, Nat.add_comm _ 1] at hlocated

end File

end LoxSyntax.Source
