import LoxSyntax.Proofs.Source.Location

/-!
The line table cuts a file into its lines. The ranges lie side by side from the start of the file to
its end, each between two characters, so every line can be taken out of the text; put behind one
another the lines are the text again, and a newline ends each of them but the last.
-/

namespace LoxSyntax.Text

/-- A text that ends in a newline and has no other. -/
def IsClosedLine (line : List Char) : Prop :=
  ∃ text, line = text ++ ['\n'] ∧ '\n' ∉ text

theorem IsClosedLine.cons {c : Char} {line : List Char} (hc : c ≠ '\n') (h : IsClosedLine line) :
    IsClosedLine (c :: line) := by
  obtain ⟨text, rfl, htext⟩ := h
  exact ⟨c :: text, rfl, List.not_mem_cons_of_ne_of_not_mem hc.symm htext⟩

/-- Newlines end all lines of a text but the last, and stand nowhere else. -/
theorem exists_rawLines_concat (cs : List Char) :
    ∃ closed last, rawLines cs = closed ++ [last] ∧ (∀ line ∈ closed, IsClosedLine line) ∧
      '\n' ∉ last := by
  induction cs with
  | nil => exact ⟨[], [], rfl, List.forall_mem_nil _, List.not_mem_nil⟩
  | cons c cs ih =>
      obtain ⟨closed, last, hlines, hclosed, hlast⟩ := ih
      by_cases hc : c = '\n'
      · subst hc
        refine ⟨['\n'] :: closed, last, ?_, ?_, hlast⟩
        · rw [rawLines_newline, hlines, List.cons_append]
        · exact List.forall_mem_cons.2 ⟨⟨[], rfl, List.not_mem_nil⟩, hclosed⟩
      · rw [rawLines_cons hc]
        -- the character joins the first line, which is also the last if no newline follows
        cases closed with
        | nil =>
            obtain ⟨hfirst, hlater⟩ := List.cons.inj hlines
            refine ⟨[], c :: last, by rw [hfirst, hlater, List.nil_append], hclosed, ?_⟩
            exact List.not_mem_cons_of_ne_of_not_mem (Ne.symm hc) hlast
        | cons line closed =>
            obtain ⟨hfirst, hlater⟩ := List.cons.inj hlines
            obtain ⟨hline, hclosed⟩ := List.forall_mem_cons.1 hclosed
            refine ⟨(c :: line) :: closed, last, by rw [hfirst, hlater]; rfl, ?_, hlast⟩
            exact List.forall_mem_cons.2 ⟨hline.cons hc, hclosed⟩

end LoxSyntax.Text

namespace LoxSyntax.Source

open Text

namespace File

/-- These texts are the lines of the file, in order and numbered from one. -/
structure HasLines (file : File) (lines : List String) : Prop where
  numbered : ∀ index, file.line? (index + 1) = lines[index]?
  length : lines.length = file.lineCount
  isSome_iff : ∀ number, (file.line? number).isSome ↔ 1 ≤ number ∧ number ≤ file.lineCount
  count : file.lineCount = 1 + newlines file.chars
  joined : String.join lines = file.content
  closed : ∀ line ∈ lines.dropLast, IsClosedLine line.toList
  last : ∃ line, lines.getLast? = some line ∧ '\n' ∉ line.toList

/-- The ranges of the line table follow one another without a gap, and the text can be cut at the
ends of each. -/
structure Tiled (file : File) : Prop where
  first : file.lineTable.head?.map ByteRange.start = some 0
  last : file.lineTable.getLast?.map ByteRange.stop = some file.size
  adjacent : ∀ index a b, file.lineTable[index]? = some a → file.lineTable[index + 1]? = some b →
    a.stop = b.start
  valid : ∀ range ∈ file.lineTable, Span.Valid ⟨file, range.start, range.stop⟩
  sliced : ∀ index range, file.lineTable[index]? = some range →
    ∃ line, file.line? (index + 1) = some line ∧
      slice? range.start range.stop file.chars = some line.toList

end File

theorem stop_eq_start_of_adjacent {offset index : Nat} {xs : List (List Char)} {a b : ByteRange}
    (ha : (layLines offset xs)[index]? = some a)
    (hb : (layLines offset xs)[index + 1]? = some b) : a.stop = b.start := by
  induction xs generalizing offset index with
  | nil => cases ha
  | cons x xs ih =>
      cases index with
      | zero =>
          cases xs with
          | nil => cases hb
          | cons y ys =>
              cases ha
              cases hb
              rfl
      | succ index => exact ih ha hb

theorem stop_getLast?_layLines (offset : Nat) {xs : List (List Char)} (h : xs ≠ []) :
    (layLines offset xs).getLast?.map ByteRange.stop = some (offset + width xs.flatten) := by
  induction xs generalizing offset with
  | nil => exact absurd rfl h
  | cons x xs ih =>
      rw [List.flatten_cons, width_append, ← Nat.add_assoc]
      cases xs with
      | nil => rfl
      | cons y ys => exact ih _ (List.cons_ne_nil y ys)

namespace File

variable {file : File} {index : Nat} {range : ByteRange}

theorem line?_succ (file : File) (index : Nat) :
    file.line? (index + 1) = ((rawLines file.chars).map String.ofList)[index]? := by
  rw [List.getElem?_map]
  cases Nat.lt_or_ge index (rawLines file.chars).length with
  | inl hlt =>
      obtain ⟨earlier, line, later, hlines, rfl⟩ := exists_append_cons_of_lt hlt
      rw [line?_eq hlines, hlines, List.getElem?_append_right (Nat.le_refl _), Nat.sub_self]
      rfl
  | inr hge =>
      have hnone : file.lineTable[index]? = none := by
        rw [lineTable_eq, List.getElem?_eq_none_iff, length_layLines]
        exact hge
      rw [line?, if_neg (Nat.succ_ne_zero _), Nat.add_sub_cancel, hnone,
        List.getElem?_eq_none hge]
      rfl

/-- An entry of the line table is where the line of its number stands in the text. -/
theorem exists_split_of_getElem? (h : file.lineTable[index]? = some range) :
    ∃ before line after, file.chars = before ++ line ++ after ∧
      range = ⟨width before, width before + width line⟩ ∧
      file.line? (index + 1) = some (String.ofList line) := by
  have hlt : index < (rawLines file.chars).length := by
    rw [← length_layLines 0, ← lineTable_eq]
    exact (List.getElem?_eq_some_iff.1 h).1
  obtain ⟨earlier, line, later, hlines, rfl⟩ := exists_append_cons_of_lt hlt
  rw [getElem?_lineTable hlines] at h
  exact ⟨earlier.flatten, line, later.flatten, eq_flatten_of_rawLines hlines,
    (Option.some.inj h).symm, line?_eq hlines⟩

theorem isSome_line?_iff (number : Nat) :
    (file.line? number).isSome ↔ 1 ≤ number ∧ number ≤ file.lineCount := by
  cases number with
  | zero => simp [line?]
  | succ index =>
      rw [line?_succ, isSome_getElem?, List.length_map, length_rawLines, ← lineCount_eq]
      omega

theorem hasLines (file : File) : file.HasLines ((rawLines file.chars).map String.ofList) := by
  obtain ⟨closed, last, hlines, hclosed, hlast⟩ := exists_rawLines_concat file.chars
  refine
    { numbered := line?_succ file
      length := by rw [List.length_map, length_rawLines, lineCount_eq]
      isSome_iff := isSome_line?_iff
      count := lineCount_eq file
      joined := ?_
      closed := ?_
      last := ?_ }
  · rw [← String.toList_inj, String.toList_join, List.flatMap_map]
    simp only [String.toList_ofList, List.flatMap_id', flatten_rawLines]
    rfl
  · rw [hlines, List.map_append, List.map_singleton, List.dropLast_concat]
    intro line hline
    obtain ⟨text, htext, rfl⟩ := List.mem_map.1 hline
    rw [String.toList_ofList]
    exact hclosed text htext
  · refine ⟨String.ofList last, ?_, by rwa [String.toList_ofList]⟩
    rw [hlines, List.map_append, List.map_singleton, List.getLast?_concat]

theorem tiled (file : File) : file.Tiled where
  first := by
    rw [lineTable_eq]
    rfl
  last := by
    have hlines : rawLines file.chars ≠ [] := List.cons_ne_nil _ _
    rw [lineTable_eq, stop_getLast?_layLines 0 hlines, flatten_rawLines, Nat.zero_add]
    rfl
  adjacent := by
    intro index a b ha hb
    rw [lineTable_eq] at ha hb
    exact stop_eq_start_of_adjacent ha hb
  valid := by
    intro range hrange
    obtain ⟨index, hindex⟩ := List.mem_iff_getElem?.1 hrange
    obtain ⟨before, line, after, hchars, rfl, -⟩ := exists_split_of_getElem? hindex
    exact Span.valid_of_split hchars
  sliced := by
    intro index range h
    obtain ⟨before, line, after, hchars, rfl, hline⟩ := exists_split_of_getElem? h
    refine ⟨String.ofList line, hline, ?_⟩
    rw [hchars, String.toList_ofList]
    exact slice?_append before line after

/-- Whatever its text, a file is cut into lines by the ranges of its line table, and no number but
those of the lines leads to one. -/
theorem partitioned (file : File) : ∃ lines, file.HasLines lines ∧ file.Tiled :=
  ⟨_, file.hasLines, file.tiled⟩

end File

end LoxSyntax.Source
