import LoxSyntax.Proofs.Source.LineTable
import Mathlib.Logic.ExistsUnique

/-!
Locations and offsets tell the same places. The characters of a file have locations and nothing
else has; these are in the order of the text, and no column of a line is left out.
-/

namespace LoxSyntax.Text

theorem openLine_append {after : List Char} (h : newlines after = 0) (before : List Char) :
    openLine (before ++ after) = openLine before ++ after := by
  induction before with
  | nil => exact openLine_of_no_newline h
  | cons c cs ih =>
      have hsame : newlines (c :: cs ++ after) = newlines (c :: cs) := by
        rw [newlines_append, h, Nat.add_zero]
      by_cases hnone : newlines (c :: cs) = 0
      · rw [openLine_of_no_newline hnone, openLine_of_no_newline (hsame.trans hnone)]
      · rw [openLine_of_newline hnone, ← ih]
        exact openLine_of_newline (hsame ▸ hnone)

theorem exists_append_cons_of_lt {α : Type} {xs : List α} {n : Nat} (h : n < xs.length) :
    ∃ before x after, xs = before ++ x :: after ∧ before.length = n :=
  ⟨xs.take n, xs[n], xs.drop (n + 1),
    by rw [← List.drop_eq_getElem_cons, List.take_append_drop],
    List.length_take_of_le (Nat.le_of_lt h)⟩

/-- A place is the end of the text, or the place of a character. -/
theorem isPlace_cases {offset : Nat} {cs : List Char} (h : isPlace offset cs = true) :
    offset = width cs ∨ ∃ before c after, cs = before ++ c :: after ∧ offset = width before := by
  obtain ⟨before, after, rfl, rfl⟩ := (isPlace_iff _ _).1 h
  cases after with
  | nil => exact .inl (by rw [List.append_nil])
  | cons c after => exact .inr ⟨before, c, after, rfl, rfl⟩

theorem le_width_of_isPlace {offset : Nat} {cs : List Char} (h : isPlace offset cs = true) :
    offset ≤ width cs := by
  obtain ⟨before, after, rfl, rfl⟩ := (isPlace_iff _ _).1 h
  rw [width_append]
  exact Nat.le_add_right _ _

/-- Of two beginnings of a text, the narrower one is a beginning of the other. -/
theorem exists_append_of_width_lt {before more after rest : List Char}
    (h : before ++ after = more ++ rest) (hwidth : width before < width more) :
    ∃ between, between ≠ [] ∧ more = before ++ between := by
  cases List.append_eq_append_iff.1 h with
  | inl hlonger =>
      obtain ⟨between, hmore, -⟩ := hlonger
      refine ⟨between, ?_, hmore⟩
      rintro rfl
      rw [hmore, List.append_nil] at hwidth
      exact Nat.lt_irrefl _ hwidth
  | inr hshorter =>
      obtain ⟨between, hbefore, -⟩ := hshorter
      rw [hbefore, width_append] at hwidth
      omega

end LoxSyntax.Text

namespace LoxSyntax.Source

open Text

/-- A location further up in the text, or further left on its line. -/
def Location.Before (a b : Location) : Prop :=
  a.line < b.line ∨ a.line = b.line ∧ a.column < b.column

theorem Location.not_before_self (location : Location) : ¬ location.Before location := by
  intro h
  cases h with
  | inl h => exact Nat.lt_irrefl _ h
  | inr h => exact Nat.lt_irrefl _ h.2

namespace File

/-- What a file holds before an offset. -/
def textBefore (file : File) (offset : Nat) : List Char :=
  takeBytes offset file.chars

/-- Locations are found for the characters of a file only. They count the newlines before the
character and the characters between the last of these and itself, and so are in the order of the
text; the columns of the lines are their locations, each that of one character. -/
structure LocatesExactly (file : File) : Prop where
  isSome_iff : ∀ offset, (file.locate? offset).isSome ↔ file.isPlace offset ∧ offset < file.size
  line : ∀ offset location, file.locate? offset = some location →
    location.line = 1 + newlines (file.textBefore offset)
  column : ∀ offset location, file.locate? offset = some location →
    location.column = 1 + (openLine (file.textBefore offset)).length
  ascending : ∀ offset later location next, file.locate? offset = some location →
    file.locate? later = some next → offset < later → location.Before next
  distinct : ∀ offset other location, file.locate? offset = some location →
    file.locate? other = some location → offset = other
  inside : ∀ offset location, file.locate? offset = some location →
    ∃ text, file.line? location.line = some text ∧ location.column ≤ text.length
  exhaustive : ∀ line, 1 ≤ line → line ≤ file.lineCount →
    ∃ text, file.line? line = some text ∧
      ∀ column, 1 ≤ column → column ≤ text.length →
        ∃! offset, file.locate? offset = some ⟨line, column⟩

variable {file : File} {offset later line column : Nat} {location next : Location}

theorem stop_le_of_mem_layLines {start : Nat} {lines : List (List Char)} {range : ByteRange}
    (h : range ∈ layLines start lines) : range.stop ≤ start + width lines.flatten := by
  induction lines generalizing start with
  | nil => cases h
  | cons first lines ih =>
      rw [layLines, List.mem_cons] at h
      rw [List.flatten_cons, width_append, ← Nat.add_assoc]
      cases h with
      | inl heq =>
          subst heq
          exact Nat.le_add_right _ _
      | inr h => exact ih h

/-- The range in which an offset is found ends inside the file. -/
theorem lt_size_of_locate? (h : file.locate? offset = some location) :
    file.isPlace offset = true ∧ offset < file.size := by
  unfold locate? at h
  split at h
  · next hplace =>
      refine ⟨hplace, ?_⟩
      obtain ⟨index, hindex, -⟩ := Option.bind_eq_some_iff.1 h
      obtain ⟨range, hrange, hat⟩ := Option.map_eq_some_iff.1 (search?_sound hindex)
      rw [List.getElem?_toArray, lineTable_eq] at hrange
      have hstop := stop_le_of_mem_layLines (List.mem_of_getElem? hrange)
      rw [flatten_rawLines, Nat.zero_add] at hstop
      exact Nat.lt_of_lt_of_le (ByteRange.place_eq_iff.1 hat).2 hstop
  · cases h

/-- A location belongs to a character. -/
theorem exists_of_locate? (h : file.locate? offset = some location) :
    ∃ before c after, file.chars = before ++ c :: after ∧ offset = width before := by
  obtain ⟨hplace, hsize⟩ := lt_size_of_locate? h
  cases isPlace_cases hplace with
  | inl heq => exact absurd heq (Nat.ne_of_lt hsize)
  | inr h => exact h

theorem exists_locate?_of_lt (hplace : file.isPlace offset = true) (hsize : offset < file.size) :
    ∃ location, file.locate? offset = some location := by
  cases isPlace_cases hplace with
  | inl heq => exact absurd heq (Nat.ne_of_lt hsize)
  | inr h =>
      obtain ⟨before, c, after, hchars, rfl⟩ := h
      exact ⟨_, locate?_eq hchars⟩

/-- A location counts what the file holds before the offset. -/
theorem eq_of_locate? (h : file.locate? offset = some location) :
    location = ⟨1 + newlines (file.textBefore offset),
      1 + (openLine (file.textBefore offset)).length⟩ := by
  obtain ⟨before, c, after, hchars, rfl⟩ := exists_of_locate? h
  rw [locate?_eq hchars] at h
  rw [textBefore, hchars, takeBytes_append_width]
  exact (Option.some.inj h).symm

theorem exists_line?_of_locate? (h : file.locate? offset = some location) :
    ∃ text, file.line? location.line = some text ∧ location.column ≤ text.length := by
  obtain ⟨before, c, after, hchars, rfl⟩ := exists_of_locate? h
  obtain ⟨earlier, hlines, hlength, -⟩ := rawLines_append before (c :: after)
  obtain ⟨rest, hrest⟩ := exists_firstLine_cons c after
  rw [← hchars, hrest] at hlines
  rw [locate?_eq hchars] at h
  cases h
  have hline := line?_eq hlines
  rw [hlength, Nat.add_comm] at hline
  refine ⟨_, hline, ?_⟩
  simp only [String.length_ofList, List.length_append, List.length_cons]
  omega

/-- If no newline stands between two characters they are on one line, and then the columns tell
which is the first. -/
theorem before_of_lt (hfirst : file.locate? offset = some location)
    (hsecond : file.locate? later = some next) (h : offset < later) : location.Before next := by
  obtain ⟨before, c, after, hchars, rfl⟩ := exists_of_locate? hfirst
  obtain ⟨more, d, rest, hmore, rfl⟩ := exists_of_locate? hsecond
  obtain ⟨between, hne, rfl⟩ := exists_append_of_width_lt (hchars.symm.trans hmore) h
  rw [locate?_eq hchars] at hfirst
  rw [locate?_eq hmore] at hsecond
  cases hfirst
  cases hsecond
  have hlines := newlines_append before between
  by_cases hnone : newlines between = 0
  · refine .inr ⟨by dsimp only; omega, ?_⟩
    have hlength := List.length_pos_iff.2 hne
    dsimp only
    rw [openLine_append hnone, List.length_append]
    omega
  · exact .inl (by dsimp only; omega)

theorem eq_of_same_location (hfirst : file.locate? offset = some location)
    (hsecond : file.locate? later = some location) : offset = later := by
  cases Nat.lt_trichotomy offset later with
  | inl h => exact absurd (before_of_lt hfirst hsecond h) location.not_before_self
  | inr h =>
      cases h with
      | inl heq => exact heq
      | inr h => exact absurd (before_of_lt hsecond hfirst h) location.not_before_self

/-- Each column of a line is that of a character. -/
theorem exists_locate?_of_column (hline : 1 ≤ line) (hcount : line ≤ file.lineCount) :
    ∃ text, file.line? line = some text ∧ ∀ column, 1 ≤ column → column ≤ text.length →
      ∃ offset, file.locate? offset = some ⟨line, column⟩ := by
  have hlt : line - 1 < (rawLines file.chars).length := by
    rw [length_rawLines, ← lineCount_eq]
    omega
  obtain ⟨earlier, text, later, hlines, hlength⟩ := exists_append_cons_of_lt hlt
  have hnumber : earlier.length + 1 = line := by omega
  refine ⟨String.ofList text, hnumber ▸ line?_eq hlines, fun column hcolumn hle => ?_⟩
  rw [String.length_ofList] at hle
  have hchar : column - 1 < text.length := by omega
  obtain ⟨before, c, after, rfl, hbefore⟩ := exists_append_cons_of_lt hchar
  have hnth : before.length + 1 = column := by omega
  exact ⟨_, hnumber ▸ hnth ▸ locate?_of_line hlines⟩

/-- The binary search over the line table finds the locations of all characters, and no others. -/
theorem locatesExactly (file : File) : file.LocatesExactly where
  isSome_iff := by
    intro offset
    rw [Option.isSome_iff_exists]
    constructor
    · intro h
      obtain ⟨location, hlocation⟩ := h
      exact lt_size_of_locate? hlocation
    · intro h
      exact exists_locate?_of_lt h.1 h.2
  line := fun _ _ h => congrArg Location.line (eq_of_locate? h)
  column := fun _ _ h => congrArg Location.column (eq_of_locate? h)
  ascending := fun _ _ _ _ => before_of_lt
  distinct := fun _ _ _ => eq_of_same_location
  inside := fun _ _ => exists_line?_of_locate?
  exhaustive := by
    intro line hline hcount
    obtain ⟨text, htext, hcolumns⟩ := exists_locate?_of_column hline hcount
    refine ⟨text, htext, fun column hcolumn hle => ?_⟩
    obtain ⟨offset, hoffset⟩ := hcolumns column hcolumn hle
    exact ⟨offset, hoffset, fun other hother => eq_of_same_location hother hoffset⟩

end File

end LoxSyntax.Source
