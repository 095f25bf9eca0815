import LoxSyntax.Proofs.Source.Location
import LoxSyntax.Source.Excerpt

/-!
Where diagnostics point. A span that begins at a character is shown there. One that begins at the
end of its file is shown at the last character, but only if that has one byte: one byte before the
end is no place otherwise, and then nothing but the path is shown.
-/

namespace LoxSyntax.Text

/-- No place lies inside a character. -/
theorem not_isPlace_inside {before after : List Char} {c : Char} {offset : Nat}
    (hstart : width before < offset) (hstop : offset < width before + c.utf8Size) :
    isPlace offset (before ++ c :: after) = false := by
  refine Bool.eq_false_iff.2 fun h => ?_
  obtain ⟨more, rest, hsplit, rfl⟩ := (isPlace_iff _ _).1 h
  obtain ⟨between, hne, rfl⟩ := exists_append_of_width_lt hsplit hstart
  obtain ⟨d, between, rfl⟩ := List.exists_cons_of_ne_nil hne
  rw [List.append_assoc, List.append_cancel_left_eq, List.cons_append] at hsplit
  cases hsplit
  rw [width_append, width_cons] at hstop
  omega

end LoxSyntax.Text

namespace LoxSyntax.Source

open Text

namespace Span

/-- What every excerpt begins with: an arrow and the path. -/
def arrow (span : Span) (display : Display) : String :=
  " " ++ Style.boldCyan.paint display.colored "-->" ++ " " ++
    (span.file.shownPath display.workingFolder).text

/-- The help that an excerpt ends with. -/
def below : Option String → String
  | none => ""
  | some help => "\n\n" ++ help

/-- The excerpt shows the character at an offset: its line and column behind the path, and the text
of its line without the blanks at the end. -/
def Shows (span : Span) (display : Display) (help : Option String) (offset : Nat) : Prop :=
  ∃ location line, span.file.locate? offset = some location ∧
    span.file.line? location.line = some line ∧
    span.excerpt display help =
      span.arrow display ++ ":" ++ toString location.line ++ ":" ++ toString location.column ++
        "\n" ++ " " ++ Style.boldCyan.paint display.colored (toString location.line ++ " |") ++
        " " ++ String.ofList (trimEnd line.toList) ++ below help

/-- Where a diagnostic has to point: at the start of the span or, at the very end, at the last
character. -/
def aim (span : Span) : Nat :=
  if span.start < span.file.size then span.start else width span.file.chars.dropLast

/-- The span begins at the end of its file, behind a character of several bytes. -/
def BehindWide (span : Span) : Prop :=
  span.start = span.file.size ∧ ∃ c ∈ span.file.chars.getLast?, 1 < c.utf8Size

variable {span : Span} {display : Display} {help : Option String} {location : Location}
  {offset : Nat}

theorem excerpt_of_none (h : span.shownLocation? = none) :
    span.excerpt display help = span.arrow display ++ below help := by
  simp only [excerpt, h]
  cases help with
  | none => simp only [below, String.append_empty, arrow]
  | some help => simp only [below, arrow, String.append_assoc]

/-- The line of a location is there to be shown. -/
theorem shows_of_shownLocation? (hshown : span.shownLocation? = some location)
    (hoffset : span.file.locate? offset = some location) : span.Shows display help offset := by
  obtain ⟨line, hline, -⟩ := File.exists_line?_of_locate? hoffset
  refine ⟨location, line, hoffset, hline, ?_⟩
  simp only [excerpt, hshown, hline]
  cases help with
  | none => simp only [below, String.append_empty, arrow, String.append_assoc]
  | some help => simp only [below, arrow, String.append_assoc]

theorem head?_below_ne (help : Option String) : (below help).toList.head? ≠ some ':' := by
  cases help with
  | none => decide
  | some help => simp [below]

/-- Behind the path of an excerpt that shows a character stands a colon. -/
theorem not_shows_of_none (h : span.shownLocation? = none) :
    ¬ span.Shows display help offset := by
  intro hshows
  obtain ⟨location, line, -, -, hexcerpt⟩ := hshows
  rw [excerpt_of_none h] at hexcerpt
  have hchars := congrArg String.toList hexcerpt
  simp only [String.toList_append, List.append_assoc, List.append_cancel_left_eq] at hchars
  exact head?_below_ne help (congrArg List.head? hchars)

theorem start_le_size (h : span.Valid) : span.start ≤ span.file.size :=
  Nat.le_trans h.1 (le_width_of_isPlace h.2.2)

theorem shows_of_lt (hvalid : span.Valid) (hstart : span.start < span.file.size) :
    span.Shows display help span.start := by
  obtain ⟨location, hlocation⟩ := File.exists_locate?_of_lt hvalid.2.1 hstart
  refine shows_of_shownLocation? ?_ hlocation
  rw [shownLocation?, location?, hlocation]
  rfl

theorem locate?_size (file : File) : file.locate? file.size = none := by
  refine Option.eq_none_iff_forall_ne_some.2 fun location h => ?_
  exact Nat.lt_irrefl _ (File.lt_size_of_locate? h).2

theorem shownLocation?_atEnd (h : span.start = span.file.size) :
    span.shownLocation? = span.file.locate? (span.file.size - 1) := by
  rw [shownLocation?, location?, h, locate?_size]
  rfl

section LastCharacter

variable {before : List Char} {c : Char}

theorem size_of_chars (h : span.file.chars = before ++ [c]) :
    span.file.size = width before + c.utf8Size := by
  rw [File.size, h, width_append, width_cons, width_nil, Nat.add_zero]

theorem shows_of_narrow (hchars : span.file.chars = before ++ [c])
    (hstart : span.start = span.file.size) (hc : c.utf8Size = 1) :
    span.Shows display help (width before) := by
  have hlast : span.file.size - 1 = width before := by
    rw [size_of_chars hchars, hc, Nat.add_sub_cancel]
  refine shows_of_shownLocation? ?_ (File.locate?_eq hchars)
  rw [shownLocation?_atEnd hstart, hlast, File.locate?_eq hchars]

theorem shownLocation?_of_wide (hchars : span.file.chars = before ++ [c])
    (hstart : span.start = span.file.size) (hc : 1 < c.utf8Size) : span.shownLocation? = none := by
  have hinside : span.file.isPlace (span.file.size - 1) = false := by
    have hsize := size_of_chars hchars
    rw [File.isPlace, hchars]
    exact not_isPlace_inside (by omega) (by omega)
  rw [shownLocation?_atEnd hstart, File.locate?, hinside]
  rfl

end LastCharacter

/-- A diagnostic shows the character it has to point at, unless the span begins at the end of the
file behind a character of several bytes: then it shows the path only. -/
theorem shows_aim_iff (hvalid : span.Valid) (hcontent : span.file.content ≠ "")
    (display : Display) (help : Option String) :
    (span.Shows display help span.aim ↔ ¬ span.BehindWide) ∧
      (span.BehindWide → span.excerpt display help = span.arrow display ++ below help) := by
  cases Nat.lt_or_eq_of_le (start_le_size hvalid) with
  | inl hlt =>
      have hnot : ¬ span.BehindWide := fun h => Nat.ne_of_lt hlt h.1
      rw [aim, if_pos hlt]
      exact ⟨iff_of_true (shows_of_lt hvalid hlt) hnot, fun h => absurd h hnot⟩
  | inr heq =>
      have hne : span.file.chars ≠ [] := fun h => hcontent (String.toList_eq_nil_iff.1 h)
      obtain ⟨before, c, hchars⟩ : ∃ before c, span.file.chars = before ++ [c] :=
        ⟨_, _, (List.dropLast_concat_getLast hne).symm⟩
      have hwide : span.BehindWide ↔ 1 < c.utf8Size := by
        simp [BehindWide, heq, hchars]
      rw [aim, if_neg (heq ▸ Nat.lt_irrefl _), hwide, hchars, List.dropLast_concat]
      by_cases hc : 1 < c.utf8Size
      · have hnone := shownLocation?_of_wide hchars heq hc
        exact ⟨iff_of_false (not_shows_of_none hnone) (not_not_intro hc),
          fun _ => excerpt_of_none hnone⟩
      · have hsize : c.utf8Size = 1 := by
          have hpos := c.utf8Size_pos
          omega
        exact ⟨iff_of_true (shows_of_narrow hchars heq hsize) hc, fun h => absurd h hc⟩

theorem shows_newline_at_end :
    (atEnd ⟨0, ⟨"test.lox"⟩, "é\n"⟩).Valid ∧
      (atEnd ⟨0, ⟨"test.lox"⟩, "é\n"⟩).file.content ≠ "" ∧
      (atEnd ⟨0, ⟨"test.lox"⟩, "é\n"⟩).Shows ⟨false, ⟨"/"⟩⟩ none 2 := by
  have hvalid : (atEnd ⟨0, ⟨"test.lox"⟩, "é\n"⟩).Valid := by decide +kernel
  have hcontent : (atEnd ⟨0, ⟨"test.lox"⟩, "é\n"⟩).file.content ≠ "" := by decide
  have hnarrow : ¬ (atEnd ⟨0, ⟨"test.lox"⟩, "é\n"⟩).BehindWide := by
    intro h
    obtain ⟨-, c, hc, hwide⟩ := h
    have hlast : (atEnd ⟨0, ⟨"test.lox"⟩, "é\n"⟩).file.chars.getLast? = some '\n' := by
      decide +kernel
    rw [hlast] at hc
    cases hc
    exact absurd hwide (by decide)
  have haim : (atEnd ⟨0, ⟨"test.lox"⟩, "é\n"⟩).aim = 2 := by decide +kernel
  have hshows := (shows_aim_iff hvalid hcontent ⟨false, ⟨"/"⟩⟩ none).1.2 hnarrow
  rw [haim] at hshows
  exact ⟨hvalid, hcontent, hshows⟩

/-- Behind a character of two bytes the path stands alone. -/
theorem not_shows_wide_at_end :
    (atEnd ⟨0, ⟨"test.lox"⟩, "é"⟩).Valid ∧
      (atEnd ⟨0, ⟨"test.lox"⟩, "é"⟩).file.content ≠ "" ∧
      (atEnd ⟨0, ⟨"test.lox"⟩, "é"⟩).excerpt ⟨false, ⟨"/"⟩⟩ none = " --> test.lox" ∧
      ¬ (atEnd ⟨0, ⟨"test.lox"⟩, "é"⟩).Shows ⟨false, ⟨"/"⟩⟩ none
        (atEnd ⟨0, ⟨"test.lox"⟩, "é"⟩).aim := by
  have hchars : (atEnd ⟨0, ⟨"test.lox"⟩, "é"⟩).file.chars = [] ++ ['é'] := by decide +kernel
  have hnone := shownLocation?_of_wide hchars rfl (by decide)
  refine ⟨by decide +kernel, by decide, ?_, not_shows_of_none hnone⟩
  rw [excerpt_of_none hnone]
  decide +kernel

end Span

end LoxSyntax.Source
