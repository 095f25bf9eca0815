import LoxSyntax.Proofs.Source.LineTable
import LoxSyntax.Proofs.Token.Coverage

/-!
The lines that a scan counts are those of the line table. A token has the line on which it begins,
and so has an unexpected character; an unterminated string has the last line of its file.
-/

namespace LoxSyntax.Source

open Text

/-- The number of newlines before an offset. -/
def File.newlinesBefore (file : File) (offset : Nat) : Nat :=
  newlines (takeBytes offset file.chars)

theorem newlines_takeBytes_le {n m : Nat} (h : n ≤ m) (cs : List Char) :
    newlines (takeBytes n cs) ≤ newlines (takeBytes m cs) := by
  induction cs generalizing n m with
  | nil => exact Nat.le_refl _
  | cons c cs ih =>
      rw [takeBytes, takeBytes]
      split
      · next hle =>
          rw [if_pos (Nat.le_trans hle h), newlines_cons, newlines_cons]
          exact Nat.add_le_add_right (ih (Nat.sub_le_sub_right h _)) _
      · exact Nat.zero_le _

theorem File.newlinesBefore_size (file : File) :
    file.newlinesBefore file.size = newlines file.chars := by
  have h := takeBytes_append_width file.chars []
  rw [List.append_nil] at h
  rw [newlinesBefore, size, h]

end LoxSyntax.Source

namespace LoxSyntax.Token

open Source Text

/-- The lines of a scan are those that the newlines of the file and its line table tell. -/
structure Scan.CountsLines (s : Scan) (file : File) : Prop where
  tokens : ∀ t ∈ s.stream.toList, t.line = 1 + file.newlinesBefore t.span.start
  unexpected : ∀ span line c, .unexpectedCharacter span line c ∈ s.errors →
    line = 1 + file.newlinesBefore span.start
  unterminated : ∀ span line, .unterminatedString span line ∈ s.errors →
    line = s.stream.eof.line ∧ line = file.lineCount
  tokenPlaces : ∀ t ∈ s.stream.toList, t.kind ≠ .eof →
    ∃ location, t.span.location? = some location ∧ location.line = t.line
  unexpectedPlaces : ∀ span line c, .unexpectedCharacter span line c ∈ s.errors →
    ∃ location, span.location? = some location ∧ location.line = line
  unterminatedPlaces : ∀ span line, .unterminatedString span line ∈ s.errors →
    ∃ location, span.location? = some location ∧ location.line ≤ line
  ascending : (s.stream.toList.map Token.line).Pairwise (· ≤ ·)

namespace Placed.At

variable {p : Placed} {file : File} {before rest : List Char}

theorem line_eq (h : p.At file before rest) : p.line = 1 + file.newlinesBefore p.start := by
  rw [h.line, File.newlinesBefore, h.start, h.chars, List.append_assoc, takeBytes_append_width]

/-- The line table has the line that was counted up to a piece. -/
theorem location (h : p.At file before rest) :
    ∃ location, (p.span file).location? = some location ∧ location.line = p.line := by
  cases htext : p.piece.text with
  | nil => exact absurd htext h.cut.text_ne_nil
  | cons c text =>
      have hchars : file.chars = before ++ c :: (text ++ rest) := by
        rw [h.chars, htext, List.append_assoc, List.cons_append]
      have hlocation : (p.span file).location? = some
          ⟨1 + newlines before, 1 + (openLine before).length⟩ := by
        change file.locate? p.start = _
        rw [h.start, File.locate?_eq hchars]
      exact ⟨_, hlocation, h.line.symm⟩

end Placed.At

section Lines

variable {file : File} {t : Token} {span : Span} {line : Nat} {c : Char}

theorem line_of_mem_body (h : t ∈ (scan file).stream.body) :
    t.line = 1 + file.newlinesBefore t.span.start ∧
      ∃ location, t.span.location? = some location ∧ location.line = t.line := by
  obtain ⟨p, hp, hsome⟩ := mem_body_iff.1 h
  obtain ⟨kind, literal, -, rfl⟩ := Placed.token?_eq_some_iff.1 hsome
  obtain ⟨before, rest, hplace⟩ := at_of_mem_placedPieces hp
  exact ⟨hplace.line_eq, hplace.location⟩

theorem line_endToken (file : File) :
    (endToken file).line = 1 + file.newlinesBefore (endToken file).span.start := by
  change 1 + newlines file.chars = 1 + file.newlinesBefore file.size
  rw [File.newlinesBefore_size]

theorem line_of_mem_toList (h : t ∈ (scan file).stream.toList) :
    t.line = 1 + file.newlinesBefore t.span.start := by
  rw [toList_scan, List.mem_append, List.mem_singleton] at h
  cases h with
  | inl h => exact (line_of_mem_body h).1
  | inr heq =>
      subst heq
      exact line_endToken file

theorem line_of_unexpected (h : .unexpectedCharacter span line c ∈ (scan file).errors) :
    line = 1 + file.newlinesBefore span.start ∧
      ∃ location, span.location? = some location ∧ location.line = line := by
  obtain ⟨p, hp, hsome⟩ := mem_errors_iff.1 h
  obtain ⟨before, rest, hplace⟩ := at_of_mem_placedPieces hp
  cases Placed.error?_eq_some hsome with
  | inl hcase =>
      obtain ⟨d, text, -, -, heq⟩ := hcase
      cases heq
      exact ⟨hplace.line_eq, hplace.location⟩
  | inr hcase =>
      obtain ⟨-, heq⟩ := hcase
      cases heq

/-- An unclosed string is reported where the file ends, not where it begins. -/
theorem line_of_unterminated (h : .unterminatedString span line ∈ (scan file).errors) :
    line = 1 + newlines file.chars ∧
      ∃ location, span.location? = some location ∧ location.line ≤ line := by
  obtain ⟨p, hp, hsome⟩ := mem_errors_iff.1 h
  obtain ⟨before, rest, hplace⟩ := at_of_mem_placedPieces hp
  cases Placed.error?_eq_some hsome with
  | inl hcase =>
      obtain ⟨d, text, -, -, heq⟩ := hcase
      cases heq
  | inr hcase =>
      obtain ⟨hrole, heq⟩ := hcase
      cases heq
      obtain ⟨content, -, -, rfl⟩ := hplace.cut.of_unclosed hrole
      obtain ⟨location, hlocation, hline⟩ := hplace.location
      refine ⟨?_, location, hlocation, ?_⟩
      · rw [hplace.line, hplace.chars, List.append_nil, newlines_append, Nat.add_assoc]
      · rw [hline]
        exact Nat.le_add_right _ _

/-- Later tokens begin later, so no newline before one is missing before the next. -/
theorem ascending_lines (file : File) :
    ((scan file).stream.toList.map Token.line).Pairwise (· ≤ ·) := by
  have hordered := before_tokens file
  rw [List.pairwise_map] at hordered ⊢
  refine hordered.imp_of_mem fun ht hu hbefore => ?_
  rw [line_of_mem_toList ht, line_of_mem_toList hu]
  exact Nat.add_le_add_left (newlines_takeBytes_le (Nat.le_of_lt hbefore.1) _) 1

end Lines

/-- The lines that a scan counts are those of the file's line table. -/
theorem countsLines_scan (file : File) : (scan file).CountsLines file where
  tokens := fun _ h => line_of_mem_toList h
  unexpected := fun _ _ _ h => (line_of_unexpected h).1
  unterminated := by
    intro span line h
    have heof : (scan file).stream.eof.line = 1 + newlines file.chars := by
      rw [scan_eq]
      rfl
    rw [heof, File.lineCount_eq]
    exact ⟨(line_of_unterminated h).1, (line_of_unterminated h).1⟩
  tokenPlaces := by
    intro t ht hkind
    rw [toList_scan, List.mem_append, List.mem_singleton] at ht
    cases ht with
    | inl ht => exact (line_of_mem_body ht).2
    | inr heq =>
        subst heq
        exact absurd rfl hkind
  unexpectedPlaces := fun _ _ _ h => (line_of_unexpected h).2
  unterminatedPlaces := fun _ _ h => (line_of_unterminated h).2
  ascending := ascending_lines file

end LoxSyntax.Token
