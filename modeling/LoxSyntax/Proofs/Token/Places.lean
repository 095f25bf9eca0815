import LoxSyntax.Proofs.Token.Cut

/-!
Where the pieces of a file stand. A placed piece knows its offset and line only; here they are tied
to the text: what stands before the piece determines both, and what stands behind it decides how it
was cut. Tokens and errors of a scan are pieces in their places.
-/

namespace LoxSyntax.Token

open Source Text

theorem eq_append_of_mem_layOut {p : Placed} {start line : Nat} {ps : List Piece}
    (h : p ∈ layOut start line ps) :
    ∃ before after, ps = before ++ p.piece :: after ∧
      p.start = start + width (before.flatMap Piece.text) ∧
      p.line = line + newlines (before.flatMap Piece.text) := by
  induction ps generalizing start line with
  | nil => simp at h
  | cons q ps ih =>
      rw [layOut_cons, List.mem_cons] at h
      cases h with
      | inl heq =>
          subst heq
          exact ⟨[], ps, rfl, by simp, by simp⟩
      | inr h =>
          obtain ⟨before, after, rfl, hstart, hline⟩ := ih h
          refine ⟨q :: before, after, rfl, ?_, ?_⟩
          · rw [hstart, List.flatMap_cons, width_append, Nat.add_assoc]
          · rw [hline, List.flatMap_cons, newlines_append, Nat.add_assoc]

/-- A piece stands in a file between `before` and `rest`. -/
structure Placed.At (p : Placed) (file : File) (before rest : List Char) : Prop where
  chars : file.chars = before ++ p.piece.text ++ rest
  start : p.start = width before
  line : p.line = 1 + newlines before
  cut : Cut rest p.piece

theorem at_of_mem_placedPieces {p : Placed} {file : File} (h : p ∈ placedPieces file) :
    ∃ before rest, p.At file before rest := by
  obtain ⟨before, after, hpieces, hstart, hline⟩ := eq_append_of_mem_layOut h
  refine ⟨before.flatMap Piece.text, after.flatMap Piece.text, ?_, ?_, hline,
    cut_of_pieces_eq hpieces⟩
  · rw [← flatMap_pieces file.chars, hpieces, List.flatMap_append, List.flatMap_cons,
      List.append_assoc]
  · rw [hstart, Nat.zero_add]

namespace Placed.At

variable {p : Placed} {file : File} {before rest : List Char}

theorem stop (h : p.At file before rest) : p.stop = width (before ++ p.piece.text) := by
  rw [Placed.stop, h.start, width_append]

theorem text_span (h : p.At file before rest) :
    (p.span file).text = String.ofList p.piece.text := by
  rw [Placed.span, Span.text, Placed.stop, h.start, h.chars, slice_append]

theorem valid_span (h : p.At file before rest) : (p.span file).Valid := by
  rw [Placed.span, Placed.stop, h.start]
  exact Span.valid_of_split h.chars

theorem start_lt_stop (h : p.At file before rest) : p.start < p.stop := by
  rw [Placed.stop]
  exact Nat.lt_add_of_pos_right (width_pos h.cut.text_ne_nil)

end Placed.At

theorem valid_atEnd (file : File) : (Span.atEnd file).Valid := by
  have hplace : file.isPlace file.size = true := by
    have h := isPlace_width file.chars []
    rwa [List.append_nil] at h
  exact ⟨Nat.le_refl _, hplace, hplace⟩

theorem Placed.token?_eq_some_iff {p : Placed} {file : File} {t : Token} :
    p.token? file = some t ↔
      ∃ kind literal, p.piece.role = .token kind literal ∧
        t = ⟨kind, p.span file, literal, p.line⟩ := by
  unfold Placed.token?
  constructor
  · intro h
    split at h
    · next kind literal hrole => exact ⟨kind, literal, hrole, (Option.some.inj h).symm⟩
    all_goals cases h
  · rintro ⟨kind, literal, hrole, rfl⟩
    rw [hrole]

theorem mem_body_iff {file : File} {t : Token} :
    t ∈ (scan file).stream.body ↔ ∃ p ∈ placedPieces file, p.token? file = some t := by
  rw [scan_eq, List.mem_filterMap]

theorem mem_errors_iff {file : File} {e : LexicalError} :
    e ∈ (scan file).errors ↔ ∃ p ∈ placedPieces file, p.error? file = some e := by
  rw [scan_eq, List.mem_filterMap]

theorem Placed.error?_eq_some {p : Placed} {file : File} {e : LexicalError}
    (h : p.error? file = some e) :
    (∃ c text, p.piece.role = .stray ∧ p.piece.text = c :: text ∧
      e = .unexpectedCharacter (p.span file) p.line c) ∨
    (p.piece.role = .unclosed ∧
      e = .unterminatedString (p.span file) (p.line + newlines p.piece.text)) := by
  unfold Placed.error? at h
  split at h
  · next c text hrole htext => exact .inl ⟨c, text, hrole, htext, (Option.some.inj h).symm⟩
  · next text hrole => exact .inr ⟨hrole, (Option.some.inj h).symm⟩
  · cases h

theorem Placed.span_error? {p : Placed} {file : File} {e : LexicalError}
    (h : p.error? file = some e) : e.span = p.span file := by
  rcases Placed.error?_eq_some h with ⟨c, text, -, -, rfl⟩ | ⟨-, rfl⟩ <;> rfl

end LoxSyntax.Token
