import Mathlib.Data.List.Pairwise
import LoxSyntax.Proofs.Token.Places

/-!
Nothing is lost and nothing is found twice. The pieces of a file lie side by side from its first
byte to its last; those that are no token and no error are blanks and comments. So the spans of a
scan are disjoint and in order, and leave out blanks and comments alone.
-/

namespace LoxSyntax.Source.Span

/-- One span begins and ends before another. -/
def Before (a b : Span) : Prop :=
  a.start < b.start ∧ a.stop ≤ b.start

def Disjoint (a b : Span) : Prop :=
  a.stop ≤ b.start ∨ b.stop ≤ a.start

def Covers (span : Span) (offset : Nat) : Prop :=
  span.start ≤ offset ∧ offset < span.stop

end LoxSyntax.Source.Span

namespace LoxSyntax.Token

open Source Text

/-- The stretches of a file that are a blank or a whole comment. -/
inductive Trivia (file : File) : Span → Prop
  | blank {before c after} (h : file.chars = before ++ [c] ++ after) (hc : c ∈ blanks) :
      Trivia file ⟨file, width before, width (before ++ [c])⟩
  | comment {before text after} (h : file.chars = before ++ text ++ after) (htext : Comment text)
      (hafter : ∀ c ∈ after.head?, c = '\n') :
      Trivia file ⟨file, width before, width (before ++ text)⟩

/-- A character of a file with which no lexeme, comment or blank begins. -/
structure Stray (file : File) (span : Span) (c : Char) : Prop where
  place : ∃ before after, file.chars = before ++ [c] ++ after ∧
    span = ⟨file, width before, width (before ++ [c])⟩
  notBlank : c ∉ blanks
  begins : ∀ text, ¬ LexemeOrComment (c :: text)

/-- A quote of a file without a quote behind it, and the rest of the file. -/
def Unclosed (file : File) (span : Span) : Prop :=
  ∃ before content, file.chars = before ++ '"' :: content ∧ '"' ∉ content ∧
    span = ⟨file, width before, file.size⟩

namespace Scan

/-- The spans of all tokens and errors. -/
def spans (s : Scan) : List Span :=
  s.stream.toList.map Token.span ++ s.errors.map LexicalError.span

/-- A scan accounts for every byte of a file once. -/
structure AccountsFor (s : Scan) (file : File) : Prop where
  inside : ∀ span ∈ s.spans, span.file = file ∧ span.Valid
  disjoint : s.spans.Pairwise Span.Disjoint
  tokens : (s.stream.toList.map Token.span).Pairwise Span.Before
  errors : (s.errors.map LexicalError.span).Pairwise Span.Before
  covered : ∀ offset < file.size, (∃ span ∈ s.spans, span.Covers offset) ∨
    ∃ gap, Trivia file gap ∧ gap.Covers offset ∧ ∀ span ∈ s.spans, gap.Disjoint span
  eof : ∃ body last, s.stream.toList = body ++ [last] ∧ last.kind = .eof ∧
    last.span = .atEnd file ∧ ∀ t ∈ body, t.kind ≠ .eof
  stray : ∀ span line c, .unexpectedCharacter span line c ∈ s.errors → Stray file span c
  unclosed : ∀ before span line after, s.errors = before ++ .unterminatedString span line :: after →
    Unclosed file span ∧ after = [] ∧
    (∀ e ∈ before, ∃ span line c, e = .unexpectedCharacter span line c) ∧
    ∀ t ∈ s.stream.toList, t.kind ≠ .eof → t.span.Before span

end Scan

/-! Pieces lie side by side. -/

theorem le_start_of_mem_layOut {p : Placed} {start line : Nat} {ps : List Piece}
    (h : p ∈ layOut start line ps) : start ≤ p.start := by
  obtain ⟨before, after, -, hstart, -⟩ := eq_append_of_mem_layOut h
  rw [hstart]
  exact Nat.le_add_right _ _

theorem pairwise_layOut (start line : Nat) (ps : List Piece) :
    (layOut start line ps).Pairwise fun p q => p.stop ≤ q.start := by
  induction ps generalizing start line with
  | nil => exact .nil
  | cons p ps ih =>
      rw [layOut_cons]
      exact .cons (fun q hq => le_start_of_mem_layOut hq) (ih _ _)

theorem covers_layOut (line : Nat) {start offset : Nat} {ps : List Piece} (hstart : start ≤ offset)
    (hstop : offset < start + width (ps.flatMap Piece.text)) :
    ∃ p ∈ layOut start line ps, p.start ≤ offset ∧ offset < p.stop := by
  induction ps generalizing line start with
  | nil =>
      rw [List.flatMap_nil, width_nil] at hstop
      exact absurd hstop (Nat.not_lt.2 hstart)
  | cons p ps ih =>
      rw [List.flatMap_cons, width_append, ← Nat.add_assoc] at hstop
      cases Nat.lt_or_ge offset (start + width p.text) with
      | inl hlt => exact ⟨_, List.mem_cons_self, hstart, hlt⟩
      | inr hge =>
          obtain ⟨q, hq, hcovers⟩ := ih (line + newlines p.text) hge hstop
          exact ⟨q, List.mem_cons_of_mem _ hq, hcovers⟩

section Pieces

variable {file : File} {p q : Placed}

theorem disjoint_placed (hp : p ∈ placedPieces file) (hq : q ∈ placedPieces file) (hne : p ≠ q) :
    (p.span file).Disjoint (q.span file) := by
  have hsymm : Std.Symm fun p q : Placed => p.stop ≤ q.start ∨ q.stop ≤ p.start :=
    ⟨fun _ _ => Or.symm⟩
  have hpairs := (pairwise_layOut 0 1 (pieces file.chars)).imp
    (S := fun p q : Placed => p.stop ≤ q.start ∨ q.stop ≤ p.start) Or.inl
  exact hpairs.forall hp hq hne

theorem stop_le_size (hp : p ∈ placedPieces file) : p.stop ≤ file.size := by
  obtain ⟨before, rest, h⟩ := at_of_mem_placedPieces hp
  rw [h.stop, File.size, h.chars, width_append _ rest]
  exact Nat.le_add_right _ _

theorem start_lt_stop_of_mem (hp : p ∈ placedPieces file) : p.start < p.stop := by
  obtain ⟨before, rest, h⟩ := at_of_mem_placedPieces hp
  exact h.start_lt_stop

theorem before_placed (hp : p ∈ placedPieces file) (h : p.stop ≤ q.start) :
    (p.span file).Before (q.span file) :=
  ⟨Nat.lt_of_lt_of_le (start_lt_stop_of_mem hp) h, h⟩

theorem before_atEnd (hp : p ∈ placedPieces file) : (p.span file).Before (.atEnd file) :=
  ⟨Nat.lt_of_lt_of_le (start_lt_stop_of_mem hp) (stop_le_size hp), stop_le_size hp⟩

/-- A piece that is neither token nor error is trivia. -/
theorem trivia_of_layout (hp : p ∈ placedPieces file) (hrole : p.piece.role = .layout) :
    Trivia file (p.span file) := by
  obtain ⟨before, rest, h⟩ := at_of_mem_placedPieces hp
  have hspan : p.span file = ⟨file, width before, width (before ++ p.piece.text)⟩ := by
    rw [Placed.span, h.stop, h.start]
  rw [hspan]
  cases h.cut.of_layout hrole with
  | inl hcase =>
      obtain ⟨c, hc, htext⟩ := hcase
      have hchars := h.chars
      rw [htext] at hchars ⊢
      exact .blank hchars hc
  | inr hcase =>
      obtain ⟨hcomment, hrest⟩ := hcase
      exact .comment h.chars hcomment hrest

theorem stray_of_mem (hp : p ∈ placedPieces file) (hrole : p.piece.role = .stray) {c : Char}
    {text : List Char} (htext : p.piece.text = c :: text) : Stray file (p.span file) c := by
  obtain ⟨before, rest, h⟩ := at_of_mem_placedPieces hp
  obtain ⟨d, hd, hblank, hbegins⟩ := h.cut.of_stray hrole
  obtain ⟨rfl, rfl⟩ : c = d ∧ text = [] := by simpa [htext] using hd
  refine ⟨⟨before, rest, ?_, ?_⟩, hblank, hbegins⟩
  · rw [← hd, h.chars]
  · rw [← hd, Placed.span, h.stop, h.start]

theorem unclosed_of_mem (hp : p ∈ placedPieces file) (hrole : p.piece.role = .unclosed) :
    Unclosed file (p.span file) := by
  obtain ⟨before, rest, h⟩ := at_of_mem_placedPieces hp
  obtain ⟨content, htext, hcontent, rfl⟩ := h.cut.of_unclosed hrole
  have hchars : file.chars = before ++ p.piece.text := by rw [h.chars, List.append_nil]
  refine ⟨before, content, ?_, hcontent, ?_⟩
  · rw [← htext, hchars]
  · rw [Placed.span, h.stop, h.start, File.size, hchars]

end Pieces

/-! The tokens and errors of a scan, as pieces. -/

section Found

variable {file : File} {t : Token} {e : LexicalError}

theorem exists_piece_of_mem_body (h : t ∈ (scan file).stream.body) :
    ∃ p ∈ placedPieces file, (∃ kind literal, p.piece.role = .token kind literal) ∧
      t.span = p.span file := by
  obtain ⟨p, hp, hsome⟩ := mem_body_iff.1 h
  obtain ⟨kind, literal, hrole, rfl⟩ := Placed.token?_eq_some_iff.1 hsome
  exact ⟨p, hp, ⟨kind, literal, hrole⟩, rfl⟩

theorem exists_piece_of_mem_errors (h : e ∈ (scan file).errors) :
    ∃ p ∈ placedPieces file, (p.piece.role = .stray ∨ p.piece.role = .unclosed) ∧
      e.span = p.span file := by
  obtain ⟨p, hp, hsome⟩ := mem_errors_iff.1 h
  refine ⟨p, hp, ?_, Placed.span_error? hsome⟩
  cases Placed.error?_eq_some hsome with
  | inl hcase =>
      obtain ⟨c, text, hrole, -⟩ := hcase
      exact .inl hrole
  | inr hcase =>
      obtain ⟨hrole, -⟩ := hcase
      exact .inr hrole

theorem toList_scan (file : File) :
    (scan file).stream.toList = (scan file).stream.body ++ [endToken file] := by
  rw [Stream.toList, scan_eq]

theorem kind_ne_eof_of_mem_body (h : t ∈ (scan file).stream.body) : t.kind ≠ .eof := by
  obtain ⟨p, hp, hsome⟩ := mem_body_iff.1 h
  obtain ⟨before, rest, hplace⟩ := at_of_mem_placedPieces hp
  obtain ⟨kind, literal, hrole, rfl⟩ := Placed.token?_eq_some_iff.1 hsome
  intro heof
  have hlexeme := (hplace.cut.of_token hrole).1
  change kind = .eof at heof
  rw [heof] at hlexeme
  exact not_lexeme_eof hlexeme

/-- The spans of a scan are those of all pieces but the trivia, and the end. -/
theorem mem_spans_scan {span : Span} :
    span ∈ (scan file).spans ↔ span = .atEnd file ∨
      ∃ p ∈ placedPieces file, p.piece.role ≠ .layout ∧ span = p.span file := by
  simp only [Scan.spans, toList_scan, List.map_append, List.mem_append, List.mem_map,
    List.mem_singleton, exists_eq_left]
  constructor
  · rintro ((⟨t, ht, rfl⟩ | rfl) | ⟨e, he, rfl⟩)
    · obtain ⟨p, hp, ⟨kind, literal, hrole⟩, hspan⟩ := exists_piece_of_mem_body ht
      exact .inr ⟨p, hp, by rw [hrole]; nofun, hspan⟩
    · exact .inl rfl
    · obtain ⟨p, hp, hrole, hspan⟩ := exists_piece_of_mem_errors he
      refine .inr ⟨p, hp, ?_, hspan⟩
      cases hrole with
      | inl h => rw [h]; nofun
      | inr h => rw [h]; nofun
  · rintro (rfl | ⟨p, hp, hrole, rfl⟩)
    · exact .inl (.inr rfl)
    obtain ⟨before, rest, hplace⟩ := at_of_mem_placedPieces hp
    cases h : p.piece.role with
    | token kind literal =>
        have hsome : p.token? file = some ⟨kind, p.span file, literal, p.line⟩ :=
          Placed.token?_eq_some_iff.2 ⟨kind, literal, h, rfl⟩
        exact .inl (.inl ⟨_, mem_body_iff.2 ⟨p, hp, hsome⟩, rfl⟩)
    | layout => exact absurd h hrole
    | stray =>
        obtain ⟨c, htext, -⟩ := hplace.cut.of_stray h
        have hsome : p.error? file = some (.unexpectedCharacter (p.span file) p.line c) := by
          rw [Placed.error?, h, htext]
        exact .inr ⟨_, mem_errors_iff.2 ⟨p, hp, hsome⟩, rfl⟩
    | unclosed =>
        have hsome : p.error? file = some (.unterminatedString (p.span file)
            (p.line + newlines p.piece.text)) := by
          rw [Placed.error?, h]
        exact .inr ⟨_, mem_errors_iff.2 ⟨p, hp, hsome⟩, rfl⟩

theorem before_tokens (file : File) :
    ((scan file).stream.toList.map Token.span).Pairwise Span.Before := by
  rw [toList_scan, List.pairwise_map, List.pairwise_append]
  refine ⟨?_, List.pairwise_singleton _ _, ?_⟩
  · rw [scan_eq, List.pairwise_filterMap]
    refine (pairwise_layOut 0 1 (pieces file.chars)).imp_of_mem fun hp _ hle t ht u hu => ?_
    obtain ⟨kind, literal, -, rfl⟩ := Placed.token?_eq_some_iff.1 ht
    obtain ⟨kind', literal', -, rfl⟩ := Placed.token?_eq_some_iff.1 hu
    exact before_placed hp hle
  · intro t ht u hu
    obtain rfl := List.mem_singleton.1 hu
    obtain ⟨p, hp, -, hspan⟩ := exists_piece_of_mem_body ht
    rw [hspan]
    exact before_atEnd hp

theorem before_errors (file : File) :
    ((scan file).errors.map LexicalError.span).Pairwise Span.Before := by
  rw [List.pairwise_map, scan_eq, List.pairwise_filterMap]
  refine (pairwise_layOut 0 1 (pieces file.chars)).imp_of_mem fun hp _ hle e he f hf => ?_
  rw [Placed.span_error? he, Placed.span_error? hf]
  exact before_placed hp hle

theorem disjoint_of_mem_body_of_mem_errors (ht : t ∈ (scan file).stream.body)
    (he : e ∈ (scan file).errors) : t.span.Disjoint e.span := by
  obtain ⟨p, hp, ⟨kind, literal, hprole⟩, hpspan⟩ := exists_piece_of_mem_body ht
  obtain ⟨q, hq, hqrole, hqspan⟩ := exists_piece_of_mem_errors he
  rw [hpspan, hqspan]
  refine disjoint_placed hp hq fun heq => ?_
  rw [← heq, hprole] at hqrole
  cases hqrole with
  | inl h => cases h
  | inr h => cases h

theorem disjoint_spans (file : File) : (scan file).spans.Pairwise Span.Disjoint := by
  have hdisjoint : ∀ {a b : Span}, a.Before b → a.Disjoint b := fun h => .inl h.2
  rw [Scan.spans, List.pairwise_append]
  refine ⟨(before_tokens file).imp hdisjoint, (before_errors file).imp hdisjoint, ?_⟩
  simp only [List.mem_map, toList_scan, List.mem_append, List.mem_singleton]
  rintro _ ⟨t, ht, rfl⟩ _ ⟨e, he, rfl⟩
  cases ht with
  | inl ht => exact disjoint_of_mem_body_of_mem_errors ht he
  | inr heq =>
      obtain ⟨q, hq, -, hqspan⟩ := exists_piece_of_mem_errors he
      rw [heq, hqspan]
      exact .inr (stop_le_size hq)

/-- Every byte belongs to a token, to an error or to trivia between them. -/
theorem covered_scan {offset : Nat} (h : offset < file.size) :
    (∃ span ∈ (scan file).spans, span.Covers offset) ∨
      ∃ gap, Trivia file gap ∧ gap.Covers offset ∧
        ∀ span ∈ (scan file).spans, gap.Disjoint span := by
  have hstop : offset < 0 + width ((pieces file.chars).flatMap Piece.text) := by
    rw [flatMap_pieces, Nat.zero_add]
    exact h
  obtain ⟨p, hp, hcovers⟩ := covers_layOut 1 (Nat.zero_le offset) hstop
  by_cases hrole : p.piece.role = .layout
  · refine .inr ⟨p.span file, trivia_of_layout hp hrole, hcovers, fun span hspan => ?_⟩
    cases mem_spans_scan.1 hspan with
    | inl heq =>
        subst heq
        exact .inl (stop_le_size hp)
    | inr hcase =>
        obtain ⟨q, hq, hqrole, rfl⟩ := hcase
        exact disjoint_placed hp hq fun heq => hqrole (heq ▸ hrole)
  · exact .inl ⟨p.span file, mem_spans_scan.2 (.inr ⟨p, hp, hrole, rfl⟩), hcovers⟩

theorem stray_of_mem_errors {span : Span} {line : Nat} {c : Char}
    (h : .unexpectedCharacter span line c ∈ (scan file).errors) : Stray file span c := by
  obtain ⟨p, hp, hsome⟩ := mem_errors_iff.1 h
  cases Placed.error?_eq_some hsome with
  | inl hcase =>
      obtain ⟨d, text, hrole, htext, heq⟩ := hcase
      cases heq
      exact stray_of_mem hp hrole htext
  | inr hcase =>
      obtain ⟨-, heq⟩ := hcase
      cases heq

theorem unclosed_of_mem_errors {span : Span} {line : Nat}
    (h : .unterminatedString span line ∈ (scan file).errors) : Unclosed file span := by
  obtain ⟨p, hp, hsome⟩ := mem_errors_iff.1 h
  cases Placed.error?_eq_some hsome with
  | inl hcase =>
      obtain ⟨d, text, -, -, heq⟩ := hcase
      cases heq
  | inr hcase =>
      obtain ⟨hrole, heq⟩ := hcase
      cases heq
      exact unclosed_of_mem hp hrole

theorem stop_eq_size_of_unclosed {span : Span} (h : Unclosed file span) :
    span.stop = file.size := by
  obtain ⟨_, _, -, -, rfl⟩ := h
  rfl

/-- A span that runs to the end of the file lies before no piece. -/
theorem not_before_of_stop {a : Span} {p : Placed} (ha : a.stop = file.size)
    (hp : p ∈ placedPieces file) : ¬ a.stop ≤ (p.span file).start := by
  intro hle
  have hlt : p.start < p.stop := start_lt_stop_of_mem hp
  have hsize := stop_le_size hp
  change a.stop ≤ p.start at hle
  omega

section Unclosed

variable {before after : List LexicalError} {span : Span} {line : Nat}

/-- No error lies behind an unclosed string. -/
theorem not_before_error (h : .unterminatedString span line ∈ (scan file).errors)
    (he : e ∈ (scan file).errors) : ¬ span.Before e.span := by
  intro hbefore
  obtain ⟨q, hq, -, hqspan⟩ := exists_piece_of_mem_errors he
  rw [hqspan] at hbefore
  exact not_before_of_stop (stop_eq_size_of_unclosed (unclosed_of_mem_errors h)) hq hbefore.2

theorem nil_behind_unclosed
    (h : (scan file).errors = before ++ .unterminatedString span line :: after) : after = [] := by
  have hordered := before_errors file
  rw [h, List.pairwise_map, List.pairwise_append] at hordered
  rw [List.eq_nil_iff_forall_not_mem]
  intro e he
  have hself : .unterminatedString span line ∈ (scan file).errors := by
    rw [h]
    exact List.mem_append_right _ List.mem_cons_self
  have hmem : e ∈ (scan file).errors := by
    rw [h]
    exact List.mem_append_right _ (List.mem_cons_of_mem _ he)
  exact not_before_error hself hmem (List.rel_of_pairwise_cons hordered.2.1 he)

theorem unexpected_of_mem_before
    (h : (scan file).errors = before ++ .unterminatedString span line :: after)
    (he : e ∈ before) : ∃ span line c, e = .unexpectedCharacter span line c := by
  have hordered := before_errors file
  rw [h, List.pairwise_map, List.pairwise_append] at hordered
  cases e with
  | unexpectedCharacter span line c => exact ⟨span, line, c, rfl⟩
  | unterminatedString other line' =>
      have hbefore : other.Before span := hordered.2.2 _ he _ List.mem_cons_self
      have hother : .unterminatedString other line' ∈ (scan file).errors := by
        rw [h]
        exact List.mem_append_left _ he
      have hself : .unterminatedString span line ∈ (scan file).errors := by
        rw [h]
        exact List.mem_append_right _ List.mem_cons_self
      exact absurd hbefore (not_before_error hother hself)

theorem before_unclosed (h : .unterminatedString span line ∈ (scan file).errors)
    (ht : t ∈ (scan file).stream.toList) (hkind : t.kind ≠ .eof) : t.span.Before span := by
  rw [toList_scan, List.mem_append, List.mem_singleton] at ht
  cases ht with
  | inl ht =>
      obtain ⟨q, hq, -, hqspan⟩ := exists_piece_of_mem_body ht
      have hdisjoint := disjoint_of_mem_body_of_mem_errors ht h
      rw [hqspan] at hdisjoint ⊢
      cases hdisjoint with
      | inl hle => exact ⟨Nat.lt_of_lt_of_le (start_lt_stop_of_mem hq) hle, hle⟩
      | inr hle =>
          have hstop := stop_eq_size_of_unclosed (unclosed_of_mem_errors h)
          exact absurd hle (not_before_of_stop hstop hq)
  | inr heq =>
      subst heq
      exact absurd rfl hkind

end Unclosed

end Found

/-- Every byte of a file is in one token, in one error, or in trivia between them. -/
theorem accountsFor_scan (file : File) : (scan file).AccountsFor file where
  inside := by
    intro span hspan
    cases mem_spans_scan.1 hspan with
    | inl heq =>
        subst heq
        exact ⟨rfl, valid_atEnd file⟩
    | inr hcase =>
        obtain ⟨p, hp, -, rfl⟩ := hcase
        obtain ⟨before, rest, hplace⟩ := at_of_mem_placedPieces hp
        exact ⟨rfl, hplace.valid_span⟩
  disjoint := disjoint_spans file
  tokens := before_tokens file
  errors := before_errors file
  covered := fun _ h => covered_scan h
  eof := ⟨_, _, toList_scan file, rfl, rfl, fun _ ht => kind_ne_eof_of_mem_body ht⟩
  stray := fun _ _ _ h => stray_of_mem_errors h
  unclosed := by
    intro before span line after h
    have hself : .unterminatedString span line ∈ (scan file).errors := by
      rw [h]
      exact List.mem_append_right _ List.mem_cons_self
    exact ⟨unclosed_of_mem_errors hself, nil_behind_unclosed h,
      fun _ he => unexpected_of_mem_before h he, fun _ ht hkind => before_unclosed hself ht hkind⟩

end LoxSyntax.Token
