import Mathlib.Data.List.Basic
import LoxSyntax.Proofs.Token.Coverage
import LoxSyntax.Proofs.Token.Follow

/-!
Scanning line by line. A newline ends every piece but the inside of a string, so two texts with a
newline between them are scanned apart: the first as it is on its own, the second as it is on its
own, further on by the bytes and lines before it.
-/

namespace LoxSyntax.Source

/-- The span in another file, further on by some bytes. -/
def Span.moved (file : File) (bytes : Nat) (span : Span) : Span :=
  ⟨file, span.start + bytes, span.stop + bytes⟩

end LoxSyntax.Source

namespace LoxSyntax.Token

open Source Text

/-- The token in another file, further on by some bytes and lines. -/
def moved (file : File) (bytes lines : Nat) (t : Token) : Token :=
  { t with span := t.span.moved file bytes, line := t.line + lines }

def LexicalError.moved (file : File) (bytes lines : Nat) : LexicalError → LexicalError
  | .unexpectedCharacter span line c =>
      .unexpectedCharacter (span.moved file bytes) (line + lines) c
  | .unterminatedString span line => .unterminatedString (span.moved file bytes) (line + lines)

def Placed.moved (bytes lines : Nat) (p : Placed) : Placed :=
  { p with start := p.start + bytes, line := p.line + lines }

/-- What a token is, wherever it stands. -/
structure Content where
  kind : Kind
  lexeme : String
  literal : Option Literal
  deriving DecidableEq, Repr

def content (t : Token) : Content :=
  ⟨t.kind, t.lexeme, t.literal⟩

def Piece.content? (p : Piece) : Option Content :=
  match p.role with
  | .token kind literal => some ⟨kind, String.ofList p.text, literal⟩
  | .layout | .stray | .unclosed => none

theorem readPiece_newline (cs : List Char) : readPiece '\n' cs = (⟨['\n'], .layout⟩, cs) := rfl

/-- The pieces of two texts with a newline between them. -/
theorem pieces_append_newline {cs : List Char} (ds : List Char)
    (hclosed : ∀ p ∈ pieces cs, p.role ≠ .unclosed) :
    pieces (cs ++ '\n' :: ds) = pieces cs ++ ⟨['\n'], .layout⟩ :: pieces ds := by
  fun_induction pieces cs with
  | case1 => rw [List.nil_append, pieces_cons, readPiece_newline, List.nil_append]
  | case2 c cs _ ih =>
      obtain ⟨hfirst, hrest⟩ := List.forall_mem_cons.1 hclosed
      have htail : ∀ x ∈ ('\n' :: ds).head?, isLayout x = true := by simp [isLayout]
      have hpiece := readPiece_append_tail htail hfirst (by simp)
      rw [List.cons_append, pieces_cons, hpiece, ih hrest, List.cons_append]

/-! Pieces that are moved are the same tokens and errors elsewhere. -/

theorem layOut_append (start line : Nat) (ps qs : List Piece) :
    layOut start line (ps ++ qs) = layOut start line ps ++
      layOut (start + width (ps.flatMap Piece.text)) (line + newlines (ps.flatMap Piece.text))
        qs := by
  induction ps generalizing start line with
  | nil => rfl
  | cons p ps ih => simp [layOut_cons, ih, Nat.add_assoc]

theorem layOut_add (start line bytes lines : Nat) (ps : List Piece) :
    layOut (start + bytes) (line + lines) ps = (layOut start line ps).map (.moved bytes lines) := by
  induction ps generalizing start line with
  | nil => rfl
  | cons p ps ih =>
      rw [layOut_cons, layOut_cons, List.map_cons, ← ih]
      simp only [Placed.moved, Nat.add_right_comm]

section Moved

variable (old new : File) (bytes lines : Nat)

theorem Placed.span_moved (p : Placed) :
    (p.moved bytes lines).span new = (p.span old).moved new bytes := by
  simp only [Placed.span, Placed.stop, Placed.moved, Span.moved, Nat.add_right_comm]

theorem Placed.token?_moved (p : Placed) :
    (p.moved bytes lines).token? new = (p.token? old).map (.moved new bytes lines) := by
  have hspan := Placed.span_moved old new bytes lines p
  unfold Placed.token?
  rw [hspan]
  cases hrole : p.piece.role <;> simp [Placed.moved, hrole, Token.moved]

theorem Placed.error?_moved (p : Placed) :
    (p.moved bytes lines).error? new = (p.error? old).map (.moved new bytes lines) := by
  have hspan := Placed.span_moved old new bytes lines p
  unfold Placed.error?
  rw [hspan]
  cases hrole : p.piece.role <;> cases htext : p.piece.text <;>
    simp [Placed.moved, hrole, htext, LexicalError.moved, Nat.add_right_comm]

theorem Placed.map_moved_zero (ps : List Placed) : ps.map (.moved 0 0) = ps :=
  List.map_id ps

theorem filterMap_token?_moved (ps : List Placed) :
    (ps.map (Placed.moved bytes lines)).filterMap (·.token? new) =
      (ps.filterMap (·.token? old)).map (Token.moved new bytes lines) := by
  rw [List.filterMap_map, List.map_filterMap]
  exact List.filterMap_congr fun p _ => p.token?_moved old new bytes lines

theorem filterMap_error?_moved (ps : List Placed) :
    (ps.map (Placed.moved bytes lines)).filterMap (·.error? new) =
      (ps.filterMap (·.error? old)).map (LexicalError.moved new bytes lines) := by
  rw [List.filterMap_map, List.map_filterMap]
  exact List.filterMap_congr fun p _ => p.error?_moved old new bytes lines

end Moved

/-- What a token is can be read off its piece. -/
theorem map_content_token? {file : File} {p : Placed} (h : p ∈ placedPieces file) :
    (p.token? file).map Token.content = p.piece.content? := by
  obtain ⟨before, rest, hplace⟩ := at_of_mem_placedPieces h
  have htext := hplace.text_span
  unfold Placed.token? Piece.content?
  cases p.piece.role with
  | token kind literal => simp [Token.content, Token.lexeme, htext]
  | layout | stray | unclosed => rfl

/-- What the tokens of a file are depends on its pieces alone. -/
theorem map_content_body (file : File) :
    (scan file).stream.body.map Token.content = (pieces file.chars).filterMap Piece.content? := by
  rw [scan_eq, List.map_filterMap, List.filterMap_congr fun p hp => map_content_token? hp,
    ← map_piece_layOut 0 1 (pieces file.chars), List.filterMap_map]
  rfl

theorem map_content_toList (file : File) :
    (scan file).stream.toList.map Token.content =
      (pieces file.chars).filterMap Piece.content? ++ [⟨.eof, "", none⟩] := by
  have hlast : (endToken file).content = ⟨.eof, "", none⟩ := by
    simp [Token.content, Token.lexeme, endToken, Span.atEnd, Span.text, slice]
  rw [toList_scan, List.map_append, map_content_body, List.map_singleton, hlast]

theorem not_unclosed_of_errors {file : File}
    (h : ∀ span line, .unterminatedString span line ∉ (scan file).errors) :
    ∀ p ∈ pieces file.chars, p.role ≠ .unclosed := by
  intro p hp hrole
  rw [← map_piece_layOut 0 1 (pieces file.chars), List.mem_map] at hp
  obtain ⟨placed, hplaced, rfl⟩ := hp
  have herror : placed.error? file = some (.unterminatedString (placed.span file)
      (placed.line + newlines placed.piece.text)) := by
    rw [Placed.error?, hrole]
  exact h _ _ (mem_errors_iff.2 ⟨placed, hplaced, herror⟩)

section Join

variable {a b whole : File}

/-- The pieces of the whole file are those of its first part, a newline, and those of its second
part further on. -/
theorem placedPieces_join (hwhole : whole.chars = a.chars ++ '\n' :: b.chars)
    (hclosed : ∀ p ∈ pieces a.chars, p.role ≠ .unclosed) :
    placedPieces whole = (placedPieces a).map (.moved 0 0) ++
      ⟨⟨['\n'], .layout⟩, a.size, 1 + newlines a.chars⟩ ::
        (placedPieces b).map (.moved (a.size + 1) (1 + newlines a.chars)) := by
  have hline : 1 + newlines a.chars + newlines ['\n'] = 1 + (1 + newlines a.chars) := by
    rw [Nat.add_comm 1 (1 + _)]
    rfl
  rw [placedPieces, hwhole, pieces_append_newline _ hclosed, layOut_append, flatMap_pieces,
    layOut_cons, hline, Nat.zero_add]
  have hsecond := layOut_add 0 1 (a.size + 1) (1 + newlines a.chars) (pieces b.chars)
  rw [Nat.zero_add] at hsecond
  rw [Placed.map_moved_zero, placedPieces, placedPieces, ← hsecond]
  rfl

theorem endToken_moved (hwhole : whole.chars = a.chars ++ '\n' :: b.chars) :
    (endToken b).moved whole (a.size + 1) (1 + newlines a.chars) = endToken whole := by
  have hsize : whole.size = b.size + (a.size + 1) := by
    simp only [File.size, hwhole, width_append, width_cons]
    have hnewline : '\n'.utf8Size = 1 := rfl
    omega
  have hlines : newlines whole.chars = newlines b.chars + (1 + newlines a.chars) := by
    simp only [hwhole, newlines_append, newlines_cons, if_true]
    omega
  simp only [endToken, Token.moved, Span.moved, Span.atEnd, hsize, hlines, Nat.add_assoc]

/-- A text that leaves no string open, a newline and another text are scanned as the first text and
then the second, which lies further on by the bytes and lines before it. -/
theorem scan_join (hwhole : whole.content = a.content ++ "\n" ++ b.content)
    (hclosed : ∀ span line, .unterminatedString span line ∉ (scan a).errors) :
    (scan whole).stream.toList =
        (scan a).stream.body.map (.moved whole 0 0) ++
          (scan b).stream.toList.map (.moved whole (a.size + 1) (1 + newlines a.chars)) ∧
      (scan whole).stream.toList.map Token.content =
        (scan a).stream.body.map Token.content ++ (scan b).stream.toList.map Token.content ∧
      (scan whole).errors =
        (scan a).errors.map (.moved whole 0 0) ++
          (scan b).errors.map (.moved whole (a.size + 1) (1 + newlines a.chars)) := by
  have hchars : whole.chars = a.chars ++ '\n' :: b.chars := by
    simp [File.chars, hwhole]
  have hpieces := not_unclosed_of_errors hclosed
  have hplaced := placedPieces_join hchars hpieces
  refine ⟨?_, ?_, ?_⟩
  · rw [toList_scan, toList_scan, List.map_append, ← List.append_assoc, List.map_singleton,
      endToken_moved hchars]
    simp only [scan_eq, hplaced, List.filterMap_append, List.filterMap_cons]
    rw [filterMap_token?_moved a, filterMap_token?_moved b]
    rfl
  · rw [map_content_toList, map_content_body, map_content_toList, hchars,
      pieces_append_newline _ hpieces, List.filterMap_append, List.append_assoc]
    rfl
  · simp only [scan_eq, hplaced, List.filterMap_append, List.filterMap_cons]
    rw [filterMap_error?_moved a, filterMap_error?_moved b]
    rfl

theorem scan_join_comment :
    let a : File := ⟨0, ⟨"a.lox"⟩, "f = 1. @ // \"é"⟩
    let b : File := ⟨1, ⟨"b.lox"⟩, "= \"s\n\" \"t"⟩
    let whole : File := ⟨2, ⟨"whole.lox"⟩, "f = 1. @ // \"é\n= \"s\n\" \"t"⟩
    (∀ span line, .unterminatedString span line ∉ (scan a).errors) ∧
      (scan whole).stream.toList =
        (scan a).stream.body.map (.moved whole 0 0) ++
          (scan b).stream.toList.map (.moved whole 16 1) ∧
      (scan whole).errors =
        (scan a).errors.map (.moved whole 0 0) ++ (scan b).errors.map (.moved whole 16 1) := by
  intro a b whole
  have hclosed : ∀ span line, .unterminatedString span line ∉ (scan a).errors := by
    intro span line h
    have hall : ∀ e ∈ (scan a).errors, e.help? = none := by
      simpa using (by decide +kernel : (scan a).errors.all (·.help?.isNone) = true)
    exact absurd (hall _ h) (by simp [LexicalError.help?])
  have hbytes : a.size + 1 = 16 := by decide
  have hlines : 1 + newlines a.chars = 1 := by decide
  have hjoin := @scan_join a b whole (by decide) hclosed
  rw [hbytes, hlines] at hjoin
  exact ⟨hclosed, hjoin.1, hjoin.2.2⟩

end Join

end LoxSyntax.Token
