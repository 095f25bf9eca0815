import LoxSyntax.Token.Error
import LoxSyntax.Token.Piece

/-!
Pieces in their places. The pieces of a text are laid out by byte offset and line, each where the
one before it ends, and then stand for tokens and errors.
-/

namespace LoxSyntax.Token

open Source Text

/-- A piece with the offset and the line at which it begins. -/
structure Placed where
  piece : Piece
  start : Nat
  line : Nat
  deriving DecidableEq, Repr

/-- Lays out pieces that follow one another from an offset and a line on. -/
def layOut (start line : Nat) : List Piece → List Placed
  | [] => []
  | p :: ps => ⟨p, start, line⟩ :: layOut (start + width p.text) (line + newlines p.text) ps

namespace Placed

def stop (p : Placed) : Nat :=
  p.start + width p.piece.text

def span (p : Placed) (file : File) : Span :=
  ⟨file, p.start, p.stop⟩

def token? (p : Placed) (file : File) : Option Token :=
  match p.piece.role with
  | .token kind literal => some ⟨kind, p.span file, literal, p.line⟩
  | .layout | .stray | .unclosed => none

def error? (p : Placed) (file : File) : Option LexicalError :=
  match p.piece.role, p.piece.text with
  | .stray, c :: _ => some (.unexpectedCharacter (p.span file) p.line c)
  | .unclosed, text => some (.unterminatedString (p.span file) (p.line + newlines text))
  | _, _ => none

end Placed

def placedPieces (file : File) : List Placed :=
  layOut 0 1 (pieces file.chars)

@[simp] theorem layOut_nil (start line : Nat) : layOut start line [] = [] := rfl

theorem layOut_cons (start line : Nat) (p : Piece) (ps : List Piece) :
    layOut start line (p :: ps) =
      ⟨p, start, line⟩ :: layOut (start + width p.text) (line + newlines p.text) ps := rfl

@[simp] theorem map_piece_layOut (start line : Nat) (ps : List Piece) :
    (layOut start line ps).map Placed.piece = ps := by
  induction ps generalizing start line with
  | nil => rfl
  | cons p ps ih => simp [layOut_cons, ih]

end LoxSyntax.Token
