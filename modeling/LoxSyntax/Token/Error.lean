import LoxSyntax.Source.Excerpt
import LoxSyntax.Text.Escape

/-!
Errors found while scanning, each with the span it is about and the line it is reported at.
-/

namespace LoxSyntax.Token

open Source

inductive LexicalError
  | unexpectedCharacter (span : Span) (line : Nat) (character : Char)
  /-- A string that the text ends in; the line is that of the end. -/
  | unterminatedString (span : Span) (line : Nat)
  deriving BEq, Repr

namespace LexicalError

def span : LexicalError → Span
  | .unexpectedCharacter span _ _ => span
  | .unterminatedString span _ => span

def line : LexicalError → Nat
  | .unexpectedCharacter _ line _ => line
  | .unterminatedString _ line => line

def message : LexicalError → String
  | .unexpectedCharacter _ _ c => String.join ["Unexpected character `", Text.shownChar c, "`."]
  | .unterminatedString _ _ => "Unterminated string."

/-- What is suggested below the excerpt. -/
def help? : LexicalError → Option String
  | .unexpectedCharacter _ _ _ => none
  | .unterminatedString _ _ => some "this string is not closed by a matching `\"`"

/-- The error with its headline and the line of source it points at. -/
def shown (error : LexicalError) (display : Display) : String :=
  headline display ("[line " ++ toString error.line ++ "] " ++ error.message) ++ "\n" ++
    error.span.excerpt display error.help?

end LexicalError

end LoxSyntax.Token
