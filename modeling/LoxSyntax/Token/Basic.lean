import LoxSyntax.Number.Layout
import LoxSyntax.Source.Span
import LoxSyntax.Token.Kind

/-!
Tokens of Lox: a kind, the span of the lexeme, the value of a number or a string, and the line on
which the lexeme begins. Equality of tokens includes equality of their spans.
-/

namespace LoxSyntax

open Source

namespace Token

inductive Literal
  | number (value : Number.Binary64)
  /-- The characters between the quotes. -/
  | text (content : String)
  deriving DecidableEq, Repr

namespace Literal

def shown : Literal → String
  | .number value => Number.Layout.plain.write value
  | .text content => content

end Literal

end Token

open Token

structure Token where
  kind : Kind
  span : Span
  literal : Option Literal
  line : Nat
  deriving BEq, Repr

namespace Token

def lexeme (token : Token) : String :=
  token.span.text

def shown (token : Token) : String :=
  token.kind.label ++ " " ++ token.lexeme ++ " " ++ (token.literal.map Literal.shown).getD "null"

/-- The tokens of a source file: those of its text, and one for its end. -/
structure Stream where
  body : List Token
  eof : Token
  deriving BEq, Repr

namespace Stream

def toList (stream : Stream) : List Token :=
  stream.body ++ [stream.eof]

end Stream

-- Where the library is opened as a whole, `Token.Token` is the type, too.
set_option linter.all false in
export LoxSyntax (Token)

namespace Token

set_option linter.all false in
export LoxSyntax.Token (shown)

end Token

end Token

end LoxSyntax
