import LoxSyntax.Target.Keyword
import LoxSyntax.Text.Snake

/-!
Names in a grammar. Only ASCII identifiers name anything; a variant or a base type is written as it
stands and so is no reserved word, while a field is written in snake case and escaped.
-/

namespace LoxSyntax.Schema

open Text Target

/-- An ASCII letter or an underscore. -/
def beginsName (c : Char) : Bool :=
  c.isAlpha || c == '_'

/-- An ASCII letter, an ASCII digit or an underscore. -/
def continuesName (c : Char) : Bool :=
  c.isAlphanum || c == '_'

/-- Whether the text is an ASCII identifier, reserved or not. -/
def isIdentifier (name : String) : Bool :=
  match name.toList with
  | [] => false
  | c :: cs => beginsName c && cs.all continuesName

/-- Whether the text can name a variant or the base type. -/
def isTypeName (name : String) : Bool :=
  isIdentifier name && !isKeyword name

/-- The identifier that a field of this name gets. -/
def fieldName (name : String) : String :=
  escapeKeyword (snake name)

def nodeMethods : List String :=
  ["new", "accept"]

/-- The names that the generated code itself uses for other things. -/
def reservedTypeNames : List String :=
  ["Box", "Option", "From", "T", "V"]

end LoxSyntax.Schema
