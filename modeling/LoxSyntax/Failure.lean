import LoxSyntax.Files.Lookup
import LoxSyntax.Schema.Error
import LoxSyntax.Text.Utf8
import LoxSyntax.Token.Session

/-!
All that can go wrong, with the wording in which it is reported. A fault in the encoding of a file
is reported without a lead-in.
-/

namespace LoxSyntax

open Files Schema Source Token

inductive Failure
  | io (path : Path) (cause : Cause)
  | notUtf8 (fault : Text.Utf8.Fault)
  | lexical (error : LexicalError)
  | grammar (error : GrammarError)
  deriving Repr

def Failure.message (display : Display) : Failure → String
  | .io path cause =>
      String.join
        ["An error occurred while working with Input/Output: ", path.text, ": ", cause.message]
  | .notUtf8 fault => fault.message
  | .lexical error => error.report display
  | .grammar error => String.join ["An error occurred while reading the grammar: ", error.message]

end LoxSyntax
