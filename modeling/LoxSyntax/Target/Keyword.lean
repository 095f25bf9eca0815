/-!
Reserved words of the target language. A word that is reserved may still name something when it is
written in its raw form, unless it is one of the words that begin a path.
-/

namespace LoxSyntax.Target

/-- The words that begin a path, which have no raw form. -/
def pathKeywords : List String :=
  ["crate", "self", "Self", "super"]

/-- The words that are no plain identifiers in a generated name. -/
def keywords : List String :=
  ["as", "async", "await", "break", "const", "continue", "dyn", "else", "enum", "extern",
    "false", "fn", "for", "if", "impl", "in", "let", "loop", "match", "mod", "move", "mut", "pub",
    "ref", "return", "static", "struct", "trait", "true", "type", "unsafe", "use", "where",
    "while", "abstract", "become", "box", "do", "final", "gen", "macro", "override", "priv",
    "try", "typeof", "unsized", "virtual", "yield"]

def isKeyword (word : String) : Bool :=
  keywords.contains word || pathKeywords.contains word

/-- The word as an identifier: a keyword in its raw form, a path word with an underscore. -/
def escapeKeyword (word : String) : String :=
  if pathKeywords.contains word then word ++ "_"
  else if isKeyword word then "r#" ++ word
  else word

/-- Whether a phrase may use the word as an identifier. Here `gen` may be one, and the underscore
may not. -/
def isName (word : String) : Bool :=
  word != "_" && (word == "gen" || !isKeyword word)

end LoxSyntax.Target
