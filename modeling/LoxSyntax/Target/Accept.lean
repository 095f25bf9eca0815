import LoxSyntax.Target.Item
import LoxSyntax.Target.Lexemes
import LoxSyntax.Target.Statement

/-!
Which texts are types and which are imports. Here the readers of the phrases are tied together:
a phrase inside a phrase is read with one step less, and the steps given at first suffice for every
text, since no phrase contains itself without reading a tree.
-/

namespace LoxSyntax.Target

/-- Reads one phrase with a given reader for the phrases inside it. -/
def readPhrase (reader : Reader) : Reader
  | .type sum, ts => readType reader sum ts
  | .path inExpression, ts => (readPath reader inExpression ts).map fun (s, rest) => (.path s, rest)
  | .genericArgument, ts => (readGenericArgument reader ts).map (.plain, ·)
  | .genericParameter, ts => (readGenericParameter reader ts).map (.plain, ·)
  | .bound place, ts => readBound reader place ts
  | .expression braces, ts => readExpression reader braces ts
  | .unary braces, ts => readUnary reader braces ts
  | .suffixes form, ts => readSuffixes reader form ts
  | .operators braces lowest left, ts => readOperators reader braces lowest left ts
  | .operand braces level, ts => readOperand reader braces level ts
  | .operandRest braces level form, ts => readOperandRest reader braces level form ts
  | .early, ts => readEarly reader ts
  | .pattern, ts => (readPattern reader ts).map (.plain, ·)
  | .patterns, ts => (readPatterns reader ts).map (.plain, ·)
  | .statements, ts => (readStatements reader ts).map (.plain, ·)
  | .item, ts => (readItem reader ts).map (.plain, ·)

/-- Reads phrases nested no deeper than the number. -/
def readerOfDepth : Nat → Reader
  | 0, _, _ => none
  | depth + 1, phrase, ts => readPhrase (readerOfDepth depth) phrase ts

/-- The depth of phrases that so many lexemes can make. -/
def depthBound (lexemes : List Lexeme) : Nat :=
  16 * (lexemes.length + 2)

def areType (lexemes : List Lexeme) : Bool :=
  match treesOf? lexemes with
  | none => false
  | some ts => (readerOfDepth (depthBound lexemes)).all (.type true) ts

/-- Whether a text is a type. Only its lexemes count. -/
def isType (text : String) : Bool :=
  (lexemes? text).any areType

def useTree? (text : String) : Option UseTree := do
  let lexemes ← lexemes? text
  match useTree false (2 * lexemes.length + 2) (← treesOf? lexemes) with
  | some (tree, []) => some tree
  | _ => none

end LoxSyntax.Target
