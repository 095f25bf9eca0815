/-!
Lexemes of the language the generated source is written in, flat and nested. Groups are made of
matching brackets; a mark remembers whether another mark follows it at once, since longer operators
are spelled by several marks.
-/

namespace LoxSyntax.Target

inductive Delimiter
  | parenthesis
  | bracket
  | brace
  deriving DecidableEq, Repr

inductive Lexeme
  /-- An identifier or keyword, a raw one with its `r#`. -/
  | word (name : String)
  /-- One character of punctuation, and whether another follows it at once. -/
  | mark (c : Char) (joint : Bool)
  | literal (text : String)
  | opening (delimiter : Delimiter)
  | closing (delimiter : Delimiter)
  deriving DecidableEq, Repr

/-- A lexeme, or what stands between two matching brackets. -/
inductive Tree
  | word (name : String)
  | mark (c : Char) (joint : Bool)
  | literal (text : String)
  | group (delimiter : Delimiter) (trees : List Tree)
  deriving Repr

abbrev Trees := List Tree

/-- A bracket that is open, and the trees before it in reverse. -/
structure Frame where
  delimiter : Delimiter
  before : Trees

/-- Nests lexemes, given the trees read since the last open bracket in reverse. -/
def nest (open_ : List Frame) (read : Trees) : List Lexeme → Option Trees
  | [] => if open_.isEmpty then some read.reverse else none
  | .word name :: rest => nest open_ (.word name :: read) rest
  | .mark c joint :: rest => nest open_ (.mark c joint :: read) rest
  | .literal text :: rest => nest open_ (.literal text :: read) rest
  | .opening delimiter :: rest => nest (⟨delimiter, read⟩ :: open_) [] rest
  | .closing delimiter :: rest =>
      match open_ with
      | [] => none
      | frame :: frames =>
          if frame.delimiter = delimiter then
            nest frames (.group delimiter read.reverse :: frame.before) rest
          else none

def treesOf? (lexemes : List Lexeme) : Option Trees :=
  nest [] [] lexemes

end LoxSyntax.Target
