import LoxSyntax.Target.Lexeme
import LoxSyntax.Target.LiteralText
import LoxSyntax.Text.Blank

/-!
Cutting a text into the lexemes of the target language. Blanks and comments separate lexemes and
leave no trace, but a documentation comment stands for the attribute that it abbreviates.
-/

namespace LoxSyntax.Target

open Text

/-- Blanks between lexemes: White_Space and the two direction marks. -/
def isSeparator (c : Char) : Bool :=
  isBlank c || c == '\u200e' || c == '\u200f'

def isMark (c : Char) : Bool :=
  "~!@#$%^&*-=+|;:,<.>/?'".toList.contains c

def beginsComment : List Char → Bool
  | '/' :: '/' :: _ => true
  | '/' :: '*' :: _ => true
  | _ => false

/-- Whether a mark stands at the front. The slash that begins a comment is none. -/
def beginsMark (cs : List Char) : Bool :=
  cs.head?.any isMark && !beginsComment cs

/-- A block comment, whose inner comments are closed first: its text and the rest. -/
def readBlockComment (depth : Nat) : List Char → Option (List Char × List Char)
  | [] => none
  | '/' :: '*' :: cs => (readBlockComment (depth + 1) cs).map fun (t, r) => ('/' :: '*' :: t, r)
  | '*' :: '/' :: cs =>
      if depth ≤ 1 then some (['*', '/'], cs)
      else (readBlockComment (depth - 1) cs).map fun (t, r) => ('*' :: '/' :: t, r)
  | c :: cs => (readBlockComment depth cs).map fun (t, r) => (c :: t, r)

def readLine (cs : List Char) : List Char × List Char :=
  let text := cs.takeWhile (· != '\n')
  let rest := cs.dropWhile (· != '\n')
  match rest, text.reverse with
  | _ :: _, '\r' :: before => (before.reverse, rest)
  | _, _ => (text, rest)

def hasBareReturn : List Char → Bool
  | [] => false
  | '\r' :: '\n' :: cs => hasBareReturn cs
  | '\r' :: _ => true
  | _ :: cs => hasBareReturn cs

/-- The attribute that a documentation comment stands for; `inner` ones belong to what encloses
them. -/
def documentation (inner : Bool) (text : List Char) : Option (List Lexeme) :=
  if hasBareReturn text then none
  else
    some <| [.mark '#' false] ++ (if inner then [.mark '!' false] else []) ++
      [.opening .bracket, .word "doc", .mark '=' false, .literal (String.ofList text),
        .closing .bracket]

/-- What a comment up to the end of its line stands for, given its text behind both slashes. -/
def ofLineComment : List Char → Option (List Lexeme)
  | '!' :: text => documentation true text
  | '/' :: '/' :: _ => some []
  | '/' :: text => documentation false text
  | _ => some []

/-- What a block comment stands for, by the character that tells its kind. -/
def ofBlockComment (kind : Char) (text : List Char) : Option (List Lexeme) :=
  if kind = '!' || (kind = '*' && text[3]? != some '*') then
    documentation (kind == '!') (text.drop 3).dropLast.dropLast
  else some []

def readComment (cs : List Char) : Option (List Lexeme × List Char) :=
  match cs with
  | '/' :: '/' :: body =>
      let (text, rest) := readLine body
      (ofLineComment text).map (·, rest)
  | '/' :: '*' :: '*' :: '/' :: rest => some ([], rest)
  | '/' :: '*' :: kind :: _ =>
      match readBlockComment 0 cs with
      | none => none
      | some (text, rest) => (ofBlockComment kind text).map (·, rest)
  | _ => none

def rawForbidden : List String :=
  ["_", "super", "self", "Self", "crate"]

/-- An identifier without a mark, and the rest. -/
def readPlain (cs : List Char) : Option (List Char × List Char) :=
  if cs.head?.any isIdentifierStart then
    some (cs.takeWhile isIdentifierChar, cs.dropWhile isIdentifierChar)
  else none

def readIdentifier (cs : List Char) : Option (String × List Char) :=
  match cs with
  | 'r' :: '#' :: after =>
      match readPlain after with
      | some (name, rest) =>
          if rawForbidden.contains (String.ofList name) then none
          else some (String.ofList ('r' :: '#' :: name), rest)
      | none => none
  | _ => (readPlain cs).map fun (name, rest) => (String.ofList name, rest)

/-- The beginnings of literals that never begin an identifier. -/
def literalBeginnings : List String :=
  ["r\"", "r#\"", "r##", "b\"", "b'", "br\"", "br#", "c\"", "cr\"", "cr#"]

/-- A mark at the front and the rest. A quote is one only before an identifier that neither
another quote nor a hash follows at once. -/
def readMark (cs : List Char) : Option (Lexeme × List Char) :=
  match cs with
  | '\'' :: rest =>
      match readIdentifier rest with
      | none => none
      | some (name, after) =>
          if after.head? = some '\'' || (after.head? = some '#' && !name.startsWith "r#") then none
          else some (.mark '\'' true, rest)
  | c :: rest => if beginsMark cs then some (.mark c (beginsMark rest), rest) else none
  | [] => none

/-- The lexeme that stands for an unreadable stretch of text. -/
def unreadable : List Char :=
  ['(', '/', '*', 'E', 'R', 'R', 'O', 'R', '*', '/', ')']

def readLiteralLexeme (cs : List Char) : Option (Lexeme × List Char) :=
  (readLiteral cs).map fun rest =>
    (.literal (String.ofList (cs.take (cs.length - rest.length))), rest)

def readWord (cs : List Char) : Option (Lexeme × List Char) :=
  if literalBeginnings.any fun b => b.toList.isPrefixOf cs then none
  else (readIdentifier cs).map fun (name, rest) => (.word name, rest)

/-- A lexeme that is no bracket and no comment. -/
def readSingle (cs : List Char) : Option (Lexeme × List Char) :=
  readLiteralLexeme cs <|> readMark cs <|> readWord cs

def delimiter? : Char → Option Lexeme
  | '(' => some (.opening .parenthesis)
  | '[' => some (.opening .bracket)
  | '\x7b' => some (.opening .brace)
  | ')' => some (.closing .parenthesis)
  | ']' => some (.closing .bracket)
  | '\x7d' => some (.closing .brace)
  | _ => none

/-- What one step reads: lexemes, of which there are none in a blank, and the rest. -/
def readLexemes (cs : List Char) : Option (List Lexeme × List Char) :=
  match cs with
  | [] => none
  | c :: rest =>
      if isSeparator c then some ([], rest)
      else if beginsComment cs then readComment cs
      else if unreadable.isPrefixOf cs then
        some ([.literal (String.ofList unreadable)], cs.drop unreadable.length)
      else
        match delimiter? c with
        | some lexeme => some ([lexeme], rest)
        | none => (readSingle cs).map fun (lexeme, rest) => ([lexeme], rest)

def lexemesOf? (cs : List Char) : Option (List Lexeme) :=
  if cs.isEmpty then some []
  else
    match readLexemes cs with
    | none => none
    | some (lexemes, rest) =>
        if rest.length < cs.length then (lexemesOf? rest).map (lexemes ++ ·) else none
termination_by cs.length

/-- The lexemes of a text that may begin with a byte order mark. -/
def lexemes? (text : String) : Option (List Lexeme) :=
  match text.toList with
  | '\ufeff' :: cs => lexemesOf? cs
  | cs => lexemesOf? cs

end LoxSyntax.Target
