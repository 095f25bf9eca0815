import LoxSyntax.Token.Keyword

/-!
Kinds of Lox tokens, their names in a listing and their order, and which characters make a token by
themselves or together with an equals sign.
-/

namespace LoxSyntax.Token

inductive Kind
  | leftParen | rightParen | leftBrace | rightBrace | comma | dot | minus | plus | semicolon
  | slash | star
  | bang | bangEqual | equal | equalEqual | greater | greaterEqual | less | lessEqual
  | identifier | string | number
  | keyword (k : Keyword)
  | eof
  deriving DecidableEq, Repr

namespace Kind

/-- The kind made of exactly the given character. Those that may begin a longer token are left
out. -/
def ofPunctuation? : Char → Option Kind
  | '(' => some .leftParen
  | ')' => some .rightParen
  | '\x7b' => some .leftBrace
  | '\x7d' => some .rightBrace
  | ',' => some .comma
  | '.' => some .dot
  | '-' => some .minus
  | '+' => some .plus
  | ';' => some .semicolon
  | '*' => some .star
  | _ => none

def ofOperator? : Char → Option (Kind × Kind)
  | '!' => some (.bang, .bangEqual)
  | '=' => some (.equal, .equalEqual)
  | '<' => some (.less, .lessEqual)
  | '>' => some (.greater, .greaterEqual)
  | _ => none

/-- The name in capitals, words joined by underscores. -/
def label : Kind → String
  | .leftParen => "LEFT_PAREN"
  | .rightParen => "RIGHT_PAREN"
  | .leftBrace => "LEFT_BRACE"
  | .rightBrace => "RIGHT_BRACE"
  | .comma => "COMMA"
  | .dot => "DOT"
  | .minus => "MINUS"
  | .plus => "PLUS"
  | .semicolon => "SEMICOLON"
  | .slash => "SLASH"
  | .star => "STAR"
  | .bang => "BANG"
  | .bangEqual => "BANG_EQUAL"
  | .equal => "EQUAL"
  | .equalEqual => "EQUAL_EQUAL"
  | .greater => "GREATER"
  | .greaterEqual => "GREATER_EQUAL"
  | .less => "LESS"
  | .lessEqual => "LESS_EQUAL"
  | .identifier => "IDENTIFIER"
  | .string => "STRING"
  | .number => "NUMBER"
  | .keyword k => k.word.map Char.toUpper
  | .eof => "EOF"

/-- The name in camel case; a keyword's kind is named for all keywords at once. -/
def name : Kind → String
  | .leftParen => "LeftParen"
  | .rightParen => "RightParen"
  | .leftBrace => "LeftBrace"
  | .rightBrace => "RightBrace"
  | .comma => "Comma"
  | .dot => "Dot"
  | .minus => "Minus"
  | .plus => "Plus"
  | .semicolon => "Semicolon"
  | .slash => "Slash"
  | .star => "Star"
  | .bang => "Bang"
  | .bangEqual => "BangEqual"
  | .equal => "Equal"
  | .equalEqual => "EqualEqual"
  | .greater => "Greater"
  | .greaterEqual => "GreaterEqual"
  | .less => "Less"
  | .lessEqual => "LessEqual"
  | .identifier => "Identifier"
  | .string => "String"
  | .number => "Number"
  | .keyword _ => "Keyword"
  | .eof => "Eof"

/-- The place in the order; keywords stand between the literals and the end. -/
def rank : Kind → Nat
  | .leftParen => 0
  | .rightParen => 1
  | .leftBrace => 2
  | .rightBrace => 3
  | .comma => 4
  | .dot => 5
  | .minus => 6
  | .plus => 7
  | .semicolon => 8
  | .slash => 9
  | .star => 10
  | .bang => 11
  | .bangEqual => 12
  | .equal => 13
  | .equalEqual => 14
  | .greater => 15
  | .greaterEqual => 16
  | .less => 17
  | .lessEqual => 18
  | .identifier => 19
  | .string => 20
  | .number => 21
  | .keyword k => 22 + k.rank
  | .eof => 38

def distinct (kinds : List Kind) : List Kind :=
  kinds.eraseDups.mergeSort fun a b => a.rank ≤ b.rank

end Kind

end LoxSyntax.Token
