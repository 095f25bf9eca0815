/-!
The keywords of Lox. Each has one word in lower case, and the words tell them apart.
-/

namespace LoxSyntax.Token

/-- The keywords, in the order that compares them. -/
inductive Keyword
  | and | «class» | «else» | «false» | «for» | «fun» | «if» | nil | or | print | «return»
  | super | this | «true» | var | while
  deriving DecidableEq, Repr

namespace Keyword

def all : List Keyword :=
  [.and, .class, .else, .false, .for, .fun, .if, .nil, .or, .print, .return, .super, .this, .true,
    .var, .while]

def word : Keyword → String
  | .and => "and"
  | .class => "class"
  | .else => "else"
  | .false => "false"
  | .for => "for"
  | .fun => "fun"
  | .if => "if"
  | .nil => "nil"
  | .or => "or"
  | .print => "print"
  | .return => "return"
  | .super => "super"
  | .this => "this"
  | .true => "true"
  | .var => "var"
  | .while => "while"

def rank : Keyword → Nat
  | .and => 0
  | .class => 1
  | .else => 2
  | .false => 3
  | .for => 4
  | .fun => 5
  | .if => 6
  | .nil => 7
  | .or => 8
  | .print => 9
  | .return => 10
  | .super => 11
  | .this => 12
  | .true => 13
  | .var => 14
  | .while => 15

/-- The word with a capital. -/
def name (keyword : Keyword) : String :=
  keyword.word.capitalize

def ofWord? (word : String) : Option Keyword :=
  all.find? fun keyword => keyword.word = word

def unknownWord : String :=
  "invalid string representation of keyword."

theorem ofWord?_word (keyword : Keyword) : ofWord? keyword.word = some keyword := by
  cases keyword <;> decide

theorem ofWord?_eq_some_iff {word : String} {keyword : Keyword} :
    ofWord? word = some keyword ↔ keyword.word = word := by
  constructor
  · intro h
    simpa using List.find?_some h
  · rintro rfl
    exact ofWord?_word keyword

end Keyword

end LoxSyntax.Token
