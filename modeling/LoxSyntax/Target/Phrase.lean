import LoxSyntax.Target.Keyword
import LoxSyntax.Target.Lexeme

/-!
Reading phrases from trees. A reader takes the trees ahead and returns the rest behind one phrase.
Phrases contain each other, so the reader of a phrase is given a reader for all of them; tying this
knot is left to one place.
-/

namespace LoxSyntax.Target

/-- What is known of a path that was read. -/
structure PathShape where
  /-- It begins with a type in angle brackets. -/
  qualified : Bool
  /-- It begins with a double colon. -/
  leading : Bool
  segments : Nat
  hasArguments : Bool
  endsInArguments : Bool
  deriving DecidableEq, Repr

/-- Whether the path is one of words only, as the path of a macro must be. -/
def PathShape.isPlain (shape : PathShape) : Bool :=
  !shape.qualified && !shape.hasArguments

structure BoundPlace where
  /-- Whether captured names may be listed. -/
  captures : Bool
  /-- Whether a bound may be marked constant. -/
  constants : Bool
  deriving DecidableEq, Repr

/-- What the reader of an enclosing phrase has to know of a phrase. -/
inductive Form
  | plain
  | path (shape : PathShape)
  /-- A bound by a trait, alone or as a type without a word before it. -/
  | trait
  | range
  | comparison
  /-- An expression that ends a statement by its closing brace. -/
  | block
  | bracedMacro
  deriving DecidableEq, Repr

/-- The phrases that contain each other. -/
inductive Phrase
  /-- A type, possibly a sum of bounds. -/
  | type (sum : Bool)
  | path (inExpression : Bool)
  | genericArgument
  | genericParameter
  | bound (place : BoundPlace)
  /-- An expression, possibly with a structure's fields in braces. -/
  | expression (braces : Bool)
  | unary (braces : Bool)
  | suffixes (form : Form)
  /-- Operators that bind at least so tightly, and operands, after an expression of a form. -/
  | operators (braces : Bool) (lowest : Nat) (left : Form)
  | operand (braces : Bool) (level : Nat)
  /-- Operators that bind more tightly than a level, after an operand of a form. -/
  | operandRest (braces : Bool) (level : Nat) (form : Form)
  /-- An expression that ends early if it is a block. -/
  | early
  | pattern
  | patterns
  | statements
  | item
  deriving DecidableEq, Repr

/-- Reads a phrase at the front: its form and the rest. -/
abbrev Reader := Phrase → Trees → Option (Form × Trees)

namespace Reader

def rest (reader : Reader) (phrase : Phrase) (ts : Trees) : Option Trees :=
  (reader phrase ts).map Prod.snd

def all (reader : Reader) (phrase : Phrase) (ts : Trees) : Bool :=
  match reader phrase ts with
  | some (_, []) => true
  | _ => false

end Reader

/-! What stands at the front. -/

def beginsWord (word : String) : Trees → Bool
  | .word name :: _ => name == word
  | _ => false

def beginsAnyWord : Trees → Bool
  | .word _ :: _ => true
  | _ => false

def beginsName : Trees → Bool
  | .word name :: _ => isName name
  | _ => false

def beginsGroup (delimiter : Delimiter) : Trees → Bool
  | .group d _ :: _ => d == delimiter
  | _ => false

/-- The marks of an operator, in a row without blanks. -/
def readMarkList : List Char → Trees → Option Trees
  | [], ts => some ts
  | [c], .mark d _ :: ts => if c = d then some ts else none
  | c :: cs, .mark d true :: ts => if c = d then readMarkList cs ts else none
  | _, _ => none

def marks (operator : String) (ts : Trees) : Option Trees :=
  readMarkList operator.toList ts

def beginsMarks (operator : String) (ts : Trees) : Bool :=
  (marks operator ts).isSome

def word (name : String) (ts : Trees) : Option Trees :=
  if beginsWord name ts then some ts.tail else none

def name (ts : Trees) : Option Trees :=
  if beginsName ts then some ts.tail else none

def group (delimiter : Delimiter) : Trees → Option (Trees × Trees)
  | .group d content :: ts => if d = delimiter then some (content, ts) else none
  | _ => none

/-- A group with any brackets: whether they are braces, and the rest. -/
def anyGroup : Trees → Option (Bool × Trees)
  | .group d _ :: ts => some (d == .brace, ts)
  | _ => none

def lifetime : Trees → Option Trees
  | .mark '\'' true :: .word _ :: ts => some ts
  | _ => none

def beginsLifetime (ts : Trees) : Bool :=
  (lifetime ts).isSome

def isNumber (text : String) : Bool :=
  text.toList.head?.any Char.isDigit

/-- A literal value: a spelled one, a truth value, or a number with a minus sign. -/
def literal : Trees → Option Trees
  | .literal _ :: ts => some ts
  | .word "true" :: ts => some ts
  | .word "false" :: ts => some ts
  | .mark '-' _ :: .literal text :: ts => if isNumber text then some ts else none
  | _ => none

def beginsLiteral (ts : Trees) : Bool :=
  (literal ts).isSome

/-- The trees behind the first; a lifetime counts as one. -/
def skip (ts : Trees) : Trees :=
  (lifetime ts).getD ts.tail

def optionalWord (name : String) (ts : Trees) : Trees :=
  (word name ts).getD ts

def optionalMarks (operator : String) (ts : Trees) : Trees :=
  (marks operator ts).getD ts

/-! Repetition. -/

/-- Runs a step that says whether to go on; the number bounds the steps. -/
def repeatSteps (step : Trees → Option (Bool × Trees)) : Nat → Trees → Option Trees
  | 0, _ => none
  | steps + 1, ts =>
      match step ts with
      | none => none
      | some (true, rest) => repeatSteps step steps rest
      | some (false, rest) => some rest

/-- Runs a step, which reads a tree whenever it goes on, until it does not go on. -/
def repeating (step : Trees → Option (Bool × Trees)) (ts : Trees) : Option Trees :=
  repeatSteps step (ts.length + 1) ts

/-- Items with commas between them and perhaps one at the end, up to where `stop` holds. -/
def commaSeparated (stop : Trees → Bool) (item : Trees → Option Trees) (ts : Trees) :
    Option Trees :=
  repeating
    (fun ts =>
      if stop ts then some (false, ts)
      else do
        let rest ← item ts
        if stop rest then return (false, rest)
        return (true, ← marks "," rest))
    ts

def isCommaList (item : Trees → Option Trees) (ts : Trees) : Bool :=
  match commaSeparated List.isEmpty item ts with
  | some [] => true
  | _ => false

def angleList (item : Trees → Option Trees) (ts : Trees) : Option Trees := do
  marks ">" (← commaSeparated (beginsMarks ">") item (← marks "<" ts))

/-! Attributes and blocks. -/

def wordPath (ts : Trees) : Option Trees :=
  repeating
    (fun ts =>
      match ts with
      | .word w :: rest =>
          if isName w || pathKeywords.contains w then
            some (match marks "::" rest with
              | some rest => (true, rest)
              | none => (false, rest))
          else none
      | _ => none)
    (optionalMarks "::" ts)

def isMeta (reader : Reader) (ts : Trees) : Bool :=
  match (word "unsafe" ts <|> wordPath ts) with
  | none => false
  | some [] => true
  | some [.group _ _] => true
  | some rest =>
      match marks "=" rest with
      | some [.literal _] => true
      | some value => reader.all (.expression true) value
      | none => false

def attributesBy (begin_ : String) (reader : Reader) (ts : Trees) : Option Trees :=
  repeating
    (fun ts =>
      match marks begin_ ts with
      | none => some (false, ts)
      | some rest =>
          match group .bracket rest with
          | some (content, rest) => if isMeta reader content then some (true, rest) else none
          | none => none)
    ts

/-- The rest behind the attributes of what follows. -/
def attributes (reader : Reader) (ts : Trees) : Option Trees :=
  attributesBy "#" reader ts

/-- The rest behind the attributes of what encloses the trees. -/
def innerAttributes (reader : Reader) (ts : Trees) : Option Trees :=
  repeating
    (fun ts =>
      match ts with
      | .mark '#' _ :: .mark '!' _ :: .group .bracket content :: rest =>
          if isMeta reader content then some (true, rest) else none
      | _ => some (false, ts))
    ts

def block (reader : Reader) (ts : Trees) : Option Trees := do
  let (content, rest) ← group .brace ts
  guard (reader.all .statements content)
  return rest

def blockWithAttributes (reader : Reader) (ts : Trees) : Option Trees := do
  let (content, rest) ← group .brace ts
  guard (reader.all .statements (← innerAttributes reader content))
  return rest

end LoxSyntax.Target
