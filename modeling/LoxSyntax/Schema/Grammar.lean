import LoxSyntax.Schema.Error
import LoxSyntax.Schema.Name
import LoxSyntax.Target.Accept
import LoxSyntax.Text.Blank
import LoxSyntax.Text.Lines

/-!
Grammars of node types: one rule a line, which names a variant and lists its fields. Reading stops
at the first fault. What counts as a type is a parameter of reading, since nothing else about a
type matters here.
-/

namespace LoxSyntax.Schema

open Text

structure Field where
  type : String
  name : String
  deriving DecidableEq, Repr

/-- A variant with its fields, and the line it is declared on. -/
structure Rule where
  name : String
  fields : List Field
  line : Nat
  deriving DecidableEq, Repr

structure Grammar where
  rules : List Rule
  deriving DecidableEq, Repr

/-- The field's name in snake case. Two fields of a rule differ in it. -/
def Field.snakeName (field : Field) : String :=
  snake field.name

def Field.identifier (field : Field) : String :=
  fieldName field.name

/-- The variant's name in snake case, by which its visitor method is named. -/
def Rule.snakeName (rule : Rule) : String :=
  snake rule.name

/-- Reads a field from a text without blanks at its ends: a type, blanks and a name. -/
def Field.parse (isType : String → Bool) (descriptor : List Char) : Except Fault Field :=
  match splitAt? isBlank descriptor with
  | none => .error (.malformedField (String.ofList descriptor))
  | some (before, after) =>
      let type := trim before
      let name := trim after
      if type = [] || name = [] || name.any isBlank then
        .error (.malformedField (String.ofList descriptor))
      else if !isIdentifier (String.ofList name) then .error (.notIdentifier (String.ofList name))
      else if nodeMethods.contains (snake (String.ofList name)) then
        .error (.reservedField (String.ofList name))
      else if !isType (String.ofList type) then .error (.notType (String.ofList type))
      else .ok ⟨String.ofList type, String.ofList name⟩

/-- Reads the fields that follow the earlier ones of a rule. -/
def Field.parseAll (isType : String → Bool) (earlier : List Field) :
    List (List Char) → Except Fault (List Field)
  | [] => .ok earlier
  | descriptor :: rest =>
      match Field.parse isType (trim descriptor) with
      | .error fault => .error fault
      | .ok field =>
          if earlier.any (·.snakeName = field.snakeName) then .error (.repeatedField field.name)
          else Field.parseAll isType (earlier ++ [field]) rest

/-- Reads a line, without blanks at its ends, as a rule. -/
def Rule.parse (isType : String → Bool) (number : Nat) (line : List Char) : Except Fault Rule :=
  match splitAt? (· == ':') line with
  | none => .error (.missingSeparator (String.ofList line))
  | some (before, after) =>
      let name := String.ofList (trim before)
      if trim before = [] then .error (.missingName (String.ofList line))
      else if !isTypeName name then .error (.notIdentifier name)
      else (Field.parseAll isType [] (after.splitOn ',')).map fun fields => ⟨name, fields, number⟩

namespace Grammar

/-- What was read so far: the rules, the line of each variant, and the variant and line that have
each visitor method. -/
structure Reading where
  rules : List Rule
  declared : List (String × Nat)
  methods : List (String × String × Nat)

namespace Reading

def start : Reading :=
  ⟨[], [], []⟩

def insert (reading : Reading) (rule : Rule) : Reading where
  rules := reading.rules ++ [rule]
  declared := (rule.name, rule.line) :: reading.declared
  methods := (rule.snakeName, rule.name, rule.line) :: reading.methods

/-- Takes in a rule that differs from the earlier ones in its name and its visitor method. -/
def add (reading : Reading) (rule : Rule) : Except Fault Reading :=
  match reading.declared.lookup rule.name with
  | some first => .error (.declaredBefore rule.name first)
  | none =>
      match reading.methods.lookup rule.snakeName with
      | some (other, first) => .error (.methodTaken rule.name other first rule.snakeName)
      | none => .ok (reading.insert rule)

/-- Reads a line, which may be blank or a comment. -/
def readLine (isType : String → Bool) (reading : Reading) (number : Nat) (line : List Char) :
    Except GrammarError Reading :=
  let trimmed := trim line
  if trimmed = [] || trimmed.head? = some '#' then .ok reading
  else
    match Rule.parse isType number trimmed with
    | .error fault => .error (.inRule number fault)
    | .ok rule => (reading.add rule).mapError (.inRule number)

/-- Reads lines, of which the first has the given number. -/
def readLines (isType : String → Bool) (reading : Reading) (number : Nat) :
    List (List Char) → Except GrammarError Reading
  | [] => .ok reading
  | line :: rest =>
      match reading.readLine isType number line with
      | .error error => .error error
      | .ok next => next.readLines isType (number + 1) rest

end Reading

/-- Reads a grammar whose types are those that the predicate accepts. -/
def parseWith (isType : String → Bool) (source : String) : Except GrammarError Grammar :=
  match Reading.start.readLines isType 1 (lines source.toList) with
  | .error error => .error error
  | .ok reading => if reading.rules = [] then .error .noRules else .ok ⟨reading.rules⟩

def parse (source : String) : Except GrammarError Grammar :=
  parseWith Target.isType source

end Grammar

end LoxSyntax.Schema
