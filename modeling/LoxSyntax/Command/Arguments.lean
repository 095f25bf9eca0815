/-!
Command lines. The arguments of a program are read in order into requests, and one that cannot be
read becomes a refused request; a switch is a letter that may be written together with others, and
a setting is a word with a value behind it.
-/

namespace LoxSyntax.Command

/-- Why a command line is refused. -/
inductive UsageError
  | unknownArgument
  /-- A switch is given too often, or a value does not have its form. -/
  | invalidValue
  | emptyValue
  /-- A value is given to a switch. -/
  | unexpectedValue
  | conflict
  | missingArgument
  deriving DecidableEq, Repr

def UsageError.message : UsageError → String
  | .unknownArgument => "unexpected argument"
  | .invalidValue => "invalid value"
  | .emptyValue => "a value is required"
  | .unexpectedValue => "unexpected value"
  | .conflict => "arguments cannot be used together"
  | .missingArgument => "required arguments were not provided"

inductive Switch
  | verbose
  | quiet
  | help
  | version
  deriving DecidableEq, Repr

inductive Setting
  | baseName
  | addImport
  | mapType
  deriving DecidableEq, Repr

inductive Request
  | turn (switch : Switch)
  | set (setting : Setting) (value : String)
  | path (text : String)
  | refused (error : UsageError)
  deriving DecidableEq, Repr

/-- The arguments that a program takes. -/
structure Usage where
  switches : List Switch
  settings : List Setting
  leastPaths : Nat
  mostPaths : Nat

def Switch.letter : Switch → Char
  | .verbose => 'v'
  | .quiet => 'q'
  | .help => 'h'
  | .version => 'V'

def Switch.word? : Switch → Option String
  | .verbose | .quiet => none
  | .help => some "help"
  | .version => some "version"

def Setting.word : Setting → String
  | .baseName => "base-name"
  | .addImport => "import"
  | .mapType => "type-map"

/-- The word of an argument that begins with two hyphens, and the value behind an equals sign. -/
def wordOf? (argument : String) : Option (String × Option String) :=
  match argument.toList with
  | '-' :: '-' :: c :: cs =>
      let name := (c :: cs).takeWhile (· ≠ '=')
      match (c :: cs).dropWhile (· ≠ '=') with
      | [] => some (String.ofList name, none)
      | _ :: value => some (String.ofList name, some (String.ofList value))
  | _ => none

/-- The letters of an argument that begins with one hyphen. -/
def lettersOf? (argument : String) : Option (List Char) :=
  match argument.toList with
  | '-' :: '-' :: _ => none
  | '-' :: c :: cs => some (c :: cs)
  | _ => none

def isValue (argument : String) : Bool :=
  argument ≠ "--" && (wordOf? argument).isNone && (lettersOf? argument).isNone

def requestsOfLetters (usage : Usage) (letters : List Char) : List Request :=
  letters.map fun c =>
    match usage.switches.find? (·.letter = c) with
    | none => .refused .unknownArgument
    | some switch => .turn switch

/-- What one argument says. -/
inductive Reading
  | asks (request : Request)
  | letters (letters : List Char)
  /-- The next argument is the value of the setting. -/
  | names (setting : Setting)
  /-- All further arguments are paths. -/
  | ends
  deriving DecidableEq, Repr

/-- Reads an argument that is not the value of the one before it. -/
def readArgument (usage : Usage) (argument : String) : Reading :=
  if argument = "--" then .ends
  else
    match wordOf? argument, lettersOf? argument with
    | none, none => .asks (.path argument)
    | none, some letters => .letters letters
    | some (word, value?), _ =>
        match usage.switches.find? (·.word? = some word), usage.settings.find? (·.word = word) with
        | some switch, _ =>
            if value?.isSome then .asks (.refused .unexpectedValue) else .asks (.turn switch)
        | none, some setting =>
            match value? with
            | some value => .asks (.set setting value)
            | none => .names setting
        | none, none => .asks (.refused .unknownArgument)

/-- What arguments ask for, the first of which may be the value of a setting. -/
def requestsAfter (usage : Usage) : Option Setting → List String → List Request
  | none, [] => []
  | some _, [] => [.refused .emptyValue]
  | some setting, argument :: rest =>
      if isValue argument then .set setting argument :: requestsAfter usage none rest
      else [.refused .emptyValue]
  | none, argument :: rest =>
      match readArgument usage argument with
      | .asks request => request :: requestsAfter usage none rest
      | .letters letters => requestsOfLetters usage letters ++ requestsAfter usage none rest
      | .names setting => requestsAfter usage (some setting) rest
      | .ends => rest.map .path

def requests (usage : Usage) (arguments : List String) : List Request :=
  requestsAfter usage none arguments

end LoxSyntax.Command
