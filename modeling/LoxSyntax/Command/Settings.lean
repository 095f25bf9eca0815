import LoxSyntax.Command.Arguments
import LoxSyntax.Text.Blank

/-!
What a command line sets. Requests are taken in order, so a call for help before a fault is
answered and one behind it is not; what concerns all arguments together is checked at the end.
-/

namespace LoxSyntax.Command

inductive Stop
  | help
  | version
  | misuse (error : UsageError)
  deriving DecidableEq, Repr

structure Settings where
  verbose : Nat
  quiet : Nat
  baseName : Option String
  imports : List String
  typeMappings : List (String × String)
  paths : List String
  deriving DecidableEq, Repr

namespace Settings

def unset : Settings :=
  ⟨0, 0, none, [], [], []⟩

def mostVerbose : Nat := 3

def mostQuiet : Nat := 2

/-- The two sides of a mapping's equals sign, without blanks around them; neither may be empty. -/
def typeMapping? (text : String) : Option (String × String) :=
  match Text.splitAt? (· == '=') text.toList with
  | none => none
  | some (source, target) =>
      if Text.trim source = [] ∨ Text.trim target = [] then none
      else some (String.ofList (Text.trim source), String.ofList (Text.trim target))

/-- Turns a switch on once more. -/
def turn (settings : Settings) : Switch → Except Stop Settings
  | .verbose =>
      if settings.verbose < mostVerbose then
        .ok { settings with verbose := settings.verbose + 1 }
      else .error (.misuse .invalidValue)
  | .quiet =>
      if settings.quiet < mostQuiet then .ok { settings with quiet := settings.quiet + 1 }
      else .error (.misuse .invalidValue)
  | .help => .error .help
  | .version => .error .version

def set (settings : Settings) (value : String) : Setting → Except Stop Settings
  | .baseName =>
      match settings.baseName with
      | none => .ok { settings with baseName := some value }
      | some _ => .error (.misuse .conflict)
  | .addImport => .ok { settings with imports := settings.imports ++ [value] }
  | .mapType =>
      match typeMapping? value with
      | none => .error (.misuse .invalidValue)
      | some mapping =>
          .ok { settings with typeMappings := settings.typeMappings ++ [mapping] }

def take (usage : Usage) (settings : Settings) : Request → Except Stop Settings
  | .turn switch => settings.turn switch
  | .set setting value => settings.set value setting
  | .path text =>
      if usage.mostPaths ≤ settings.paths.length then .error (.misuse .unknownArgument)
      else if text = "" then .error (.misuse .emptyValue)
      else .ok { settings with paths := settings.paths ++ [text] }
  | .refused error => .error (.misuse error)

def takeAll (usage : Usage) (settings : Settings) : List Request → Except Stop Settings
  | [] => .ok settings
  | request :: rest =>
      match settings.take usage request with
      | .error stop => .error stop
      | .ok settings => takeAll usage settings rest

def read (usage : Usage) (arguments : List String) : Except Stop Settings :=
  match takeAll usage unset (requests usage arguments) with
  | .error stop => .error stop
  | .ok settings =>
      if 0 < settings.verbose ∧ 0 < settings.quiet then .error (.misuse .conflict)
      else if settings.paths.length < usage.leastPaths then .error (.misuse .missingArgument)
      else .ok settings

end Settings

inductive LogLevel
  | off
  | error
  | warn
  | info
  | debug
  | trace
  deriving DecidableEq, Repr

def LogLevel.name : LogLevel → String
  | .off => "off"
  | .error => "error"
  | .warn => "warn"
  | .info => "info"
  | .debug => "debug"
  | .trace => "trace"

/-- The level that the switches set; without them warnings are logged. -/
def Settings.logLevel (settings : Settings) : LogLevel :=
  match settings.verbose, settings.quiet with
  | 0, 0 => .warn
  | 0, 1 => .error
  | 0, _ => .off
  | 1, _ => .info
  | 2, _ => .debug
  | _, _ => .trace

/-- The arguments by which the level alone is set. -/
def logUsage : Usage :=
  ⟨[.verbose, .quiet, .help], [], 0, 0⟩

end LoxSyntax.Command
