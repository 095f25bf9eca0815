import LoxSyntax.Command.Outcome
import LoxSyntax.Files.Generate

/-!
The program that generates code from a grammar file. It prints the path that it wrote.
-/

namespace LoxSyntax.Command.Generate

open Files Schema Source

def usage : Usage :=
  ⟨[.verbose, .quiet, .help, .version], [.baseName, .addImport, .mapType], 2, 2⟩

def summary : String :=
  "Generates a syntax tree node hierarchy from a grammar description"

/-- The configuration that settings ask for. Imports replace the standard ones; mapped types are
added to them. -/
def configOf (settings : Settings) : Config where
  baseName := settings.baseName.getD Config.standard.baseName
  imports := if settings.imports.isEmpty then Config.standard.imports else settings.imports
  typeMap := Config.standard.typeMap.insertAll settings.typeMappings
  derives := Config.standard.derives

def outcomeOf : Except Failure Path × FileSystem → Outcome
  | (.error failure, files) =>
      ⟨failureStatus, "", failureLine (failure.message (displayIn files)), files⟩
  | (.ok target, files) => ⟨0, target.text ++ "\n", "", files⟩

/-- Generates code from one file into a folder. -/
def generate (refused : Refusals) (files : FileSystem) (grammar folder : Path)
    (config : Config) : Outcome :=
  outcomeOf (files.generateUnder refused grammar folder config)

/-- Runs where some steps may be refused. -/
def runUnder (refused : Refusals) (files : FileSystem) (arguments : List String) : Outcome :=
  match Settings.read usage arguments with
  | .error stop => stop.outcome summary files
  | .ok settings =>
      match settings.paths with
      | grammar :: folder :: _ => generate refused files ⟨grammar⟩ ⟨folder⟩ (configOf settings)
      | _ => (Stop.misuse .missingArgument).outcome summary files

def run (files : FileSystem) (arguments : List String) : Outcome :=
  runUnder .none files arguments

end LoxSyntax.Command.Generate
