import LoxSyntax.Files.Change
import LoxSyntax.Files.Read
import LoxSyntax.Schema.Code
import LoxSyntax.Text.Utf8

/-!
Generating code from a grammar file into a folder. Nothing is changed before all of the code is
there, and the target is replaced as a whole or not at all.
-/

namespace LoxSyntax.Files

open Schema Source

def targetIn (folder : Path) (config : Config) : Path :=
  folder.join ⟨config.fileName⟩

def FileSystem.codeFor (refused : Refusals) (files : FileSystem) (grammar : Path)
    (config : Config) : Except Failure String := do
  let source ← files.textUnder refused here grammar
  (generate source config).mapError .grammar

/-- Writes a text to the target in a folder, which is made if it is missing. -/
def FileSystem.writeCode (refused : Refusals) (files : FileSystem) (folder : Path)
    (config : Config) (code : String) : Except Failure Path × FileSystem :=
  match files.ensureFolder refused folder with
  | (.error cause, files) => (.error (.io folder cause), files)
  | (.ok (), files) =>
      let target := targetIn folder config
      match files.writeThrough refused folder target (Text.Utf8.encode code.toList) with
      | (.error (path, cause), files) => (.error (.io path cause), files)
      | (.ok (), files) => (.ok target, files)

/-- Writes the code to its target, unless there is none. -/
def FileSystem.writeResult (refused : Refusals) (files : FileSystem) (folder : Path)
    (config : Config) : Except Failure String → Except Failure Path × FileSystem
  | .error failure => (.error failure, files)
  | .ok code => files.writeCode refused folder config code

/-- Generates the code for a grammar file into a folder where some steps may be refused: the path
written, and the files after. -/
def FileSystem.generateUnder (refused : Refusals) (files : FileSystem) (grammar folder : Path)
    (config : Config) : Except Failure Path × FileSystem :=
  files.writeResult refused folder config (files.codeFor refused grammar config)

/-- Generates the code for a grammar file into a folder: the path written, and the files after. -/
def FileSystem.generateInto (files : FileSystem) (grammar folder : Path) (config : Config) :
    Except Failure Path × FileSystem :=
  files.generateUnder .none grammar folder config

end LoxSyntax.Files
