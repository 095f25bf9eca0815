import LoxSyntax.Command.Settings
import LoxSyntax.Failure

/-!
What a program leaves behind: its exit status and what it wrote.
-/

namespace LoxSyntax.Command

open Files Source

structure Outcome where
  status : Nat
  stdout : String
  stderr : String
  files : FileSystem

def failureStatus : Nat := 1

def usageStatus : Nat := 64

def dataStatus : Nat := 65

def versionLine : String :=
  "lox-frontend 0.1.0\n"

/-- The end of a program that does not do its work. -/
def Stop.outcome (summary : String) (files : FileSystem) : Stop → Outcome
  | .help => ⟨0, summary ++ "\n", "", files⟩
  | .version => ⟨0, versionLine, "", files⟩
  | .misuse error => ⟨usageStatus, "", "error: " ++ error.message ++ "\n", files⟩

def failureLine (message : String) : String :=
  "Error: " ++ message ++ "\n"

/-- How diagnostics look in a program's output. -/
def displayIn (files : FileSystem) : Display :=
  ⟨false, ⟨"/" ++ String.intercalate "/" files.workingFolder⟩⟩

end LoxSyntax.Command
