import LoxSyntax.Command.Generate
import LoxSyntax.Command.Lox

/-!
The programs as they are run. What a program may look at is read before it starts, and what it
changed is written after it ends; the prompt alone reads and answers line by line. A program called
`generate_ast` generates code, and any other one scans.
-/

namespace LoxSyntax.Main

open Command Files Source

/-- The names of a path that lead from the root, with steps to a parent taken. -/
def addressOf (start : Address) (path : Path) : Address :=
  let start := if path.isAbsolute then [] else start
  (pieces path).foldl
    (fun here piece =>
      if piece = "" ∨ piece = "." then here
      else if piece = ".." then here.dropLast
      else here ++ [piece])
    start

def textOf (address : Address) : String :=
  "/" ++ String.intercalate "/" address

def probe (address : Address) : IO (Option Entry) := do
  try
    let real ← IO.FS.realPath (textOf address)
    if ← real.isDir then return some .folder
    return some (.file (← IO.FS.readBinFile (textOf address)).toList)
  catch _ => return none

/-- The working folder with all that paths lead through. -/
def snapshot (paths : List Path) : IO FileSystem := do
  let working := addressOf [] ⟨(← IO.currentDir).toString⟩
  let start := (⟨[], working⟩ : FileSystem).install working .folder
  let places := paths.flatMap fun path => (path :: path.parents).map (addressOf working)
  places.foldlM
    (fun files address => do
      match ← probe address with
      | some entry => return files.install address entry
      | none => return files)
    start

/-- Makes the folders and files that are new or have changed. -/
def writeBack (before after : FileSystem) : IO Unit := do
  for (address, entry) in after.entries do
    if before.entry? address ≠ some entry then
      match entry with
      | .folder => IO.FS.createDirAll (textOf address)
      | .file content =>
          let fresh := textOf (address.dropLast ++ [".tmp-" ++ address.getLast?.getD ""])
          IO.FS.writeBinFile fresh ⟨content.toArray⟩
          IO.FS.rename fresh (textOf address)

def finish (outcome : Outcome) : IO UInt32 := do
  (← IO.getStdout).putStr outcome.stdout
  (← IO.getStderr).putStr outcome.stderr
  return outcome.status.toUInt32

/-- Reads one line, with its end, or nothing at the end of the input. -/
partial def readLine (input : IO.FS.Stream) (line : List UInt8) : IO (List UInt8) := do
  let next ← input.read 1
  match next.toList with
  | [] => return line
  | byte :: _ => if byte = 10 then return line ++ [byte] else readLine input (line ++ [byte])

/-- Prompts for lines until one of them makes it leave. -/
partial def promptLoop (display : Display) (reporter : Token.Reporter) : IO UInt32 := do
  let stdout ← IO.getStdout
  stdout.putStr Lox.promptText
  stdout.flush
  match Lox.byteLines (← readLine (← IO.getStdin) []) with
  | [] => return 0
  | line :: _ =>
      match Lox.reply display reporter line with
      | .leave status stderr =>
          (← IO.getStderr).putStr stderr
          return status.toUInt32
      | .tokens tokens reporter =>
          stdout.putStr tokens
          (← IO.getStderr).putStr reporter.written
          promptLoop display { reporter with written := "" }

def runLox (arguments : List String) : IO UInt32 := do
  match Settings.read Lox.usage arguments with
  | .error _ => finish (Lox.run (← snapshot []) arguments [])
  | .ok settings =>
      match settings.paths with
      | [] => promptLoop (displayIn (← snapshot [])) .fresh
      | paths => finish (Lox.run (← snapshot (paths.map fun path => ⟨path⟩)) arguments [])

def runGenerate (arguments : List String) : IO UInt32 := do
  let paths : List Path :=
    match Settings.read Generate.usage arguments with
    | .error _ => []
    | .ok settings =>
        match settings.paths with
        | [grammar, folder] =>
            [⟨grammar⟩, ⟨folder⟩, targetIn ⟨folder⟩ (Generate.configOf settings)]
        | _ => []
  let before ← snapshot paths
  let outcome := Generate.run before arguments
  writeBack before outcome.files
  finish outcome

end LoxSyntax.Main

def main (arguments : List String) : IO UInt32 := do
  match (← IO.appPath).fileName with
  | some "generate_ast" => LoxSyntax.Main.runGenerate arguments
  | _ => LoxSyntax.Main.runLox arguments
