import LoxSyntax.Failure

/-!
Reading source files. Files are looked up from a folder, but a file that was read keeps the path it
was asked for by.
-/

namespace LoxSyntax.Files

open Source Token

/-- The folder that files are looked up from if nothing else is said. -/
def here : Path :=
  ⟨"."⟩

namespace FileSystem

def bytesUnder (refused : Refusals) (files : FileSystem) (folder path : Path) :
    Except Failure (List UInt8) :=
  (files.readBytes refused (folder.join path)).mapError (.io (folder.join path))

def bytesOf (files : FileSystem) (folder path : Path) : Except Failure (List UInt8) :=
  files.bytesUnder .none folder path

def textUnder (refused : Refusals) (files : FileSystem) (folder path : Path) :
    Except Failure String := do
  let bytes ← files.bytesUnder refused folder path
  let cs ← (Text.Utf8.decode bytes).mapError .notUtf8
  return String.ofList cs

def textOf (files : FileSystem) (folder path : Path) : Except Failure String :=
  files.textUnder .none folder path

def loadUnder (refused : Refusals) (files : FileSystem) (folder path : Path) :
    Except Failure File :=
  (files.textUnder refused folder path).map fun content => ⟨0, path, content⟩

def load (files : FileSystem) (folder path : Path) : Except Failure File :=
  files.loadUnder .none folder path

def scanFile (files : FileSystem) (folder path : Path) : Except Failure Scan :=
  (files.load folder path).map scan

end FileSystem

end LoxSyntax.Files
