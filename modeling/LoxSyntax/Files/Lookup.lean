import LoxSyntax.Files.FileSystem
import LoxSyntax.Source.Path
import LoxSyntax.Text.Width

/-!
Following paths through a file system. Each step of a path is taken from a folder; the first step
that cannot be taken decides the cause of failure.
-/

namespace LoxSyntax.Files

open Source

inductive Cause
  | notFound
  | exists_
  | notFolder
  | isFolder
  | nameTooLong
  /-- The path holds a character that no name can hold. -/
  | nulByte
  | denied
  | noSpace
  deriving DecidableEq, Repr

def Cause.message : Cause → String
  | .notFound => "No such file or directory (os error 2)"
  | .exists_ => "File exists (os error 17)"
  | .notFolder => "Not a directory (os error 20)"
  | .isFolder => "Is a directory (os error 21)"
  | .nameTooLong => "File name too long (os error 36)"
  | .nulByte => "file name contained an unexpected NUL byte"
  | .denied => "Permission denied (os error 13)"
  | .noSpace => "No space left on device (os error 28)"

/-- The steps that may be refused for a reason which the file system itself does not show, such as
want of rights or of space, each with the address that it is about. -/
inductive Step
  | read (address : Address)
  | makeFolder (address : Address)
  /-- Making a fresh file in a folder. -/
  | create (folder : Address)
  /-- Writing the content of a fresh file in a folder. -/
  | write (folder : Address)
  | move (target : Address)
  deriving DecidableEq, Repr

/-- What is refused, and why. -/
abbrev Refusals := Step → Option Cause

def Refusals.none : Refusals :=
  fun _ => Option.none

def maxName : Nat := 255

/-- Paths of this many bytes or more are refused. -/
def maxPath : Nat := 4096

def pieces (path : Path) : List String :=
  (path.text.toList.splitOn '/').map String.ofList

/-- What is wrong with a path before any step is taken. -/
def pathFault? (path : Path) : Option Cause :=
  if path.text.toList.contains '\x00' then some .nulByte
  else if path.text = "" then some .notFound
  else if maxPath ≤ Text.width path.text.toList then some .nameTooLong
  else none

namespace FileSystem

def startOf (files : FileSystem) (path : Path) : Address :=
  if path.isAbsolute then [] else files.workingFolder

/-- Follows pieces of a path from an address. -/
def walk (files : FileSystem) (here : Address) : List String → Except Cause Address
  | [] => .ok here
  | piece :: rest =>
      if files.entry? here ≠ some .folder then .error .notFolder
      else if piece = "" ∨ piece = "." then walk files here rest
      else if piece = ".." then walk files here.dropLast rest
      else if maxName < Text.width piece.toList then .error .nameTooLong
      else
        match files.entry? (here ++ [piece]) with
        | none => .error .notFound
        | some _ => walk files (here ++ [piece]) rest

def resolve (files : FileSystem) (path : Path) : Except Cause Address :=
  match pathFault? path with
  | some cause => .error cause
  | none => walk files (files.startOf path) (pieces path)

/-- The address that a path names in a folder that is there, or none if its last step is no
name. -/
def place (files : FileSystem) (path : Path) : Except Cause (Option Address) :=
  match pathFault? path with
  | some cause => .error cause
  | none =>
      match ((pieces path).reverse.dropWhile (· = "")) with
      | [] => .ok none
      | last :: before =>
          match walk files (files.startOf path) before.reverse with
          | .error cause => .error cause
          | .ok folder =>
              if files.entry? folder ≠ some .folder then .error .notFolder
              else if last = "." ∨ last = ".." then .ok none
              else if maxName < Text.width last.toList then .error .nameTooLong
              else .ok (some (folder ++ [last]))

def readBytes (refused : Refusals) (files : FileSystem) (path : Path) :
    Except Cause (List UInt8) :=
  match files.resolve path with
  | .error cause => .error cause
  | .ok address =>
      match refused (.read address) with
      | some cause => .error cause
      | none =>
          match files.entry? address with
          | some (.file content) => .ok content
          | some .folder => .error .isFolder
          | none => .error .notFound

def isFolder (files : FileSystem) (path : Path) : Bool :=
  match files.resolve path with
  | .error _ => false
  | .ok address => files.entry? address = some .folder

end FileSystem

end LoxSyntax.Files
