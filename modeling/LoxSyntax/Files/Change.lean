import LoxSyntax.Files.Lookup

/-!
Changing a file system. A folder is made with all folders above it; a file is first written under a
fresh name and then moved to its place in one step, so that the place never holds half of it.
-/

namespace LoxSyntax.Files

open Source

namespace FileSystem

def makeFolder (refused : Refusals) (files : FileSystem) (path : Path) :
    Except Cause FileSystem :=
  match files.place path with
  | .error cause => .error cause
  | .ok none => .error .exists_
  | .ok (some address) =>
      match files.entry? address with
      | some _ => .error .exists_
      | none =>
          match refused (.makeFolder address) with
          | some cause => .error cause
          | none => .ok (files.put address .folder)

/-- Makes a folder, unless it is there. -/
def tryFolder (refused : Refusals) (files : FileSystem) (path : Path) :
    Except Cause Unit × FileSystem :=
  match files.makeFolder refused path with
  | .ok files => (.ok (), files)
  | .error cause => (if files.isFolder path then .ok () else .error cause, files)

/-- Makes the first folder of a list, each of which is in the one after it. What was made before a
failure stays. -/
def makeFolders (refused : Refusals) (files : FileSystem) :
    List Path → Except Cause Unit × FileSystem
  | [] => (.ok (), files)
  | path :: above =>
      match files.makeFolder refused path with
      | .error .notFound =>
          match makeFolders refused files above with
          | (.error cause, files) => (.error cause, files)
          | (.ok (), files) => files.tryFolder refused path
      | _ => files.tryFolder refused path

/-- Sees to it that a path leads to a folder. The empty path stands for the working folder. -/
def ensureFolder (refused : Refusals) (files : FileSystem) (path : Path) :
    Except Cause Unit × FileSystem :=
  if files.isFolder path || path.text = "" then (.ok (), files)
  else files.makeFolders refused (path :: path.parents)

/-- The address of a folder to make files in. The empty path stands for the working folder. -/
def folderAddress (files : FileSystem) (folder : Path) : Except Cause Address :=
  if folder.text = "" then .ok files.workingFolder else files.resolve folder

/-- Moves a file to where a path leads, in place of a file there. -/
def moveFile (refused : Refusals) (files : FileSystem) (source : Address) (content : List UInt8)
    (target : Path) : Except Cause FileSystem :=
  match files.place target with
  | .error cause => .error cause
  | .ok none => .error .isFolder
  | .ok (some address) =>
      match files.entry? address with
      | some .folder => .error .isFolder
      | _ =>
          match refused (.move address) with
          | some cause => .error cause
          | none => .ok ((files.erase source).put address (.file content))

/-- Writes a file by way of a fresh one in a folder, which is gone whatever happens. A failure comes
with the path that it is about. -/
def writeThrough (refused : Refusals) (files : FileSystem) (folder target : Path)
    (content : List UInt8) : Except (Path × Cause) Unit × FileSystem :=
  match files.folderAddress folder with
  | .error cause => (.error (folder, cause), files)
  | .ok address =>
      match refused (.create address) with
      | some cause => (.error (folder, cause), files)
      | none =>
          let fresh := address ++ [files.freshName]
          let created := files.put fresh (.file [])
          match refused (.write address) with
          | some cause => (.error (folder.join ⟨files.freshName⟩, cause), created.erase fresh)
          | none =>
              let written := created.put fresh (.file content)
              match written.moveFile refused fresh content target with
              | .error cause => (.error (target, cause), written.erase fresh)
              | .ok files => (.ok (), files)

end FileSystem

end LoxSyntax.Files
