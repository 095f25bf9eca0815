import LoxSyntax.Text.Blank

/-!
Paths as texts. A path keeps the spelling it was given; its components leave out repeated and final
slashes, and every `.` but one at the very front.
-/

namespace LoxSyntax.Source

structure Path where
  text : String
  deriving DecidableEq, Repr

inductive Component
  | root
  | here
  | parent
  | name (text : String)
  deriving DecidableEq, Repr

namespace Component

def text : Component → String
  | .root => "/"
  | .here => "."
  | .parent => ".."
  | .name text => text

def ofText? (piece : List Char) : Option Component :=
  match piece with
  | [] => none
  | ['.'] => none
  | ['.', '.'] => some .parent
  | _ => some (.name (String.ofList piece))

end Component

namespace Path

def isAbsolute (path : Path) : Bool :=
  path.text.toList.head? == some '/'

def components (path : Path) : List Component :=
  let pieces := path.text.toList.splitOn '/'
  let first : List Component :=
    if path.isAbsolute then [.root] else if pieces.head? = some ['.'] then [.here] else []
  first ++ pieces.filterMap Component.ofText?

/-- The path with these steps, one slash between each two. -/
def ofSteps : List Component → Path
  | .root :: steps => ⟨"/" ++ String.intercalate "/" (steps.map Component.text)⟩
  | steps => ⟨String.intercalate "/" (steps.map Component.text)⟩

/-- The paths made of the first steps of a path, the longest in front, without the path itself. -/
def parents (path : Path) : List Path :=
  let steps := path.components
  ((List.range steps.length).drop 1).reverse.map fun n => ofSteps (steps.take n)

/-- A path as seen from a folder: an absolute one replaces it. -/
def join (folder path : Path) : Path :=
  if path.isAbsolute then path
  else if folder.text = "" || folder.text.toList.getLast? == some '/' then
    ⟨folder.text ++ path.text⟩
  else ⟨folder.text ++ "/" ++ path.text⟩

/-- The steps that lead from one absolute path to another. -/
def stepsBetween : List Component → List Component → List Component
  | target, [] => target
  | [], base => base.map fun _ => .parent
  | t :: target, b :: base =>
      if t = b then stepsBetween target base
      else (b :: base).map (fun _ => .parent) ++ t :: target

/-- An absolute path as seen from a folder that is an absolute path; none for a relative one. -/
def relativeTo? (path folder : Path) : Option Path :=
  if path.isAbsolute then some (ofSteps (stepsBetween path.components folder.components))
  else none

end Path

end LoxSyntax.Source
