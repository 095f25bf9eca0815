import LoxSyntax.Source.Path
import LoxSyntax.Source.Search
import LoxSyntax.Text.Lines
import LoxSyntax.Text.Width

/-!
Source files and their line table. The table holds the byte range of every line, its newline
included; a location counts lines and characters from one.
-/

namespace LoxSyntax.Source

open Text

/-- A text to be scanned. Two files with different identities are different, whatever they hold. -/
structure File where
  identity : Nat
  path : Path
  content : String
  deriving DecidableEq, Repr

/-- The bytes from `start` up to but not including `stop`. -/
structure ByteRange where
  start : Nat
  stop : Nat
  deriving DecidableEq, Repr

namespace ByteRange

def contains (range : ByteRange) (offset : Nat) : Bool :=
  range.start ≤ offset && offset < range.stop

/-- How the range stands to an offset: at it, behind it or before it. -/
def place (offset : Nat) (range : ByteRange) : Ordering :=
  if range.contains offset then .eq else if offset < range.start then .gt else .lt

end ByteRange

/-- A line and a column, both counted from one; columns count characters. -/
structure Location where
  line : Nat
  column : Nat
  deriving DecidableEq, Repr

/-- The lines of a text whose first character stands at `offset`, in a line begun at `start`. -/
def lineRanges (start offset : Nat) : List Char → List ByteRange
  | [] => [⟨start, offset⟩]
  | c :: cs =>
      let next := offset + c.utf8Size
      if c = '\n' then ⟨start, next⟩ :: lineRanges next next cs else lineRanges start next cs

namespace File

def chars (file : File) : List Char :=
  file.content.toList

def size (file : File) : Nat :=
  width file.chars

/-- The byte range of every line. There is always a last line, which may be empty. -/
def lineTable (file : File) : List ByteRange :=
  lineRanges 0 0 file.chars

def lineCount (file : File) : Nat :=
  file.lineTable.length

/-- Whether the offset is a character boundary of the file. -/
def isPlace (file : File) (offset : Nat) : Bool :=
  Text.isPlace offset file.chars

/-- The text of a line, counted from one, with its newline. -/
def line? (file : File) (number : Nat) : Option String :=
  if number = 0 then none
  else file.lineTable[number - 1]?.map fun range =>
    String.ofList (slice range.start range.stop file.chars)

/-- Where a character boundary lies; none at the end of the file. -/
def locate? (file : File) (offset : Nat) : Option Location :=
  if file.isPlace offset then do
    let table := file.lineTable.toArray
    let index ← search? (ByteRange.place offset) table 0 table.size
    let range ← file.lineTable[index]?
    let line ← file.line? (index + 1)
    return ⟨index + 1, countWithin (offset - range.start) line.toList + 1⟩
  else none

/-- The path that diagnostics show: an absolute one as seen from the working folder. -/
def shownPath (file : File) (workingFolder : Path) : Path :=
  (file.path.relativeTo? workingFolder).getD file.path

end File

end LoxSyntax.Source
