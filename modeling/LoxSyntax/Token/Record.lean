import LoxSyntax.Json.Compact
import LoxSyntax.Text.Escape
import LoxSyntax.Token.Basic

/-!
Two full records of a token stream: a dump for people, which shows the text of every span, and a
JSON value, in which every span carries its whole source file.
-/

namespace LoxSyntax

open Text

namespace Source

/-- The dump of a path, in which single quotes are escaped too. -/
def Path.dump (path : Path) : String :=
  quotedWith ['"', '\''] path.text

def ByteRange.dump (range : ByteRange) : String :=
  toString range.start ++ ".." ++ toString range.stop

/-- The dump of a file, which leaves its content out. -/
def File.dump (file : File) : String :=
  String.join
    ["SourceFile \x7b path: ", file.path.dump, ", lines: [",
      String.intercalate ", " (file.lineTable.map ByteRange.dump), "] \x7d"]

def Span.dump (span : Span) : String :=
  String.join
    ["Span \x7b start: ", toString span.start, ", end: ", toString span.stop, ", content: ",
      quoted span.text, " \x7d"]

def File.toJson (file : File) : Json :=
  .record [
    ("path", .text file.path.text),
    ("content", .text file.content),
    ("lines", .list (file.lineTable.map fun range =>
      .record [("start", .integer range.start), ("end", .integer range.stop)]))]

def Span.toJson (span : Span) : Json :=
  .record [
    ("start", .integer span.start),
    ("end", .integer span.stop),
    ("source_file", span.file.toJson)]

end Source

namespace Token

def Kind.dump : Kind → String
  | .keyword k => "Keyword(" ++ k.name ++ ")"
  | kind => kind.name

def Literal.dump : Literal → String
  | .number value => "Number(" ++ Number.Layout.dump.write value ++ ")"
  | .text content => "Text(" ++ quoted content ++ ")"

def dumpOption (value : Option String) : String :=
  match value with
  | none => "None"
  | some text => "Some(" ++ text ++ ")"

def dump (token : Token) : String :=
  String.join
    ["Token \x7b kind: ", token.kind.dump, ", span: ", token.span.dump, ", literal: ",
      dumpOption (token.literal.map Literal.dump), ", line: ", toString token.line, " \x7d"]

def Stream.dump (stream : Stream) : String :=
  "[" ++ String.intercalate ", " (stream.toList.map Token.dump) ++ "]"

def Kind.toJson : Kind → Json
  | .keyword k => .record [("Keyword", .text k.name)]
  | kind => .text kind.name

def Literal.toJson : Literal → Json
  | .number value => .record [("Number", .decimal (Number.Layout.json.write value))]
  | .text content => .record [("Text", .text content)]

def toJson (token : Token) : Json :=
  .record [
    ("kind", token.kind.toJson),
    ("span", token.span.toJson),
    ("literal", (token.literal.map Literal.toJson).getD .null),
    ("line", .integer token.line)]

def Stream.toJson (stream : Stream) : Json :=
  .record [("tokens", .list (stream.toList.map Token.toJson))]

/-- The same tokens in another file object, as when a record is read back. -/
def Stream.relocate (stream : Stream) (identity : Nat) : Stream :=
  let move (token : Token) : Token :=
    { token with span := { token.span with file := { token.span.file with identity } } }
  ⟨stream.body.map move, move stream.eof⟩

end Token

end LoxSyntax
