import LoxSyntax.Source.Span
import LoxSyntax.Text.Blank
import LoxSyntax.Text.Style

/-!
What diagnostics show of a source file: a headline with its message, and the line on which a span
begins, with path, line and column. A span at the very end of a file is shown at its last character.
-/

namespace LoxSyntax.Source

open Text

structure Display where
  colored : Bool
  /-- The folder from which absolute paths are seen. -/
  workingFolder : Path

def headline (display : Display) (message : String) : String :=
  Style.boldRed.paint display.colored "[error]:" ++ " " ++ Style.bold.paint display.colored message

namespace Span

/-- Where a diagnostic points: at the start of the span or, at the very end, one byte before it. -/
def shownLocation? (span : Span) : Option Location :=
  span.location? <|> span.file.locate? (span.start - 1)

/-- The line on which the span begins, and the help below it. -/
def excerpt (span : Span) (display : Display) (help : Option String) : String :=
  let path := (span.file.shownPath display.workingFolder).text
  let arrow := " " ++ Style.boldCyan.paint display.colored "-->" ++ " " ++ path
  let place :=
    match span.shownLocation? with
    | none => arrow
    | some location =>
        let line :=
          match span.file.line? location.line with
          | none => ""
          | some line =>
              " " ++ Style.boldCyan.paint display.colored (toString location.line ++ " |") ++ " " ++
                String.ofList (trimEnd line.toList)
        arrow ++ ":" ++ toString location.line ++ ":" ++ toString location.column ++ "\n" ++ line
  match help with
  | none => place
  | some help => place ++ "\n\n" ++ help

end Span

end LoxSyntax.Source
