/-!
Terminal styles. A styled text stands between the sequence that turns the style on and the one that
resets all styles; a reset inside the text turns the style on again, so the style reaches the end.
-/

namespace LoxSyntax.Text

/-- The styles of a diagnostic, each by its parameters of the sequence that turns it on. -/
inductive Style
  | bold
  | boldRed
  | boldCyan
  deriving DecidableEq, Repr

namespace Style

def parameters : Style → String
  | bold => "1"
  | boldRed => "1;31"
  | boldCyan => "1;36"

def opening (style : Style) : List Char :=
  ['\x1b', '['] ++ style.parameters.toList ++ ['m']

def reset : List Char :=
  ['\x1b', '[', '0', 'm']

/-- The text with the style turned on again after every reset. -/
def reopen (style : Style) : List Char → List Char
  | '\x1b' :: '[' :: '0' :: 'm' :: cs => reset ++ style.opening ++ reopen style cs
  | c :: cs => c :: reopen style cs
  | [] => []

/-- The text in the style, or as it is when colours are off. -/
def paint (style : Style) (colored : Bool) (text : String) : String :=
  if colored then
    String.ofList (style.opening ++ style.reopen text.toList ++ reset)
  else text

@[simp] theorem paint_false (style : Style) (text : String) : style.paint false text = text := rfl

end Style

end LoxSyntax.Text
