/-!
Snake case. An underscore marks where a word begins inside a name written in camel case: at a
capital after a lower-case letter or a digit, and at the last capital of a run when a lower-case
letter follows. Letters outside ASCII are left alone.
-/

namespace LoxSyntax.Text

/-- Whether a word begins at the character, by its two neighbours. -/
def beginsWord (before : Option Char) (c : Char) (after : Option Char) : Bool :=
  c.isUpper &&
    match before with
    | none => false
    | some b => b.isLower || b.isDigit || (b.isUpper && after.any Char.isLower)

/-- Goes on in snake case behind what is written, which is given from its end. No underscore is
written behind another. -/
def writeSnake (written : List Char) (before : Option Char) : List Char → List Char
  | [] => written.reverse
  | c :: cs =>
      if c.isUpper then
        if beginsWord before c cs.head? && written.head? != some '_' then
          writeSnake (c.toLower :: '_' :: written) (some c) cs
        else writeSnake (c.toLower :: written) (some c) cs
      else writeSnake (c :: written) (some c) cs

/-- A name without capitals is in snake case already. -/
def snake (name : String) : String :=
  if name.toList.any Char.isUpper then String.ofList (writeSnake [] none name.toList) else name

end LoxSyntax.Text
