import LoxSyntax.Text.Visible

/-!
Escapes. A character that a line cannot show is written as a backslash and a letter, or by its
code point in lower-case hexadecimal; the backslash and the chosen quotes are written after a
backslash.
-/

namespace LoxSyntax.Text

def codePointEscape (c : Char) : List Char :=
  ['\\', 'u', '\x7b'] ++ Nat.toDigits 16 c.toNat ++ ['\x7d']

/-- The character as a text between the given quotes shows it. -/
def escapeChar (quotes : List Char) (c : Char) : List Char :=
  if c = '\x00' then ['\\', '0']
  else if c = '\t' then ['\\', 't']
  else if c = '\r' then ['\\', 'r']
  else if c = '\n' then ['\\', 'n']
  else if c = '\\' || quotes.contains c then ['\\', c]
  else if isVisible c then [c]
  else codePointEscape c

/-- A lone character, in which both kinds of quote are escaped. -/
def shownChar (c : Char) : String :=
  String.ofList (escapeChar ['\'', '"'] c)

/-- The text between double quotes, the given quotes escaped inside. -/
def quotedWith (quotes : List Char) (text : String) : String :=
  String.ofList (['"'] ++ text.toList.flatMap (escapeChar quotes) ++ ['"'])

def quoted (text : String) : String :=
  quotedWith ['"'] text

end LoxSyntax.Text
