import LoxSyntax.Text.IdentifierChar

/-!
The spelling of literals. Each reader takes a text and returns what follows the literal at its
front. A literal ends with an optional suffix, which is an identifier written right after it.
-/

namespace LoxSyntax.Target

open Text

/-- What may stand between the quotes of one sort of string. -/
structure Flavour where
  unicode : Bool
  /-- Escapes of code points in braces. -/
  codePoints : Bool
  /-- Escapes of bytes above 7f. -/
  highBytes : Bool
  /-- The character with code zero, in any spelling. -/
  zero : Bool

namespace Flavour

def text : Flavour := ⟨true, true, false, true⟩
def bytes : Flavour := ⟨false, false, true, true⟩
def terminated : Flavour := ⟨true, true, true, false⟩

def allows (flavour : Flavour) (c : Char) : Bool :=
  (flavour.unicode || c.toNat < 0x80) && (flavour.zero || c != '\x00')

end Flavour

def hexValue? (c : Char) : Option Nat :=
  if c.isDigit then some (c.toNat - '0'.toNat)
  else if 'a' ≤ c ∧ c ≤ 'f' then some (c.toNat - 'a'.toNat + 10)
  else if 'A' ≤ c ∧ c ≤ 'F' then some (c.toNat - 'A'.toNat + 10)
  else none

def isCodePoint (n : Nat) : Bool :=
  n < 0xd800 || (0xe000 ≤ n && n < 0x110000)

/-- Up to six hexadecimal digits and the brace that closes them; underscores may follow the first
digit. -/
def readCodePoint (value digits : Nat) : List Char → Option (Nat × List Char)
  | [] => none
  | '\x7d' :: cs => if 0 < digits && isCodePoint value then some (value, cs) else none
  | '_' :: cs => if 0 < digits then readCodePoint value digits cs else none
  | c :: cs =>
      match hexValue? c with
      | some d => if digits < 6 then readCodePoint (value * 16 + d) (digits + 1) cs else none
      | none => none

/-- The two hexadecimal digits of a byte. -/
def readByte (flavour : Flavour) : List Char → Option (List Char)
  | a :: b :: cs =>
      match hexValue? a, hexValue? b with
      | some high, some low =>
          if (flavour.highBytes || high < 8) && (flavour.zero || 0 < high + low) then some cs
          else none
      | _, _ => none
  | _ => none

/-- A code point in braces. -/
def readBraced (flavour : Flavour) : List Char → Option (List Char)
  | '\x7b' :: cs =>
      match readCodePoint 0 0 cs with
      | some (value, rest) => if flavour.zero || 0 < value then some rest else none
      | none => none
  | _ => none

/-- The characters that end an escape of their own. -/
def plainEscapes : List Char :=
  ['n', 'r', 't', '\\', '\'', '"']

/-- The rest of an escape after its backslash. -/
def readEscape (flavour : Flavour) : List Char → Option (List Char)
  | [] => none
  | c :: cs =>
      if c = 'x' then readByte flavour cs
      else if c = 'u' then if flavour.codePoints then readBraced flavour cs else none
      else if c = '0' then if flavour.zero then some cs else none
      else if plainEscapes.contains c then some cs
      else none

/-- The blanks that a backslash at the end of a line joins, up to a character of the string. -/
def readContinuation : List Char → Option (List Char)
  | [] => none
  | '\r' :: '\n' :: cs => readContinuation cs
  | '\r' :: _ => none
  | c :: cs => if c = '\n' || c = ' ' || c = '\t' then readContinuation cs else some (c :: cs)

/-- An identifier written right after a literal. -/
def dropSuffix (cs : List Char) : List Char :=
  if cs.head?.any isIdentifierStart then cs.dropWhile isIdentifierChar else cs

/-- The rest of a string after its opening quote; the first argument bounds the steps. -/
def readQuoted (flavour : Flavour) : Nat → List Char → Option (List Char)
  | 0, _ => none
  | steps + 1, cs =>
      match cs with
      | [] => none
      | '"' :: cs => some (dropSuffix cs)
      | '\r' :: '\n' :: cs => readQuoted flavour steps cs
      | '\r' :: _ => none
      | '\\' :: '\n' :: cs => (readContinuation ('\n' :: cs)).bind (readQuoted flavour steps)
      | '\\' :: '\r' :: cs => (readContinuation ('\r' :: cs)).bind (readQuoted flavour steps)
      | '\\' :: cs => (readEscape flavour cs).bind (readQuoted flavour steps)
      | c :: cs => if flavour.allows c then readQuoted flavour steps cs else none

def readRawBody (flavour : Flavour) (hashes : Nat) : List Char → Option (List Char)
  | [] => none
  | '"' :: cs =>
      if (List.replicate hashes '#').isPrefixOf cs then some (dropSuffix (cs.drop hashes))
      else readRawBody flavour hashes cs
  | '\r' :: '\n' :: cs => readRawBody flavour hashes cs
  | '\r' :: _ => none
  | c :: cs => if flavour.allows c then readRawBody flavour hashes cs else none

/-- A raw string, after the letters before its hashes; at most 255 hashes are allowed. -/
def readRaw (flavour : Flavour) (cs : List Char) : Option (List Char) :=
  let hashes := (cs.takeWhile (· == '#')).length
  match cs.drop hashes with
  | '"' :: rest => if hashes ≤ 255 then readRawBody flavour hashes rest else none
  | _ => none

/-- One character between single quotes, plain or as an escape. -/
def readCharacter (flavour : Flavour) : List Char → Option (List Char)
  | [] => none
  | '\\' :: cs => readEscape flavour cs
  | c :: cs => if flavour.unicode || c.toNat < 0x80 then some cs else none

def readQuotedChar (flavour : Flavour) (cs : List Char) : Option (List Char) :=
  match readCharacter flavour cs with
  | some ('\'' :: rest) => some (dropSuffix rest)
  | _ => none

/-- Whether a number may end here: no identifier goes on. -/
def wordBreak (cs : List Char) : Option (List Char) :=
  if cs.head?.any isIdentifierChar then none else some cs

/-- Digits and underscores, up to a point or an exponent: whether a point was read, and the rest. -/
def readFloatDigits (point : Bool) : List Char → Option (Bool × List Char)
  | [] => some (point, [])
  | '.' :: cs =>
      if point then some (true, '.' :: cs)
      else
        match cs with
        | [] => some (true, [])
        | c :: rest =>
            if c = '.' || isIdentifierStart c then none else readFloatDigits true (c :: rest)
  | c :: cs => if c.isDigit || c = '_' then readFloatDigits point cs else some (point, c :: cs)

/-- The digits of an exponent: whether there was one, and the rest. A sign may stand only before
the first digit. -/
def readExponentDigits (sign digit : Bool) : List Char → Option (Bool × List Char)
  | [] => some (digit, [])
  | c :: cs =>
      if c = '+' || c = '-' then
        if digit then some (digit, c :: cs)
        else if sign then none
        else readExponentDigits true digit cs
      else if c.isDigit then readExponentDigits sign true cs
      else if c = '_' then readExponentDigits sign digit cs
      else some (digit, c :: cs)

/-- What follows an exponent, which may be left out where a point was read. -/
def readExponent (point : Bool) : List Char → Option (List Char)
  | [] => if point then some [] else none
  | c :: cs =>
      let without := if point then some (c :: cs) else none
      if c = 'e' || c = 'E' then
        match readExponentDigits false false cs with
        | some (true, rest) => some rest
        | _ => without
      else without

/-- What follows a number, with its suffix read as well. -/
def endNumber (cs : List Char) : Option (List Char) :=
  wordBreak (dropSuffix cs)

def readFloat (cs : List Char) : Option (List Char) :=
  if cs.head?.any Char.isDigit then
    match readFloatDigits false cs with
    | none => none
    | some (point, rest) => (readExponent point rest).bind endNumber
  else none

/-- The digits of a whole number in a base: whether there was one, and the rest. -/
def readDigits (base : Nat) (digit : Bool) : List Char → Option (Bool × List Char)
  | [] => some (digit, [])
  | c :: cs =>
      if c = '_' then if !digit && base == 10 then none else readDigits base digit cs
      else
        match hexValue? c with
        | none => some (digit, c :: cs)
        | some d =>
            if d < base then readDigits base true cs
            else if c.isDigit then none
            else some (digit, c :: cs)

/-- The base that the beginning of a whole number tells, and its digits. -/
def baseOf : List Char → Nat × List Char
  | '0' :: 'x' :: cs => (16, cs)
  | '0' :: 'o' :: cs => (8, cs)
  | '0' :: 'b' :: cs => (2, cs)
  | cs => (10, cs)

def readInteger (cs : List Char) : Option (List Char) :=
  match readDigits (baseOf cs).1 false (baseOf cs).2 with
  | some (true, rest) => endNumber rest
  | _ => none

/-- A string, by the letters before its quote. -/
def readString (cs : List Char) : Option (List Char) :=
  match cs with
  | '"' :: rest => readQuoted .text (rest.length + 1) rest
  | 'r' :: rest => readRaw .text rest
  | 'b' :: '"' :: rest => readQuoted .bytes (rest.length + 1) rest
  | 'b' :: 'r' :: rest => readRaw .bytes rest
  | 'c' :: '"' :: rest => readQuoted .terminated (rest.length + 1) rest
  | 'c' :: 'r' :: rest => readRaw .terminated rest
  | 'b' :: '\'' :: rest => readQuotedChar .bytes rest
  | '\'' :: rest => readQuotedChar .text rest
  | _ => none

def readLiteral (cs : List Char) : Option (List Char) :=
  readString cs <|> readFloat cs <|> readInteger cs

end LoxSyntax.Target
