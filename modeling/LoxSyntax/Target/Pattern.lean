import LoxSyntax.Target.Path

/-!
Patterns: literals and ranges, names, references, and the patterns of structures, tuples and slices.
-/

namespace LoxSyntax.Target

/-- A whole number below `2 ^ 32` without a suffix, as it names a field of a tuple. -/
def isFieldIndex (text : List Char) : Bool :=
  let digits := text.filter (· != '_')
  !digits.isEmpty && digits.all Char.isDigit &&
    digits.foldl (fun n d => 10 * n + (d.toNat - '0'.toNat)) 0 < UInt32.size

/-- The name or number of a field: whether it is a name, and the rest. -/
def fieldName (ts : Trees) : Option (Bool × Trees) :=
  match ts with
  | .literal text :: rest => if isFieldIndex text.toList then some (false, rest) else none
  | ts => (name ts).map (true, ·)

/-- The dots of a range; three dots may stand for those of a closed one in a pattern. Says whether
the range is closed. -/
def rangeDots (threeDots : Bool) (ts : Trees) : Option (Bool × Trees) :=
  match marks "..=" ts, marks "..." ts, marks ".." ts with
  | some rest, _, _ => some (true, rest)
  | none, some rest, _ => if threeDots then some (true, rest) else none
  | none, none, some rest => some (false, rest)
  | none, none, none => none

def patternBound (reader : Reader) (ts : Trees) : Option (Bool × Trees) :=
  if ts.isEmpty || ["|", "=", ",", ";"].any (beginsMarks · ts) || beginsWord "if" ts ||
      (beginsMarks ":" ts && !beginsMarks "::" ts) then
    some (false, ts)
  else if beginsLiteral ts then (literal ts).map (true, ·)
  else if beginsWord "const" ts then (blockWithAttributes reader ts.tail).map (true, ·)
  else if beginsName ts || beginsMarks "::" ts || beginsMarks "<" ts ||
      ["self", "Self", "super", "crate"].any (beginsWord · ts) then
    (readPath reader true ts).map fun (_, rest) => (true, rest)
  else none

/-- The dots and the end of a range in a pattern. A closed range has an end. -/
def restOfRange (reader : Reader) (threeDots : Bool) (ts : Trees) : Option (Bool × Trees) := do
  let (closed, rest) ← rangeDots threeDots ts
  let (hasEnd, rest) ← patternBound reader rest
  guard (hasEnd || !closed)
  return (hasEnd, rest)

def fieldPattern (reader : Reader) (ts : Trees) : Option Trees := do
  let behind := optionalWord "mut" (optionalWord "ref" (optionalWord "box" ts))
  if behind.length < ts.length then name behind
  else
    let (isNamed, rest) ← fieldName ts
    if !isNamed || beginsMarks ":" rest then do
      reader.rest .patterns (← marks ":" rest)
    else return rest

def isFieldPatternList (reader : Reader) : Nat → Trees → Bool
  | 0, _ => false
  | _, [] => true
  | steps + 1, ts =>
      match attributes reader ts with
      | none => false
      | some ts =>
          match marks ".." ts with
          | some rest => rest.isEmpty
          | none =>
              match fieldPattern reader ts with
              | none => false
              | some [] => true
              | some rest =>
                  match marks "," rest with
                  | none => false
                  | some rest => isFieldPatternList reader steps rest

/-- What begins with a path: a macro, a structure, a tuple, a range, or the path alone. -/
def pathPattern (reader : Reader) (ts : Trees) : Option Trees := do
  let (shape, rest) ← readPath reader true ts
  if beginsMarks "!" rest && !beginsMarks "!=" rest && shape.isPlain then
    (anyGroup rest.tail).map Prod.snd
  else
    match rest with
    | .group .brace content :: rest =>
        guard (isFieldPatternList reader (content.length + 1) content)
        return rest
    | .group .parenthesis content :: rest =>
        guard (isCommaList (reader.rest .patterns) content)
        return rest
    | rest =>
        if beginsMarks ".." rest then (restOfRange reader true rest).map Prod.snd
        else return rest

/-- A name, perhaps bound by reference, perhaps with a pattern behind an at sign. -/
def namePattern (reader : Reader) (ts : Trees) : Option Trees := do
  let ts := optionalWord "mut" (optionalWord "ref" ts)
  let rest ← word "self" ts <|> name ts
  match marks "@" rest with
  | some rest => reader.rest .pattern rest
  | none => return rest

def readPattern (reader : Reader) (ts : Trees) : Option Trees :=
  let after := skip ts
  let callsPath := beginsMarks "::" after || beginsMarks "!" after || beginsGroup .brace after ||
    beginsGroup .parenthesis after || beginsMarks ".." after
  if (beginsName ts && callsPath) || (beginsWord "self" ts && beginsMarks "::" after) ||
      beginsMarks "::" ts || beginsMarks "<" ts ||
      ["Self", "super", "crate"].any (beginsWord · ts) then
    pathPattern reader ts
  else if beginsWord "_" ts then some ts.tail
  else if beginsWord "box" ts then reader.rest .pattern ts.tail
  else if beginsMarks "-" ts || beginsLiteral ts || beginsWord "const" ts then do
    let (hasStart, rest) ← patternBound reader ts
    guard hasStart
    if beginsMarks ".." rest then (restOfRange reader true rest).map Prod.snd else return rest
  else if ["ref", "mut", "self"].any (beginsWord · ts) || beginsName ts then namePattern reader ts
  else if beginsMarks "&" ts then reader.rest .pattern (optionalWord "mut" ts.tail)
  else
    match ts with
    | .group .parenthesis content :: rest | .group .bracket content :: rest =>
        if isCommaList (reader.rest .patterns) content then some rest else none
    | ts => (restOfRange reader false ts).map Prod.snd

/-- Patterns with bars between them, perhaps with one before the first. -/
def readPatterns (reader : Reader) (ts : Trees) : Option Trees := do
  repeating
    (fun ts =>
      if beginsMarks "|" ts && !beginsMarks "||" ts && !beginsMarks "|=" ts then
        (reader.rest .pattern ts.tail).map (true, ·)
      else some (false, ts))
    (← reader.rest .pattern (optionalMarks "|" ts))

end LoxSyntax.Target
