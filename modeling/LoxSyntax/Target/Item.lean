import LoxSyntax.Target.Expression
import LoxSyntax.Target.UseTree

/-!
Items: functions, constants, types, traits and their implementations, modules, imports and macros,
as they may stand between the statements of a block.
-/

namespace LoxSyntax.Target

/-- The word that makes an item public, and how far, if it stands here. -/
def visibility (ts : Trees) : Trees :=
  match ts with
  | .word "pub" :: .group .parenthesis [.word w] :: rest =>
      if ["crate", "self", "super"].contains w then rest else ts.tail
  | .word "pub" :: .group .parenthesis (.word "in" :: path) :: rest =>
      match wordPath path with
      | some [] => rest
      | _ => ts.tail
  | .word "pub" :: rest => rest
  | .word "crate" :: rest => if beginsMarks "::" rest then ts else rest
  | ts => ts

def genericParameters (reader : Reader) (ts : Trees) : Option Trees :=
  if beginsMarks "<" ts then angleList (reader.rest .genericParameter) ts else some ts

/-- Whether the predicates behind `where` end here. -/
def stopsWhere (ts : Trees) : Bool :=
  ts.isEmpty || beginsGroup .brace ts || beginsMarks "," ts || beginsMarks ";" ts ||
    (beginsMarks ":" ts && !beginsMarks "::" ts) || beginsMarks "=" ts

def wherePredicate (reader : Reader) (ts : Trees) : Option Trees := do
  if beginsLifetime ts && beginsMarks ":" (skip ts) then
    let rest ← marks ":" (← lifetime ts)
    repeating
      (fun ts =>
        if stopsWhere ts then some (false, ts)
        else do
          let rest ← lifetime ts
          return match marks "+" rest with
            | some rest => (true, rest)
            | none => (false, rest))
      rest
  else
    let (_, ts) ← optionalBinder reader ts
    let rest ← marks ":" (← reader.rest (.type true) ts)
    boundsUntil reader ⟨false, true⟩ stopsWhere rest

def whereClause (reader : Reader) (ts : Trees) : Option Trees :=
  match word "where" ts with
  | none => some ts
  | some rest => commaSeparated stopsWhere (wherePredicate reader) rest

def receiver (reader : Reader) (ts : Trees) : Option Trees := do
  let rest :=
    if beginsMarks "&" ts then (lifetime ts.tail).getD ts.tail else ts
  let rest ← word "self" (optionalWord "mut" rest)
  match marks ":" rest with
  | some rest => if beginsMarks "&" ts then none else reader.rest (.type true) rest
  | none => return rest

def parameter (reader : Reader) (ts : Trees) : Option Trees := do
  let ts ← attributes reader ts
  match receiver reader ts with
  | some rest => return rest
  | none =>
      if beginsMarks "..." ts then marks "..." ts
      else
        let rest ← marks ":" (← reader.rest .pattern ts)
        marks "..." rest <|> reader.rest (.type true) rest

/-- A function's head, up to its body or semicolon. -/
def signature (reader : Reader) (ts : Trees) : Option Trees := do
  let ts := ["const", "async", "unsafe", "safe"].foldl (fun ts w => optionalWord w ts) ts
  let rest ← name (← word "fn" (optionalConvention ts))
  let (content, rest) ← group .parenthesis (← genericParameters reader rest)
  guard (isCommaList (parameter reader) content)
  whereClause reader (← returnType reader rest)

def beginsSignature (ts : Trees) : Bool :=
  let ts := ["const", "async", "unsafe"].foldl (fun ts w => optionalWord w ts) ts
  beginsWord "fn" (optionalConvention ts)

def function (reader : Reader) (ts : Trees) : Option Trees := do
  let rest ← signature reader ts
  marks ";" rest <|> blockWithAttributes reader rest

def field (reader : Reader) (named : Bool) (ts : Trees) : Option Trees := do
  let ts := visibility (← attributes reader ts)
  if named then reader.rest (.type true) (← marks ":" (← word "_" ts <|> name ts))
  else reader.rest (.type true) ts

def structure_ (reader : Reader) (ts : Trees) : Option Trees := do
  let rest ← genericParameters reader (← name ts)
  match rest with
  | .group .parenthesis content :: rest =>
      guard (isCommaList (field reader false) content)
      marks ";" (← whereClause reader rest)
  | rest =>
      let rest ← whereClause reader rest
      match rest with
      | .group .brace content :: rest =>
          guard (isCommaList (field reader true) content)
          return rest
      | rest => marks ";" rest

def variant (reader : Reader) (ts : Trees) : Option Trees := do
  let ts := visibility (← attributes reader ts)
  let rest ← name ts
  let rest ←
    match rest with
    | .group .parenthesis content :: rest =>
        if isCommaList (field reader false) content then some rest else none
    | .group .brace content :: rest =>
        if isCommaList (field reader true) content then some rest else none
    | rest => some rest
  match marks "=" rest with
  | some rest => reader.rest (.expression true) rest
  | none => return rest

def enumeration (reader : Reader) (ts : Trees) : Option Trees := do
  let rest ← whereClause reader (← genericParameters reader (← name ts))
  let (content, rest) ← group .brace rest
  guard (isCommaList (variant reader) content)
  return rest

/-- A type's name, perhaps with bounds, a definition or predicates, behind its word. -/
def typeAlias (reader : Reader) (ts : Trees) : Option Trees := do
  let rest ← genericParameters reader (← name ts)
  let rest ←
    match marks ":" rest with
    | some rest =>
        boundsUntil reader ⟨false, true⟩
          (fun ts => beginsWord "where" ts || beginsMarks "=" ts || beginsMarks ";" ts) rest
    | none => some rest
  let rest ← whereClause reader rest
  let rest ←
    match marks "=" rest with
    | some rest => reader.rest (.type true) rest
    | none => some rest
  marks ";" (← whereClause reader rest)

def constant (reader : Reader) (ts : Trees) : Option Trees := do
  let rest ← name ts <|> word "_" ts
  let rest ←
    match marks ":" (← genericParameters reader rest) with
    | some rest => reader.rest (.type true) rest
    | none => some rest
  let rest ←
    match marks "=" rest with
    | some rest => reader.rest (.expression true) rest
    | none => some rest
  marks ";" (← whereClause reader rest)

def macroUse (ts : Trees) : Option Trees := do
  let rest ← marks "!" (← wordPath ts)
  let rest := if beginsName rest || beginsWord "try" rest then rest.tail else rest
  let (braced, rest) ← anyGroup rest
  if braced then return rest else marks ";" rest

/-- An item inside a trait, an implementation or a foreign block. -/
def associatedItem (reader : Reader) (ts : Trees) : Option Trees := do
  let ts ← attributes reader ts
  let ts := visibility ts
  let ts := if beginsMarks "!" ts.tail then ts else optionalWord "default" ts
  if beginsSignature ts || beginsWord "safe" ts then function reader ts
  else if beginsWord "const" ts then constant reader ts.tail
  else if beginsWord "static" ts then constant reader (optionalWord "mut" ts.tail)
  else if beginsWord "type" ts then typeAlias reader ts.tail
  else macroUse ts

def associatedItems (reader : Reader) (ts : Trees) : Option Trees := do
  let (content, rest) ← group .brace ts
  let items ← innerAttributes reader content
  let left ← repeating
    (fun ts =>
      if ts.isEmpty then some (false, ts)
      else (associatedItem reader ts).map (true, ·))
    items
  guard left.isEmpty
  return rest

def traitItem (reader : Reader) (ts : Trees) : Option Trees := do
  let rest ← genericParameters reader (← name ts)
  match marks "=" rest with
  | some rest =>
      let stop (ts : Trees) := beginsWord "where" ts || beginsMarks ";" ts
      marks ";" (← whereClause reader (← boundsUntil reader ⟨false, true⟩ stop rest))
  | none =>
      let rest ←
        match marks ":" rest with
        | some rest =>
            boundsUntil reader ⟨false, true⟩
              (fun ts => beginsWord "where" ts || beginsGroup .brace ts) rest
        | none => some rest
      associatedItems reader (← whereClause reader rest)

/-- Whether generic parameters, and not a type in angle brackets, begin here. -/
def beginsParameters (ts : Trees) : Bool :=
  let second := skip ts
  let third := skip second
  beginsMarks "<" ts &&
    (beginsMarks ">" second || beginsMarks "#" second || beginsWord "const" second ||
      ((beginsName second || beginsLifetime second) &&
        (beginsMarks ":" third && !beginsMarks "::" third || beginsMarks "," third ||
          beginsMarks ">" third || beginsMarks "=" third)))

def implementation (reader : Reader) (ts : Trees) : Option Trees := do
  let rest ← if beginsParameters ts then genericParameters reader ts else some ts
  let rest := optionalWord "const" rest
  let rest ← reader.rest (.type true) (optionalMarks "!" rest)
  let rest ←
    match word "for" rest with
    | some rest => reader.rest (.type true) rest
    | none => some rest
  associatedItems reader (← whereClause reader rest)

def module_ (reader : Reader) (ts : Trees) : Option Trees := do
  let rest ← name ts <|> word "try" ts
  match marks ";" rest with
  | some rest => return rest
  | none =>
      let (content, rest) ← group .brace rest
      let items ← innerAttributes reader content
      let left ← repeating
        (fun ts =>
          if ts.isEmpty then some (false, ts)
          else do
            let ts ← attributes reader ts
            return (true, ← reader.rest .item ts))
        items
      guard left.isEmpty
      return rest

def macroDefinition (ts : Trees) : Option Trees := do
  let rest ← name ts
  let rest :=
    match rest with
    | .group .parenthesis _ :: rest => rest
    | rest => rest
  (group .brace rest).map Prod.snd

/-- What follows the word for foreign things: another library or a block of declarations. -/
def foreign (reader : Reader) (ts : Trees) : Option Trees :=
  match ts with
  | .word "extern" :: .word "crate" :: rest => do
      let rest ← name rest <|> word "self" rest
      let rest ←
        match word "as" rest with
        | some rest => name rest <|> word "_" rest
        | none => some rest
      marks ";" rest
  | ts => associatedItems reader (optionalConvention ts)

def readItem (reader : Reader) (ts : Trees) : Option Trees :=
  let behind := visibility ts
  let after := behind.tail
  if beginsSignature behind then function reader behind
  else if beginsWord "extern" behind then foreign reader behind
  else if beginsWord "use" behind then do
    let rest ← useTree true (after.length + 1) (optionalMarks "::" after)
    marks ";" rest.2
  else if beginsWord "static" behind then constant reader (optionalWord "mut" after)
  else if beginsWord "const" behind then constant reader after
  else if beginsWord "unsafe" behind then
    if beginsWord "extern" after then foreign reader after
    else
      match word "trait" (optionalWord "auto" after), word "impl" after, word "mod" after with
      | some rest, _, _ => traitItem reader rest
      | none, some rest, _ => implementation reader rest
      | none, none, some rest => module_ reader rest
      | none, none, none => none
  else if beginsWord "mod" behind then module_ reader after
  else if beginsWord "type" behind then typeAlias reader after
  else if beginsWord "struct" behind then structure_ reader after
  else if beginsWord "enum" behind then enumeration reader after
  else if beginsWord "union" behind && beginsName after then structure_ reader after
  else if beginsWord "trait" behind then traitItem reader after
  else if beginsWord "auto" behind && beginsWord "trait" after then traitItem reader after.tail
  else if beginsWord "impl" behind then implementation reader after
  else if beginsWord "default" behind && !beginsMarks "!" after then do
    implementation reader (← word "impl" (optionalWord "unsafe" after))
  else if beginsWord "macro" behind then macroDefinition after
  else macroUse ts

end LoxSyntax.Target
