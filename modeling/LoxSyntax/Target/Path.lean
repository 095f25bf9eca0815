import LoxSyntax.Target.Phrase

/-!
Paths and their generic arguments, bounds, and generic parameters. Inside an expression the
arguments of a segment begin with a double colon; inside a type they need not.
-/

namespace LoxSyntax.Target

/-- A constant as a generic argument: a literal, a name, or a block. -/
def constantArgument (reader : Reader) (ts : Trees) : Option Trees :=
  literal ts <|> name ts <|> blockWithAttributes reader ts

def returnType (reader : Reader) (ts : Trees) : Option Trees :=
  match marks "->" ts with
  | some rest => reader.rest (.type false) rest
  | none => some ts

def functionArguments (reader : Reader) (ts : Trees) : Option Trees := do
  let (content, rest) ← group .parenthesis ts
  guard (isCommaList (reader.rest (.type true)) content)
  returnType reader rest

/-- Bounds with plus signs between them and perhaps one at the end, up to where `stop` holds. -/
def boundsUntil (reader : Reader) (place : BoundPlace) (stop : Trees → Bool) (ts : Trees) :
    Option Trees :=
  repeating
    (fun ts =>
      if stop ts then some (false, ts)
      else do
        let rest ← reader.rest (.bound place) ts
        return match marks "+" rest with
          | some rest => (true, rest)
          | none => (false, rest))
    ts

/-- A generic argument. A name may be given a value, or bounds. -/
def readGenericArgument (reader : Reader) (ts : Trees) : Option Trees :=
  if beginsLifetime ts && !beginsMarks "+" (skip ts) then lifetime ts
  else if beginsLiteral ts || beginsGroup .brace ts then constantArgument reader ts
  else
    match reader (.type true) ts with
    | none => none
    | some (.path shape, rest) =>
        if shape.qualified || shape.leading || shape.segments != 1 then some rest
        else
          match marks "=" rest, marks ":" rest with
          | some value, _ =>
              if beginsLiteral value || beginsGroup .brace value then constantArgument reader value
              else reader.rest (.type true) value
          | none, some bounds =>
              boundsUntil reader ⟨false, true⟩ (fun ts => beginsMarks "," ts || beginsMarks ">" ts)
                bounds
          | none, none => some rest
    | some (_, rest) => some rest

def genericArguments (reader : Reader) (ts : Trees) : Option Trees :=
  angleList (reader.rest .genericArgument) (optionalMarks "::" ts)

/-- One segment of a path: whether it has arguments, and the rest. -/
def pathSegment (reader : Reader) (inExpression : Bool) (ts : Trees) : Option (Bool × Trees) :=
  if ["super", "self", "crate", "try"].any (beginsWord · ts) then some (false, ts.tail)
  else
    match word "Self" ts <|> name ts with
    | none => none
    | some rest =>
        let bare := !inExpression && beginsMarks "<" rest && !beginsMarks "<=" rest &&
          !beginsMarks "<<=" rest
        let afterColons := beginsMarks "::" rest && beginsMarks "<" (skip (skip rest))
        if bare || afterColons then (genericArguments reader rest).map (true, ·)
        else some (false, rest)

/-- The segments behind a path of the given shape; the number bounds them. -/
def pathRest (reader : Reader) (inExpression : Bool) (shape : PathShape) :
    Nat → Trees → Option (PathShape × Trees)
  | 0, _ => none
  | steps + 1, ts =>
      match marks "::" ts with
      | none => some (shape, ts)
      | some rest =>
          if beginsGroup .parenthesis rest && !shape.qualified then some (shape, ts)
          else
            match pathSegment reader inExpression rest with
            | none => none
            | some (hasArguments, rest) =>
                let shape := { shape with
                  segments := shape.segments + 1
                  hasArguments := shape.hasArguments || hasArguments
                  endsInArguments := hasArguments }
                pathRest reader inExpression shape steps rest

def simplePath (reader : Reader) (inExpression : Bool) (ts : Trees) :
    Option (PathShape × Trees) := do
  let (hasArguments, rest) ← pathSegment reader inExpression (optionalMarks "::" ts)
  pathRest reader inExpression
    ⟨false, beginsMarks "::" ts, 1, hasArguments, hasArguments⟩ (ts.length + 1) rest

/-- A path, perhaps one that begins with a type, and a trait of that type, in angle brackets. -/
def readPath (reader : Reader) (inExpression : Bool) (ts : Trees) :
    Option (PathShape × Trees) :=
  match marks "<" ts with
  | none => simplePath reader inExpression ts
  | some rest => do
      let rest ← reader.rest (.type true) rest
      let rest ←
        match word "as" rest with
        | none => some rest
        | some rest => (simplePath reader false rest).map Prod.snd
      let rest ← marks "::" (← marks ">" rest)
      let (hasArguments, rest) ← pathSegment reader inExpression rest
      pathRest reader inExpression ⟨true, false, 1, hasArguments, hasArguments⟩ (ts.length + 1) rest

/-- Names bound for what follows: whether there are any, and the rest. -/
def optionalBinder (reader : Reader) (ts : Trees) : Option (Bool × Trees) :=
  match word "for" ts with
  | none => some (false, ts)
  | some rest => (angleList (reader.rest .genericParameter) rest).map (true, ·)

def traitBound (reader : Reader) (place : BoundPlace) (ts : Trees) : Option Trees := do
  let (binder, ts) ← optionalBinder reader ts
  let ts ←
    match ts with
    | .group .bracket [.word "const"] :: rest => if place.constants then some rest else none
    | .group .bracket _ :: _ => none
    | .word "const" :: rest => if place.constants then some rest else none
    | ts => some ts
  let ts ←
    match marks "?" ts with
    | none => some ts
    | some rest => if binder then none else some rest
  let (shape, rest) ← simplePath reader false ts
  let arguments := optionalMarks "::" rest
  if !shape.endsInArguments && beginsGroup .parenthesis arguments then
    functionArguments reader arguments
  else return rest

def readBound (reader : Reader) (place : BoundPlace) (ts : Trees) : Option (Form × Trees) :=
  match lifetime ts with
  | some rest => some (.plain, rest)
  | none =>
      match word "use" ts, group .parenthesis ts with
      | some rest, _ =>
          if place.captures then
            (angleList (fun ts => lifetime ts <|> name ts <|> word "Self" ts) rest).map (.plain, ·)
          else none
      | none, some (content, rest) =>
          match traitBound reader place content with
          | some [] => some (.trait, rest)
          | _ => none
      | none, none => (traitBound reader place ts).map (.trait, ·)

/-- A generic parameter: a type with bounds, a lifetime with bounds, or a constant. -/
def readGenericParameter (reader : Reader) (ts : Trees) : Option Trees := do
  let ts ← attributes reader ts
  if beginsName ts then
    let rest ←
      match marks ":" ts.tail with
      | none => some ts.tail
      | some bounds =>
          boundsUntil reader ⟨false, true⟩
            (fun ts => beginsMarks "," ts || beginsMarks ">" ts || beginsMarks "=" ts) bounds
    match marks "=" rest with
    | none => return rest
    | some default => reader.rest (.type true) default
  else if beginsLifetime ts then
    let rest ← lifetime ts
    match marks ":" rest with
    | none => return rest
    | some bounds =>
        repeating
          (fun ts =>
            if beginsMarks "," ts || beginsMarks ">" ts then some (false, ts)
            else do
              let rest ← lifetime ts
              return match marks "+" rest with
                | some rest => (true, rest)
                | none => (false, rest))
          bounds
  else
    let rest ← marks ":" (← name (← word "const" ts))
    let rest ← reader.rest (.type true) rest
    match marks "=" rest with
    | none => return rest
    | some default => constantArgument reader default

end LoxSyntax.Target
