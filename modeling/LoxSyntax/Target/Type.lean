import LoxSyntax.Target.Path

/-!
Types. A sum of bounds is read only where one may stand; behind a reference or an arrow the plus
sign belongs to what encloses the type.
-/

namespace LoxSyntax.Target

/-- Bounds of which at least one is a trait, with plus signs between them if a sum may stand. -/
def traitSum (reader : Reader) (place : BoundPlace) (sum : Bool) (ts : Trees) : Option Trees :=
  let rec go (found : Bool) : Nat → Trees → Option Trees
    | 0, _ => none
    | steps + 1, ts =>
        match reader (.bound place) ts with
        | none => none
        | some (form, rest) =>
            let found := found || form = .trait
            let finish (rest : Trees) : Option Trees := if found then some rest else none
            match marks "+" rest with
            | none => finish rest
            | some next =>
                if !sum then finish rest
                else if beginsAnyWord next || beginsMarks "::" next || beginsMarks "?" next ||
                    beginsLifetime next || beginsGroup .parenthesis next ||
                    (place.constants && (beginsGroup .bracket next || beginsMarks "~" next)) then
                  go found steps next
                else finish next
  go false (ts.length + 1) ts

def restOfSum (reader : Reader) (ts : Trees) : Option Trees :=
  repeating
    (fun ts =>
      match marks "+" ts with
      | none => some (false, ts)
      | some next => (reader.rest (.bound ⟨true, true⟩) next).map (true, ·))
    ts

/-- Plus signs and bounds behind a path; the last plus sign may stand alone. -/
def restOfPathSum (reader : Reader) (ts : Trees) : Option Trees :=
  repeating
    (fun ts =>
      match marks "+" ts with
      | none => some (false, ts)
      | some next =>
          if beginsAnyWord next || beginsMarks "::" next || beginsMarks "?" next ||
              beginsLifetime next || beginsGroup .parenthesis next then
            (reader.rest (.bound ⟨true, true⟩) next).map (true, ·)
          else some (false, next))
    ts

/-- A type in parentheses, a tuple, or a sum that begins with a bound in parentheses. -/
def parenthesizedType (reader : Reader) (sum : Bool) (content rest : Trees) :
    Option (Form × Trees) :=
  if content.isEmpty then some (.plain, rest)
  else if beginsLifetime content then
    match traitSum reader ⟨false, false⟩ true content with
    | some [] => some (.plain, rest)
    | _ => none
  else if beginsMarks "?" content then
    match traitBound reader ⟨false, false⟩ content with
    | some [] => (restOfSum reader rest).map fun after =>
        (if beginsMarks "+" rest then .plain else .trait, after)
    | _ => none
  else
    match reader (.type true) content with
    | none => none
    | some (form, []) =>
        let isBound := match form with
          | .path shape => !shape.qualified
          | .trait => true
          | _ => false
        if sum && beginsMarks "+" rest && isBound then
          (restOfSum reader rest).map (.plain, ·)
        else some (.plain, rest)
    | some (_, after) =>
        match marks "," after with
        | none => none
        | some others =>
            if isCommaList (reader.rest (.type true)) others then some (.plain, rest) else none

/-- A parameter of a function type. The first one may be the receiver. -/
def functionParameter (reader : Reader) (isFirst : Bool) (ts : Trees) : Option Trees :=
  let mutable := isFirst && beginsWord "mut" ts && beginsWord "self" ts.tail
  let ts := if mutable then ts.tail else ts
  let isReceiver := isFirst && beginsWord "self" ts
  let named := (beginsName ts || beginsWord "_" ts || isReceiver) && beginsMarks ":" (skip ts) &&
    !beginsMarks "::" (skip ts)
  if named then do reader.rest (.type true) (← marks ":" ts.tail)
  else if mutable then word "self" ts
  else reader.rest (.type true) ts

def beginsVariadic (ts : Trees) : Bool :=
  beginsMarks "..." ts ||
    ((beginsName ts || beginsWord "_" ts) && beginsMarks ":" (skip ts) &&
      beginsMarks "..." (skip (skip ts)))

def variadic (ts : Trees) : Option Trees := do
  let ts ← if beginsAnyWord ts then marks ":" ts.tail else some ts
  return optionalMarks "," (← marks "..." ts)

def isParameterList (reader : Reader) : Bool → Nat → Trees → Bool
  | _, 0, _ => false
  | _, _, [] => true
  | isFirst, steps + 1, ts =>
      match attributes reader ts with
      | none => false
      | some ts =>
          if beginsVariadic ts then
            match variadic ts with
            | some [] => true
            | _ => false
          else
            match attributes reader ts >>= functionParameter reader isFirst with
            | none => false
            | some [] => true
            | some rest =>
                match marks "," rest with
                | none => false
                | some rest => isParameterList reader false steps rest

def optionalConvention (ts : Trees) : Trees :=
  match ts with
  | .word "extern" :: .literal text :: rest =>
      if text.toList.head?.any fun c => c == '"' || c == 'r' then rest
      else .literal text :: rest
  | .word "extern" :: rest => rest
  | ts => ts

def functionType (reader : Reader) (ts : Trees) : Option Trees := do
  let ts := optionalConvention (optionalWord "unsafe" ts)
  let (content, rest) ← group .parenthesis (← word "fn" ts)
  guard (isParameterList reader true (content.length + 1) content)
  returnType reader rest

/-- A type that begins with a path, behind names bound for it. -/
def pathType (reader : Reader) (bound sum : Bool) (ts : Trees) : Option (Form × Trees) :=
  match readPath reader false ts with
  | none => none
  | some (shape, rest) =>
      if shape.qualified then some (.path shape, rest)
      else if beginsMarks "!" rest && !beginsMarks "!=" rest && shape.isPlain then
        (anyGroup rest.tail).map fun (_, rest) => (.plain, rest)
      else if sum && beginsMarks "+" rest then
        (restOfPathSum reader rest).map (.plain, ·)
      else some (if bound then .trait else .path shape, rest)

def mayFollowBinder (ts : Trees) : Bool :=
  beginsName ts ||
    ["fn", "unsafe", "extern", "super", "self", "Self", "crate"].any (beginsWord · ts)

def readType (reader : Reader) (sum : Bool) (ts : Trees) : Option (Form × Trees) := do
  let (bound, ts) ← optionalBinder reader ts
  guard (!bound || mayFollowBinder ts)
  match ts with
  | .group .parenthesis content :: rest => parenthesizedType reader sum content rest
  | .group .bracket content :: rest =>
      let after ← reader.rest (.type true) content
      match marks ";" after with
      | some length => if reader.all (.expression true) length then some (.plain, rest) else none
      | none => if after.isEmpty then some (.plain, rest) else none
  | ts =>
      if ["fn", "unsafe", "extern"].any (beginsWord · ts) then
        (functionType reader ts).map (.plain, ·)
      else if beginsName ts || ["super", "self", "Self", "crate"].any (beginsWord · ts) ||
          beginsMarks "::" ts || beginsMarks "<" ts then
        pathType reader bound sum ts
      else if beginsWord "dyn" ts then
        (traitSum reader ⟨false, false⟩ sum (optionalMarks "*" ts.tail)).map (.plain, ·)
      else if beginsMarks "*" ts then do
        let rest ← word "const" ts.tail <|> word "mut" ts.tail
        (reader.rest (.type false) rest).map (.plain, ·)
      else if beginsMarks "&" ts then
        let rest := (lifetime ts.tail).getD ts.tail
        (reader.rest (.type false) (optionalWord "mut" rest)).map (.plain, ·)
      else if beginsMarks "!" ts then some (.plain, ts.tail)
      else if beginsWord "impl" ts then
        (traitSum reader ⟨true, true⟩ sum ts.tail).map (.plain, ·)
      else if beginsWord "_" ts then some (.plain, ts.tail)
      else if beginsLifetime ts then
        (traitSum reader ⟨false, false⟩ true ts).map (.plain, ·)
      else none

end LoxSyntax.Target
