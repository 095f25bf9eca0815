import LoxSyntax.Target.Expression

/-!
The statements of a block. A statement that does not end in a brace needs a semicolon behind it,
except the last one.
-/

namespace LoxSyntax.Target

/-- Whether the trees read last, those before `rest`, end in a group in braces. -/
def endsInBraces (ts rest : Trees) : Bool :=
  match (ts.take (ts.length - rest.length)).getLast? with
  | some (.group .brace _) => true
  | _ => false

def binding (reader : Reader) (ts : Trees) : Option Trees := do
  let rest ← reader.rest .pattern ts
  let rest ←
    match marks ":" rest with
    | some rest => reader.rest (.type true) rest
    | none => some rest
  let rest ←
    match marks "=" rest with
    | none => some rest
    | some value => do
        let behind ← reader.rest (.expression true) value
        match word "else" behind with
        | some exit => if endsInBraces value behind then some behind else block reader exit
        | none => some behind
  if rest.isEmpty then return rest else marks ";" rest

def beginsItem (ts : Trees) : Bool :=
  let second := skip ts
  let third := skip second
  let secondIs (words : List String) := words.any (beginsWord · second)
  ["pub", "extern", "use", "fn", "mod", "type", "struct", "enum", "trait", "impl", "macro"].any
      (beginsWord · ts) ||
    (beginsWord "crate" ts && !beginsMarks "::" second) ||
    (beginsWord "static" ts &&
      (secondIs ["mut"] ||
        (beginsName second &&
          !(secondIs ["async"] && (beginsWord "move" third || beginsMarks "|" third))))) ||
    (beginsWord "const" ts &&
      !(beginsGroup .brace second || secondIs ["static", "move"] || beginsMarks "|" second ||
        (secondIs ["async"] && !(["unsafe", "extern", "fn"].any (beginsWord · third))))) ||
    (beginsWord "unsafe" ts && !beginsGroup .brace second) ||
    (beginsWord "async" ts && secondIs ["unsafe", "extern", "fn"]) ||
    (beginsWord "union" ts && beginsName second) ||
    (beginsWord "auto" ts && secondIs ["trait"]) ||
    (beginsWord "default" ts && secondIs ["unsafe", "impl"])

inductive StatementSort
  | complete
  /-- Complete only at the end of a block. -/
  | open_

/-- The use of a macro as a statement, if one stands here: with braces, or as an item with a name
of its own. -/
def statementMacro (reader : Reader) (ts : Trees) : Option (Option Trees) :=
  match wordPath ts with
  | none => none
  | some rest =>
      match marks "!" rest with
      | none => none
      | some after =>
          if beginsName after || beginsWord "try" after then some (reader.rest .item ts)
          else
            match group .brace after with
            | none => none
            | some (_, behind) =>
                if beginsDot behind || beginsMarks "?" behind then none
                else some (some (optionalMarks ";" behind))

def statementExpression (reader : Reader) (ts : Trees) : Option (StatementSort × Trees) := do
  let (form, rest) ← reader .early ts
  match marks ";" rest with
  | some rest => return (.complete, rest)
  | none => return (if form = .block || form = .bracedMacro then .complete else .open_, rest)

def statement (reader : Reader) (ts : Trees) : Option (StatementSort × Trees) := do
  let behind ← attributes reader ts
  match statementMacro reader behind with
  | some rest => rest.map (.complete, ·)
  | none =>
      match word "let" behind with
      | some rest => (binding reader rest).map (.complete, ·)
      | none =>
          if beginsItem behind then (reader.rest .item behind).map (.complete, ·)
          else statementExpression reader behind

def readStatements (reader : Reader) (ts : Trees) : Option Trees :=
  repeating
    (fun ts =>
      match ts with
      | [] => some (false, [])
      | ts =>
          match marks ";" ts with
          | some rest => some (true, rest)
          | none =>
              match statement reader ts with
              | none => none
              | some (.complete, rest) => some (true, rest)
              | some (.open_, rest) => if rest.isEmpty then some (false, []) else none)
    ts

end LoxSyntax.Target
