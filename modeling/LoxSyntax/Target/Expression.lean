import LoxSyntax.Target.Pattern
import LoxSyntax.Target.Type

/-!
Expressions. Operators are read by how tightly they bind; blocks, loops and branches are read by the
word before them. Where a block must follow, braces behind a path do not make a structure.
-/

namespace LoxSyntax.Target

/-! How tightly operators bind. -/

namespace Level

def lowest : Nat := 0
def assignment : Nat := 1
def range : Nat := 2
def comparison : Nat := 6
def cast : Nat := 13

end Level

/-- The operators between two operands, longer spellings first. -/
def operatorTable : List (String × Nat) := [
  ("<<=", 1), (">>=", 1), ("+=", 1), ("-=", 1), ("*=", 1), ("/=", 1), ("%=", 1), ("^=", 1),
  ("&=", 1), ("|=", 1), ("&&", 4), ("||", 3), ("<<", 10), (">>", 10), ("==", 6), ("<=", 6),
  ("!=", 6), (">=", 6), ("+", 11), ("-", 11), ("*", 12), ("/", 12), ("%", 12), ("^", 8), ("&", 9),
  ("|", 7), ("<", 6), (">", 6)]

/-- An operator between two operands: its level and the rest. -/
def binaryOperator (ts : Trees) : Option (Nat × Trees) :=
  operatorTable.findSome? fun (spelling, level) => (marks spelling ts).map (level, ·)

/-- Whether a plain equals sign stands here. -/
def beginsAssignment (ts : Trees) : Bool :=
  beginsMarks "=" ts && !beginsMarks "=>" ts

/-- The level of what stands here. -/
def nextLevel (ts : Trees) : Nat :=
  match binaryOperator ts with
  | some (level, _) => level
  | none =>
      if beginsAssignment ts then Level.assignment
      else if beginsMarks ".." ts then Level.range
      else if beginsWord "as" ts then Level.cast
      else Level.lowest

def beginsExpression (ts : Trees) : Bool :=
  (beginsAnyWord ts && !beginsWord "as" ts) || beginsGroup .parenthesis ts ||
    beginsGroup .bracket ts || beginsGroup .brace ts || beginsLiteral ts ||
    (beginsMarks "!" ts && !beginsMarks "!=" ts) ||
    (beginsMarks "-" ts && !beginsMarks "-=" ts && !beginsMarks "->" ts) ||
    (beginsMarks "*" ts && !beginsMarks "*=" ts) || (beginsMarks "|" ts && !beginsMarks "|=" ts) ||
    (beginsMarks "&" ts && !beginsMarks "&=" ts) || beginsMarks ".." ts ||
    (beginsMarks "<" ts && !beginsMarks "<=" ts && !beginsMarks "<<=" ts) ||
    beginsMarks "::" ts || beginsLifetime ts || beginsMarks "#" ts

def beginsDot (ts : Trees) : Bool :=
  beginsMarks "." ts && !beginsMarks ".." ts

/-- Whether a cast may stand before these trees without parentheses. -/
def mayFollowCast (ts : Trees) : Bool :=
  !(beginsDot ts || beginsMarks "?" ts || beginsGroup .bracket ts || beginsGroup .parenthesis ts)

/-- Where a range without an end stops. -/
def stopsRange (braces : Bool) (ts : Trees) : Bool :=
  ts.isEmpty || beginsDot ts || (!braces && beginsGroup .brace ts) || beginsWord "as" ts ||
    [",", ";", "?", "=>", "=", "+", "/", "%", "^", ">", "<=", "!=", "-=", "*=", "&=", "|=",
      "<<="].any (beginsMarks · ts)

/-- The dots and the end of a range. -/
def rangeBehind (reader : Reader) (braces : Bool) (ts : Trees) : Option Trees := do
  let (closed, rest) ← rangeDots false ts
  if !closed && stopsRange braces rest then return rest
  else reader.rest (.operand braces Level.range) rest

/-- One operator and its operand behind an expression, and the operators behind those. -/
def readOperators (reader : Reader) (braces : Bool) (lowest : Nat) (left : Form) (ts : Trees) :
    Option (Form × Trees) :=
  if left = .range then some (left, ts)
  else
    match binaryOperator ts with
    | some (level, right) =>
        if level < lowest then some (left, ts)
        else if level = Level.comparison && left = .comparison then none
        else do
          let rest ← reader.rest (.operand braces level) right
          let form := if level = Level.comparison then .comparison else .plain
          reader (.operators braces lowest form) rest
    | none =>
        if lowest ≤ Level.assignment && beginsAssignment ts then do
          let rest ← reader.rest (.operand braces Level.assignment) ts.tail
          reader (.operators braces lowest .plain) rest
        else if lowest ≤ Level.range && beginsMarks ".." ts then do
          reader (.operators braces lowest .range) (← rangeBehind reader braces ts)
        else if lowest ≤ Level.cast && beginsWord "as" ts then do
          let rest ← reader.rest (.type false) ts.tail
          guard (mayFollowCast rest)
          reader (.operators braces lowest .plain) rest
        else some (left, ts)

/-- Operators behind an operand that bind more tightly than the operator before it. -/
def readOperandRest (reader : Reader) (braces : Bool) (level : Nat) (form : Form) (ts : Trees) :
    Option (Form × Trees) :=
  let next := nextLevel ts
  if level < next || (level = next && level = Level.assignment) then do
    let (form, rest) ← reader (.operators braces next form) ts
    if rest.length = ts.length then return (form, rest)
    else reader (.operandRest braces level form) rest
  else some (form, ts)

def readOperand (reader : Reader) (braces : Bool) (level : Nat) (ts : Trees) :
    Option (Form × Trees) := do
  let (form, rest) ← reader (.unary braces) ts
  reader (.operandRest braces level form) rest

def readExpression (reader : Reader) (braces : Bool) (ts : Trees) : Option (Form × Trees) := do
  let (form, rest) ← reader (.unary braces) ts
  reader (.operators braces Level.lowest form) rest

/-- The numbers of nested fields, as a number with a point spells them: whether the last point has
no digits behind it. -/
def nestedFields (text : List Char) : Option Bool :=
  let rec go (current : List Char) : List Char → Option Bool
    | [] => if current.isEmpty then some true else if isFieldIndex current then some false else none
    | '.' :: cs => if isFieldIndex current then go [] cs else none
    | c :: cs => go (current ++ [c]) cs
  go [] text

def isFractional (text : List Char) : Bool :=
  text.head?.any Char.isDigit &&
    match text.dropWhile fun c => c.isDigit || c == '_' with
    | '.' :: _ => true
    | e :: more =>
        (e == 'e' || e == 'E') &&
          (more.dropWhile (· == '_')).head?.any fun c => c.isDigit || c == '+' || c == '-'
    | [] => false

def callArguments (reader : Reader) (ts : Trees) : Option Trees := do
  let (content, rest) ← group .parenthesis ts
  guard (isCommaList (reader.rest (.expression true)) content)
  return rest

/-- A field, a method call or an awaited value, behind the dot. -/
def readMember (reader : Reader) (ts : Trees) : Option Trees :=
  match word "await" ts with
  | some rest => some rest
  | none => do
      let (isNamed, rest) ← fieldName ts
      if isNamed && beginsMarks "::" rest then
        callArguments reader (← genericArguments reader rest)
      else if isNamed && beginsGroup .parenthesis rest then callArguments reader rest
      else return rest

/-- Calls, fields, indices and question marks behind an expression. -/
def readSuffixes (reader : Reader) (form : Form) (ts : Trees) : Option (Form × Trees) :=
  let isRange := form = .range
  match ts with
  | .group .parenthesis _ :: _ => do
      reader (.suffixes .plain) (← callArguments reader ts)
  | .group .bracket content :: rest =>
      if reader.all (.expression true) content then reader (.suffixes .plain) rest else none
  | ts =>
      if beginsDot ts && !isRange then
        match ts.tail with
        | .literal text :: rest =>
            if isFractional text.toList then
              match nestedFields text.toList with
              | none => none
              | some false => reader (.suffixes .plain) rest
              | some true => do reader (.suffixes .plain) (← readMember reader rest)
            else do reader (.suffixes .plain) (← readMember reader ts.tail)
        | rest => do reader (.suffixes .plain) (← readMember reader rest)
      else if beginsMarks "?" ts && !isRange then reader (.suffixes .plain) ts.tail
      else some (form, ts)

def fieldValue (reader : Reader) (ts : Trees) : Option Trees := do
  let (isNamed, rest) ← fieldName (← attributes reader ts)
  if !isNamed || beginsMarks ":" rest then do
    reader.rest (.expression true) (← marks ":" rest)
  else return rest

def isFieldValueList (reader : Reader) : Nat → Trees → Bool
  | 0, _ => false
  | _, [] => true
  | steps + 1, ts =>
      match marks ".." ts with
      | some base => base.isEmpty || reader.all (.expression true) base
      | none =>
          match fieldValue reader ts with
          | none => false
          | some [] => true
          | some rest =>
              match marks "," rest with
              | none => false
              | some rest => isFieldValueList reader steps rest

/-- What begins with a path: a macro, a structure, or the path alone. -/
def pathExpression (reader : Reader) (braces : Bool) (ts : Trees) : Option (Form × Trees) := do
  let (shape, rest) ← readPath reader true ts
  if beginsMarks "!" rest && !beginsMarks "!=" rest && shape.isPlain then
    let (braced, rest) ← anyGroup rest.tail
    return (if braced then .bracedMacro else .plain, rest)
  else
    match rest with
    | .group .brace content :: after =>
        if braces then
          guard (isFieldValueList reader (content.length + 1) content)
          return (.plain, after)
        else return (.plain, rest)
    | rest => return (.plain, rest)

/-- An array of listed or repeated values. -/
def isArray (reader : Reader) (content : Trees) : Bool :=
  content.isEmpty ||
    match reader.rest (.expression true) content with
    | none => false
    | some [] => true
    | some rest =>
        match marks ";" rest with
        | some length => reader.all (.expression true) length
        | none =>
            match marks "," rest with
            | some others => isCommaList (reader.rest (.expression true)) others
            | none => false

def closureParameter (reader : Reader) (ts : Trees) : Option Trees := do
  let rest ← reader.rest .pattern (← attributes reader ts)
  match marks ":" rest with
  | some rest => reader.rest (.type true) rest
  | none => return rest

def closure (reader : Reader) (braces : Bool) (ts : Trees) : Option Trees := do
  let (_, ts) ← optionalBinder reader ts
  let ts := ["const", "static", "async", "move"].foldl (fun ts w => optionalWord w ts) ts
  let rest ← commaSeparated (beginsMarks "|") (closureParameter reader) (← marks "|" ts)
  let rest ← marks "|" rest
  match marks "->" rest with
  | some rest => do block reader (← reader.rest (.type true) rest)
  | none => reader.rest (.expression braces) rest

def beginsClosure (ts : Trees) : Bool :=
  let after := ts.tail
  beginsMarks "|" ts || beginsWord "move" ts || beginsWord "static" ts ||
    (beginsWord "for" ts && beginsMarks "<" after &&
      (beginsLifetime (skip after) || beginsMarks ">" (skip after))) ||
    (beginsWord "const" ts && !beginsGroup .brace after) ||
    (beginsWord "async" ts && (beginsMarks "|" after || beginsWord "move" after))

/-- Branches, from the word `if` on; the number bounds them. -/
def branches (reader : Reader) : Nat → Trees → Option Trees
  | 0, _ => none
  | steps + 1, ts => do
      let rest ← block reader (← reader.rest (.expression false) (← word "if" ts))
      match word "else" rest with
      | none => return rest
      | some rest => if beginsWord "if" rest then branches reader steps rest else block reader rest

def endsByBrace (form : Form) : Bool :=
  form = .block

def matchArm (reader : Reader) (ts : Trees) : Option Trees := do
  let rest ← reader.rest .patterns (← attributes reader ts)
  let rest ←
    match word "if" rest with
    | some rest => reader.rest (.expression true) rest
    | none => some rest
  let (form, rest) ← reader .early (← marks "=>" rest)
  if endsByBrace form || rest.isEmpty then return optionalMarks "," rest else marks "," rest

def areMatchArms (reader : Reader) : Nat → Trees → Bool
  | 0, _ => false
  | _, [] => true
  | steps + 1, ts =>
      match matchArm reader ts with
      | none => false
      | some rest => areMatchArms reader steps rest

def matchExpression (reader : Reader) (ts : Trees) : Option Trees := do
  let (content, rest) ← group .brace (← reader.rest (.expression false) (← word "match" ts))
  let arms ← innerAttributes reader content
  guard (areMatchArms reader (arms.length + 1) arms)
  return rest

def loop (reader : Reader) (ts : Trees) : Option Trees :=
  match word "while" ts, word "for" ts, word "loop" ts with
  | some rest, _, _ => do
      blockWithAttributes reader (← reader.rest (.expression false) rest)
  | none, some rest, _ => do
      let rest ← word "in" (← reader.rest .patterns rest)
      blockWithAttributes reader (← reader.rest (.expression false) rest)
  | none, none, some rest => blockWithAttributes reader rest
  | none, none, none => none

def labeled (reader : Reader) (ts : Trees) : Option Trees := do
  let rest ← marks ":" (← lifetime ts)
  loop reader rest <|> blockWithAttributes reader rest

/-- A block with a word before it, or without. -/
def wordedBlock (reader : Reader) (ts : Trees) : Option Trees :=
  match word "try" ts, word "unsafe" ts, word "const" ts with
  | some rest, _, _ => block reader rest
  | none, some rest, _ => blockWithAttributes reader rest
  | none, none, some rest => blockWithAttributes reader rest
  | none, none, none => blockWithAttributes reader ts

/-- An expression that ends a statement by its closing brace. -/
def blockExpression (reader : Reader) (ts : Trees) : Option (Option Trees) :=
  let after := ts.tail
  if beginsWord "if" ts then some (branches reader (ts.length + 1) ts)
  else if beginsWord "while" ts || beginsWord "loop" ts ||
      (beginsWord "for" ts && !beginsMarks "<" after) then
    some (loop reader ts)
  else if beginsWord "match" ts then some (matchExpression reader ts)
  else if beginsWord "unsafe" ts || beginsGroup .brace ts ||
      ((beginsWord "try" ts || beginsWord "const" ts) && beginsGroup .brace after) then
    some (wordedBlock reader ts)
  else if beginsLifetime ts then some (labeled reader ts)
  else none

/-- A value behind a word that may stand alone. -/
def optionalValue (reader : Reader) (braces : Bool) (ts : Trees) : Option Trees :=
  if beginsExpression ts && (braces || !beginsGroup .brace ts) then
    reader.rest (.expression braces) ts
  else some ts

/-- What the compiler itself provides: a word, a name and any arguments in parentheses. -/
def provided (ts : Trees) : Option Trees := do
  let rest ← name (← marks "#" (← word "builtin" ts))
  return (← group .parenthesis rest).2

/-- An expression without operators and suffixes. -/
def atom (reader : Reader) (braces : Bool) (ts : Trees) : Option (Form × Trees) :=
  let after := ts.tail
  let plain (rest : Option Trees) : Option (Form × Trees) := rest.map (.plain, ·)
  if beginsLiteral ts then plain (literal ts)
  else if beginsWord "async" ts &&
      (beginsGroup .brace after || (beginsWord "move" after && beginsGroup .brace after.tail)) then
    plain (block reader (optionalWord "move" after))
  else if beginsWord "try" ts && beginsGroup .brace after then
    (block reader after).map (.block, ·)
  else if beginsClosure ts then plain (closure reader braces ts)
  else if beginsWord "builtin" ts && beginsMarks "#" after then plain (provided ts)
  else if beginsName ts || beginsMarks "::" ts || beginsMarks "<" ts ||
      ["self", "Self", "super", "crate"].any (beginsWord · ts) ||
      (beginsWord "try" ts && (beginsMarks "!" after || beginsMarks "::" after)) then
    pathExpression reader braces ts
  else
    match ts with
    | .group .parenthesis content :: rest =>
        if isCommaList (reader.rest (.expression true)) content then some (.plain, rest) else none
    | .group .bracket content :: rest =>
        if isArray reader content then some (.plain, rest) else none
    | .word "break" :: rest =>
        if beginsLifetime rest then
          let behind := skip rest
          if beginsMarks ":" behind then none else plain (optionalValue reader braces behind)
        else plain (optionalValue reader braces rest)
    | .word "continue" :: rest => some (.plain, (lifetime rest).getD rest)
    | .word "return" :: rest | .word "yield" :: rest =>
        if beginsExpression rest then plain (reader.rest (.expression true) rest)
        else some (.plain, rest)
    | .word "become" :: rest => plain (reader.rest (.expression true) rest)
    | .word "let" :: rest =>
        plain do
          let value ← marks "=" (← reader.rest .patterns rest)
          let (form, behind) ← reader (.unary braces) value
          reader.rest (.operators braces Level.comparison form) behind
    | .word "_" :: rest => some (.plain, rest)
    | ts =>
        if beginsMarks ".." ts then (rangeBehind reader braces ts).map (.range, ·)
        else
          match blockExpression reader ts with
          | some rest => rest.map (.block, ·)
          | none => none

/-- An operand with the signs before it and the suffixes behind it. -/
def readUnary (reader : Reader) (braces : Bool) (ts : Trees) : Option (Form × Trees) := do
  let ts ← attributes reader ts
  if beginsMarks "&" ts then
    let rest := ts.tail
    let rest ←
      if beginsWord "raw" rest && (beginsWord "mut" rest.tail || beginsWord "const" rest.tail) then
        some rest.tail.tail
      else some (optionalWord "mut" rest)
    (reader.rest (.unary braces) rest).map (.plain, ·)
  else if beginsMarks "*" ts || beginsMarks "!" ts || beginsMarks "-" ts then
    (reader.rest (.unary braces) ts.tail).map (.plain, ·)
  else
    let (form, rest) ← atom reader braces ts
    reader (.suffixes form) rest

/-- An expression at the start of a statement or as the body of an arm: a block ends it, unless a
dot or a question mark follows. -/
def readEarly (reader : Reader) (ts : Trees) : Option (Form × Trees) := do
  let ts ← attributes reader ts
  let (form, rest) ←
    match blockExpression reader ts with
    | some rest => rest.map (.block, ·)
    | none => reader (.unary true) ts
  if form != .block then reader (.operators true Level.lowest form) rest
  else if beginsDot rest || beginsMarks "?" rest then
    let (form, rest) ← reader (.suffixes form) rest
    reader (.operators true Level.lowest form) rest
  else return (form, rest)

end LoxSyntax.Target
