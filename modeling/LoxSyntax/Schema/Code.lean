import LoxSyntax.Schema.Validate

/-!
The generated code, line by line: a trait of visitors, a sum type of all nodes, and for each rule a
structure with its constructor, its getters and its way into the sum type.
-/

namespace LoxSyntax.Schema

/-- The first line of all generated code. -/
def codeMark : String :=
  "// @generated by `generate_ast` from a grammar description. Do not edit by hand."

/-- The text without all copies of `r#` at its front. -/
def withoutRawMark : List Char → List Char
  | 'r' :: '#' :: rest => withoutRawMark rest
  | cs => cs

/-- A field as the generated code has it. -/
structure Member where
  name : String
  type : String
  getterType : String
  deriving DecidableEq, Repr

def Field.toMember (config : Config) (field : Field) : Member :=
  ⟨field.identifier, config.fieldType field.type, config.getterType field.type⟩

/-- The name and the type of a member, as both its declaration and its parameter have them. -/
def Member.typed (member : Member) : String :=
  member.name ++ ": " ++ member.type

namespace Config

/-- The line of derived traits, left out where there are none. -/
def deriveLines (config : Config) : List String :=
  if config.derives.isEmpty then []
  else ["#[derive(" ++ String.intercalate ", " config.derives ++ ")]"]

def importLines (config : Config) : List String :=
  if config.imports.isEmpty then []
  else "" :: config.imports.map fun text => "use " ++ text ++ ";"

def acceptLine (config : Config) : String :=
  String.join
    ["    pub fn accept<T, V: ", config.visitorName,
      "<T> + ?Sized>(&self, visitor: &mut V) -> T \x7b"]

end Config

namespace Rule

def members (config : Config) (rule : Rule) : List Member :=
  rule.fields.map (Field.toMember config)

def visitMethod (rule : Rule) : String :=
  "visit_" ++ rule.snakeName

def visitorLines (rule : Rule) : List String :=
  ["    /// Visits a [`" ++ rule.name ++ "`] node.",
    "    fn " ++ rule.visitMethod ++ "(&mut self, node: &" ++ rule.name ++ ") -> T;"]

def variantLines (rule : Rule) : List String :=
  ["    /// A [`" ++ rule.name ++ "`] node.",
    "    " ++ rule.name ++ "(" ++ rule.name ++ "),"]

def armLine (rule : Rule) : String :=
  String.join ["            Self::", rule.name, "(node) => node.accept(visitor),"]

def structLines (config : Config) (rule : Rule) : List String :=
  ["/// `" ++ rule.name ++ "` node."] ++ config.deriveLines ++
    ["pub struct " ++ rule.name ++ " \x7b"] ++
    (rule.members config).map (fun member => "    " ++ member.typed ++ ",") ++ ["\x7d"]

/-- The constructor. More than seven parameters need a remark. -/
def constructorLines (config : Config) (rule : Rule) : List String :=
  let members := rule.members config
  ["    /// Creates a new [`" ++ rule.name ++ "`] node.", "    #[must_use]"] ++
    (if members.length > 7 then ["    #[allow(clippy::too_many_arguments)]"] else []) ++
    ["    pub fn new(" ++ String.intercalate ", " (members.map Member.typed) ++ ") -> Self \x7b",
      "        Self \x7b"] ++
    members.map (fun member => "            " ++ member.name ++ ",") ++
    ["        \x7d", "    \x7d"]

def getterLines (member : Member) : List String :=
  ["",
    "    /// Gets the `" ++ String.ofList (withoutRawMark member.name.toList) ++ "` field.",
    "    #[must_use]",
    "    pub fn " ++ member.name ++ "(&self) -> " ++ member.getterType ++ " \x7b",
    "        &self." ++ member.name,
    "    \x7d"]

def acceptLines (config : Config) (rule : Rule) : List String :=
  ["",
    "    /// Calls [`" ++ config.visitorName ++ "::" ++ rule.visitMethod ++ "`] with this node.",
    config.acceptLine,
    "        visitor." ++ rule.visitMethod ++ "(self)",
    "    \x7d"]

def conversionLines (config : Config) (rule : Rule) : List String :=
  ["impl From<" ++ rule.name ++ "> for " ++ config.baseName ++ " \x7b",
    "    fn from(node: " ++ rule.name ++ ") -> Self \x7b",
    "        Self::" ++ rule.name ++ "(node)",
    "    \x7d",
    "\x7d"]

/-- All that is generated for the rule, after an empty line. -/
def codeLines (config : Config) (rule : Rule) : List String :=
  [""] ++ rule.structLines config ++
    ["", "impl " ++ rule.name ++ " \x7b"] ++ rule.constructorLines config ++
    (rule.members config).flatMap getterLines ++ rule.acceptLines config ++ ["\x7d", ""] ++
    rule.conversionLines config

end Rule

namespace Grammar

def visitorLines (config : Config) (grammar : Grammar) : List String :=
  ["/// Visitor over every [`" ++ config.baseName ++ "`] variant.",
    "pub trait " ++ config.visitorName ++ "<T> \x7b"] ++
    grammar.rules.flatMap Rule.visitorLines ++ ["\x7d"]

def baseLines (config : Config) (grammar : Grammar) : List String :=
  ["/// Closed set of `" ++ config.baseName ++ "` nodes."] ++ config.deriveLines ++
    ["pub enum " ++ config.baseName ++ " \x7b"] ++ grammar.rules.flatMap Rule.variantLines ++
    ["\x7d", "", "impl " ++ config.baseName ++ " \x7b",
      "    /// Calls the visitor method matching the concrete node.",
      config.acceptLine,
      "        match self \x7b"] ++
    grammar.rules.map Rule.armLine ++ ["        \x7d", "    \x7d", "\x7d"]

def codeLines (config : Config) (grammar : Grammar) : List String :=
  [codeMark] ++ config.importLines ++ [""] ++ grammar.visitorLines config ++ [""] ++
    grammar.baseLines config ++ grammar.rules.flatMap (Rule.codeLines config)

def render (config : Config) (grammar : Grammar) : String :=
  String.join ((grammar.codeLines config).map (· ++ "\n"))

end Grammar

/-- The code of a grammar text, if the grammar can be read and goes with the configuration. -/
def generate (source : String) (config : Config) : Except GrammarError String :=
  match Grammar.parse source with
  | .error error => .error error
  | .ok grammar => (grammar.validate config).map fun _ => grammar.render config

end LoxSyntax.Schema
