import LoxSyntax.Schema.Error
import LoxSyntax.Schema.TypeMap
import LoxSyntax.Target.Accept
import LoxSyntax.Text.Blank
import LoxSyntax.Text.Snake

/-!
What shapes the generated code besides the grammar: the name of the base type, the imports, the
mapped types and the derived traits. A field that holds the base type itself is boxed, since the
node types contain each other.
-/

namespace LoxSyntax.Schema

open Text Target

structure Config where
  baseName : String
  imports : List String
  typeMap : TypeMap
  derives : List String
  deriving DecidableEq

namespace Config

/-- The configuration for expressions of Lox. -/
def standard : Config where
  baseName := "Expression"
  imports := ["crate::lexical::token::\x7bself, Token\x7d"]
  typeMap := TypeMap.empty.insert "Object" "Option<token::Literal>"
  derives := ["Debug", "Clone", "PartialEq"]

/-- The configuration with one more mapped type. -/
def mapType (config : Config) (source target : String) : Config :=
  { config with typeMap := config.typeMap.insert source target }

def visitorName (config : Config) : String :=
  config.baseName ++ "Visitor"

def fileName (config : Config) : String :=
  snake config.baseName ++ ".rs"

/-- The base type behind a pointer. -/
def boxedBase (config : Config) : String :=
  "Box<" ++ config.baseName ++ ">"

/-- What a type of the grammar is mapped to, or itself. -/
def mappedType (config : Config) (type : String) : String :=
  (config.typeMap.get? type).getD type

def fieldType (config : Config) (type : String) : String :=
  let mapped := config.mappedType type
  let compact := String.ofList (withoutBlanks mapped.toList)
  if compact = config.baseName then config.boxedBase
  else if compact = "Option<" ++ config.baseName ++ ">" then "Option<" ++ config.boxedBase ++ ">"
  else mapped

def getterType (config : Config) (type : String) : String :=
  if config.fieldType type = config.boxedBase then "&" ++ config.baseName
  else "&" ++ config.fieldType type

/-- The names that imports bring into scope, in order. -/
def importedBy (useTree? : String → Option UseTree) :
    List String → Except GrammarError (List String)
  | [] => .ok []
  | text :: rest =>
      match useTree? text with
      | none => .error (.invalidImport text)
      | some tree => (importedBy useTree? rest).map (tree.names none ++ ·)

def importedNames (config : Config) : Except GrammarError (List String) :=
  importedBy useTree? config.imports

end Config

end LoxSyntax.Schema
